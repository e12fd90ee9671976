import PatternDiagram.Proofs.Gathering
import PatternDiagram.Proofs.Numerals

/-!
# What can be scanned

What a token can be, and what can follow it. Everything else that is said of single tokens is read
off these judgements:

* `EscapeForm.Denotes`, `Literal.Proper`, `Target.Proper`, `Quantifier.Proper`,
  `CharacterClass.Proper`: leaves and bounds that a pattern can have;
* `Escape.Scanned`, `Escape.scanned`: what an escape is read as;
* `Token.Scanned`, `Token.scanned_of_read`: what a token is read as;
* `ClassBody.read_proper`: the ranges of a class are in order;
* `Word.next?_proper`: **every word of a pattern is proper**.
-/

namespace PatternDiagram

/-! ## 1. Leaves -/

/-- The escape can stand for the character. The number behind a hexadecimal or an octal escape is a
    byte, and a control escape takes the last five bits of its letter. -/
def EscapeForm.Denotes : EscapeForm → Char → Prop
  | .lineFeed, c => c = '\n'
  | .carriageReturn, c => c = '\r'
  | .tab, c => c = '\t'
  | .verticalTab, c => c = '\x0b'
  | .formFeed, c => c = '\x0c'
  | .backspace, c => c = '\x08'
  | .null, c => c = '\x00'
  | .control letter, c => letter.isAlpha = true ∧ c.toNat = letter.toNat % 32
  | .hex, c => c.toNat ≤ 0xFF
  | .unicode, _ => True
  | .octal, c => c.toNat ≤ 0xFF

def Literal.Proper : Literal → Prop
  | .escaped value form => form.Denotes value
  | _ => True

/-- Groups are counted from one. -/
def Target.Proper : Target → Prop
  | .index n => 1 ≤ n
  | .name _ => True

/-- The bounds are in order. -/
def Quantifier.Proper (q : Quantifier) : Prop := ∀ max, q.max = some max → q.min ≤ max

def ClassItem.Proper : ClassItem → Prop
  | .range lo hi => lo ≤ hi
  | _ => True

/-- The ranges are in order. -/
def CharacterClass.Proper (c : CharacterClass) : Prop := ∀ item ∈ c.items, item.Proper

instance : ∀ (form : EscapeForm) (c : Char), Decidable (form.Denotes c)
  | .lineFeed, c => inferInstanceAs (Decidable (c = '\n'))
  | .carriageReturn, c => inferInstanceAs (Decidable (c = '\r'))
  | .tab, c => inferInstanceAs (Decidable (c = '\t'))
  | .verticalTab, c => inferInstanceAs (Decidable (c = '\x0b'))
  | .formFeed, c => inferInstanceAs (Decidable (c = '\x0c'))
  | .backspace, c => inferInstanceAs (Decidable (c = '\x08'))
  | .null, c => inferInstanceAs (Decidable (c = '\x00'))
  | .control letter, c =>
      inferInstanceAs (Decidable (letter.isAlpha = true ∧ c.toNat = letter.toNat % 32))
  | .hex, c => inferInstanceAs (Decidable (c.toNat ≤ 0xFF))
  | .unicode, _ => isTrue trivial
  | .octal, c => inferInstanceAs (Decidable (c.toNat ≤ 0xFF))

instance : ∀ l : Literal, Decidable l.Proper
  | .escaped value form => inferInstanceAs (Decidable (form.Denotes value))
  | .char _ | .any | .set _ => isTrue trivial

instance : ∀ t : Target, Decidable t.Proper
  | .index n => inferInstanceAs (Decidable (1 ≤ n))
  | .name _ => isTrue trivial

instance : ∀ q : Quantifier, Decidable q.Proper
  | ⟨_, none, _⟩ => isTrue (by simp [Quantifier.Proper])
  | ⟨min, some max, _⟩ => decidable_of_iff (min ≤ max) (by simp [Quantifier.Proper])

instance : ∀ item : ClassItem, Decidable item.Proper
  | .range lo hi => inferInstanceAs (Decidable (lo ≤ hi))
  | .char _ | .escape _ => isTrue trivial

instance (c : CharacterClass) : Decidable c.Proper :=
  inferInstanceAs (Decidable (∀ item ∈ c.items, item.Proper))

/-! ## 2. Escapes -/

theorem toNat_ofNat_of_isValidChar {n : Nat} (h : n.isValidChar) : (Char.ofNat n).toNat = n := by
  rw [Char.ofNat, dif_pos h]
  rfl

namespace Escape

theorem octal_le (more value : Nat) (cs : List Char) (h : value ≤ 255) :
    (octal more value cs).1 ≤ 255 := by
  fun_induction octal more value cs with
  | case1 more value c cs larger hc ih => exact ih hc.2
  | case2 => exact h
  | case3 => exact h

theorem toNat_charOfCode? {n : Nat} {c : Char} (h : charOfCode? n = some c) : c.toNat = n := by
  unfold charOfCode? at h
  split at h
  · rename_i hn
    simp only [Option.some.injEq] at h
    rw [← h, toNat_ofNat_of_isValidChar hn]
  · simp at h

theorem toNat_ofNat_of_le {n : Nat} (h : n ≤ 255) : (Char.ofNat n).toNat = n :=
  toNat_ofNat_of_isValidChar (.inl (by omega))

theorem toNat_hex_two {c : Char} {cs rest : List Char} (h : hex 2 cs = (some c, rest)) :
    c.toNat ≤ 0xFF := by
  unfold hex at h
  split at h
  · simp only [Prod.mk.injEq] at h
    rw [toNat_charOfCode? h.1]
    have hvalue := Numeral.value_lt (cs.take 2)
    have hpow : 16 ^ (cs.take 2).length ≤ 16 ^ 2 :=
      Nat.pow_le_pow_right (by omega) (List.length_take_le 2 cs)
    omega
  · simp at h

theorem toNat_controlChar (letter : Char) : (controlChar letter).toNat = letter.toNat % 32 :=
  toNat_ofNat_of_le (by omega)

/-- What the escape of letter `c` in front of `cs` can be read as, and what is left. -/
inductive Scanned (c : Char) (cs : List Char) : Literal → List Char → Prop where
  | set (e : EscapeClass) : Scanned c cs (.set e) cs
  | escaped (value : Char) (form : EscapeForm) (rest : List Char) (hvalue : form.Denotes value)
      (hnull : form = .null → ∀ d, rest.head? = some d → Numeral.isDigit 8 d = false) :
      Scanned c cs (.escaped value form) rest
  | letter (rest : List Char) (hc : c ≠ '0') : Scanned c cs (.char c) rest
  | backslash (rest : List Char) : Scanned c cs (.char '\\') rest

/-- Without an octal digit nothing is read. -/
theorem octal_stops {cs : List Char} (h : (octal 2 0 cs).2.length = cs.length) :
    ∀ d, cs.head? = some d → Numeral.isDigit 8 d = false := by
  intro d hd
  cases cs with
  | nil => simp at hd
  | cons e es =>
    obtain rfl : e = d := by simpa using hd
    simp only [octal] at h
    split at h
    · have hsuffix := (octal_suffix 1 (0 * 8 + (Numeral.digit? e).getD 0) es).length_le
      simp only [List.length_cons] at h
      omega
    · rename_i hoctal
      have hlarger := Numeral.getD_digit?_lt e
      cases hdigit : Numeral.isDigit 8 e with
      | false => rfl
      | true => exact absurd ⟨hdigit, by omega⟩ hoctal

/-- **Every escape is read as one of these.** -/
theorem scanned (c : Char) (cs : List Char) : Scanned c cs (read c cs).1 (read c cs).2 := by
  unfold read
  split
  · exact .set _
  · exact .set _
  · exact .set _
  · exact .set _
  · exact .set _
  · exact .set _
  · exact .escaped _ _ _ rfl (by simp)
  · exact .escaped _ _ _ rfl (by simp)
  · exact .escaped _ _ _ rfl (by simp)
  · exact .escaped _ _ _ rfl (by simp)
  · exact .escaped _ _ _ rfl (by simp)
  · dsimp only
    split
    · rename_i hlength
      exact .escaped _ _ _ rfl fun _ => octal_stops hlength
    · have hvalue := octal_le 2 0 cs (by omega)
      refine .escaped _ _ _ ?_ (by simp)
      rw [EscapeForm.Denotes, toNat_ofNat_of_le hvalue]
      exact hvalue
  · split
    · split
      · rename_i letter rest hletter
        exact .escaped _ _ _ ⟨hletter, toNat_controlChar letter⟩ (by simp)
      · exact .backslash _
    · exact .backslash _
  · split
    · rename_i hhex
      exact .escaped _ _ _ (toNat_hex_two hhex) (by simp)
    · exact .letter _ (by decide)
  · split
    · exact .escaped _ _ _ trivial (by simp)
    · exact .letter _ (by decide)
  · exact .letter _ ‹_›

end Escape

/-! ## 3. Tokens -/

namespace Token

/-- A number that begins with a digit other than nought is at least one. -/
theorem one_le_index {c : Char} (cs : List Char) (hc : c.isDigit = true) (hne : c ≠ '0') :
    1 ≤ min (Numeral.value 10 (digits (c :: cs))) greatestIndex := by
  have hdigit : 1 ≤ (Numeral.digit? c).getD 0 := by
    have hnought : c.toNat ≠ '0'.toNat := fun e => hne (Char.toNat_inj.mp e)
    rw [Numeral.digit?_of_isDigit hc, Option.getD_some]
    rw [Char.isDigit_iff_toNat] at hc
    omega
  have hvalue : 1 ≤ Numeral.value 10 (digits (c :: cs)) := by
    simp only [digits, List.takeWhile_cons, hc, if_true, Numeral.value_cons]
    exact Nat.le_add_right_of_le (Nat.mul_pos hdigit (Nat.pow_pos (by omega)))
  exact Nat.le_min.mpr ⟨hvalue, by decide⟩

/-- What the token of `c` in front of `cs` can be read as, and what is left. -/
inductive Scanned (c : Char) (cs : List Char) : Token → List Char → Prop where
  | char : Scanned c cs (.literal (.char c)) cs
  | any : Scanned c cs (.literal .any) cs
  | escape (d : Char) (left : List Char) {l : Literal} {rest : List Char}
      (hd : d.isDigit = true → d = '0') (h : Escape.Scanned d left l rest) :
      Scanned c cs (.literal l) rest
  | classOpen (negated : Bool) (rest : List Char) : Scanned c cs (.classOpen negated) rest
  | anchor (a : Anchor) (rest : List Char) : Scanned c cs (.anchor a) rest
  | groupOpen (head : GroupHead) (rest : List Char)
      (hhead : head = .capture none → rest.head? ≠ some '?') :
      Scanned c cs (.groupOpen head) rest
  | groupClose : Scanned c cs .groupClose cs
  | quantifier (q : Quantifier) (rest : List Char) (hq : q.Proper)
      (hgreedy : q.greedy = true → rest.head? ≠ some '?') : Scanned c cs (.quantifier q) rest
  | bar : Scanned c cs .bar cs
  | index (n : Nat) (rest : List Char) (hn : 1 ≤ n)
      (hrest : ∀ d, rest.head? = some d → d.isDigit = false) :
      Scanned c cs (.backreference (.index n)) rest
  | name (s : String) (rest : List Char) : Scanned c cs (.backreference (.name s)) rest

theorem scanned_lazily (c : Char) (cs : List Char) (min : Nat) (max : Option Nat)
    (rest : List Char) (h : ∀ n, max = some n → min ≤ n) :
    Scanned c cs (lazily min max rest).1 (lazily min max rest).2 := by
  unfold lazily
  split
  · exact .quantifier _ _ h (by simp)
  · rename_i hmark
    refine .quantifier _ _ h fun _ hhead => ?_
    cases rest with
    | nil => simp at hhead
    | cons d ds =>
      obtain rfl : d = '?' := by simpa using hhead
      exact hmark ds rfl

theorem scanned_braces {site cs rest : List Char} {t : Token}
    (h : braces site cs = .ok (t, rest)) : Scanned '{' cs t rest := by
  unfold braces at h
  split at h
  · simp only [Except.ok.injEq, Prod.mk.injEq] at h
    obtain ⟨rfl, rfl⟩ := h
    exact .char
  · rename_i m n left _
    split at h
    · simp at h
    · rename_i hle
      have hlazy := scanned_lazily '{' cs m (some n) left (by simpa using hle)
      simp only [Except.ok.injEq] at h
      rwa [h] at hlazy
  · rename_i m left _
    have hlazy := scanned_lazily '{' cs m none left (by simp)
    simp only [Except.ok.injEq] at h
    rwa [h] at hlazy

theorem scanned_group {site cs rest : List Char} {t : Token}
    (h : group site cs = .ok (t, rest)) : Scanned '(' cs t rest := by
  unfold group at h
  split at h
  case h_6 =>
    split at h
    · simp only [Except.ok.injEq, Prod.mk.injEq] at h
      obtain ⟨rfl, rfl⟩ := h
      exact .groupOpen _ _ (by simp)
    · simp at h
  case h_8 =>
    rename_i hmark
    simp only [Except.ok.injEq, Prod.mk.injEq] at h
    obtain ⟨rfl, rfl⟩ := h
    refine .groupOpen _ _ fun _ hhead => ?_
    cases cs with
    | nil => simp at hhead
    | cons d ds =>
      obtain rfl : d = '?' := by simpa using hhead
      exact hmark ds rfl
  all_goals simp only [reduceCtorEq, Except.ok.injEq, Prod.mk.injEq] at h
  all_goals
    obtain ⟨rfl, rfl⟩ := h
    exact .groupOpen _ _ (by simp)

theorem scanned_escape {site cs rest : List Char} {t : Token}
    (h : escape site cs = .ok (t, rest)) : Scanned '\\' cs t rest := by
  unfold escape at h
  split at h
  · simp at h
  · simp only [Except.ok.injEq, Prod.mk.injEq] at h
    obtain ⟨rfl, rfl⟩ := h
    exact .anchor _ _
  · simp only [Except.ok.injEq, Prod.mk.injEq] at h
    obtain ⟨rfl, rfl⟩ := h
    exact .anchor _ _
  · split at h
    · simp only [Except.ok.injEq, Prod.mk.injEq] at h
      obtain ⟨rfl, rfl⟩ := h
      exact .name _ _
    · simp at h
  · rename_i c left _ _ _
    split at h
    · rename_i hc
      simp only [Except.ok.injEq, Prod.mk.injEq] at h
      obtain ⟨rfl, rfl⟩ := h
      refine .index _ _ (one_le_index left hc.1 hc.2) fun d hd => ?_
      have hstop := List.head?_dropWhile_not Char.isDigit (c :: left)
      rw [show (c :: left).dropWhile Char.isDigit = afterDigits (c :: left) from rfl, hd] at hstop
      exact hstop
    · rename_i hc
      simp only [Except.ok.injEq, Prod.mk.injEq] at h
      obtain ⟨rfl, rfl⟩ := h
      refine .escape c left (fun hdigit => ?_) (Escape.scanned c left)
      by_cases hnought : c = '0'
      · exact hnought
      · exact absurd ⟨hdigit, hnought⟩ hc

/-- **Every token is read as one of these.** -/
theorem scanned_of_read {c : Char} {cs rest : List Char} {t : Token}
    (h : read c cs = .ok (t, rest)) : Scanned c cs t rest := by
  unfold read at h
  split at h
  case h_3 => exact scanned_group h
  case h_4 =>
    split at h
    all_goals
      simp only [Except.ok.injEq, Prod.mk.injEq] at h
      obtain ⟨rfl, rfl⟩ := h
      exact .classOpen _ _
  case h_8 =>
    have hlazy := scanned_lazily '*' cs 0 none cs (by simp)
    simp only [Except.ok.injEq] at h
    rwa [h] at hlazy
  case h_9 =>
    have hlazy := scanned_lazily '+' cs 1 none cs (by simp)
    simp only [Except.ok.injEq] at h
    rwa [h] at hlazy
  case h_10 =>
    have hlazy := scanned_lazily '?' cs 0 (some 1) cs (by simp)
    simp only [Except.ok.injEq] at h
    rwa [h] at hlazy
  case h_11 => exact scanned_braces h
  case h_12 => exact scanned_escape h
  all_goals
    simp only [Except.ok.injEq, Prod.mk.injEq] at h
    obtain ⟨rfl, rfl⟩ := h
    constructor

end Token

/-! ## 4. Classes -/

namespace ClassBody

theorem ofLiteral_proper (l : Literal) : (ofLiteral l).Proper := by
  cases l <;> trivial

theorem escape_proper (c : Char) (cs : List Char) : (escape c cs).1.Proper := by
  unfold escape
  split
  · trivial
  · split
    · trivial
    · exact ofLiteral_proper _

theorem atom_proper {c : Char} {cs rest : List Char} {item : ClassItem}
    (h : atom c cs = some (item, rest)) : item.Proper := by
  unfold atom at h
  split at h
  · split at h
    · simp at h
    · rename_i d left
      simp only [Option.some.injEq] at h
      have hescape := escape_proper d left
      rwa [h] at hescape
  · simp only [Option.some.injEq, Prod.mk.injEq] at h
    rw [← h.1]
    trivial

theorem members_proper {start site rest left : List Char} {item : ClassItem}
    {found : List ClassItem} (hitem : item.Proper)
    (h : members start site item rest = .ok (found, left)) : ∀ i ∈ found, i.Proper := by
  rcases members_ok_cases h with ⟨-, rfl, -⟩ |
    ⟨d, more, upper, -, -, hatom, ⟨lo, hi, -, -, hle, rfl⟩ | rfl⟩
  · simpa using hitem
  · simpa [ClassItem.Proper] using hle
  · have hdash : (ClassItem.char '-').Proper := trivial
    simp [hitem, atom_proper hatom, hdash]

/-- **The ranges of a class that is read are in order.** -/
theorem read_proper {start cs rest : List Char} {items : List ClassItem}
    (h : read start cs = .ok (items, rest)) : ∀ i ∈ items, i.Proper := by
  fun_induction read start cs generalizing items rest with
  | case1 => simp at h
  | case2 =>
    simp only [Except.ok.injEq, Prod.mk.injEq] at h
    simp [← h.1]
  | case3 => simp at h
  | case4 => simp at h
  | case5 => simp at h
  | case6 c cs hc item more hatom found left hmembers others rest' hread ih =>
    simp only [Except.ok.injEq, Prod.mk.injEq] at h
    rw [← h.1]
    intro i hi
    rcases List.mem_append.mp hi with hi | hi
    · exact members_proper (atom_proper hatom) hmembers i hi
    · exact ih hread i hi

end ClassBody

/-! ## 5. Words -/

/-- A word that is a token has been scanned. -/
theorem Word.scanned_of_next? {cs rest : List Char} {t : Token}
    (h : Word.next? cs = some (.token t, rest)) :
    ∃ c more, cs = c :: more ∧ Token.Scanned c more t rest := by
  obtain ⟨hnext, -⟩ := next?_token_iff.mp h
  cases cs with
  | nil => simp at h
  | cons c more =>
    simp only [Token.next] at hnext
    split at hnext
    · rename_i found hread
      simp only [Except.ok.injEq, Option.some.injEq] at hnext
      subst hnext
      exact ⟨c, more, rfl, Token.scanned_of_read hread⟩
    · simp at hnext

/-- What the grammar takes from the token is proper. -/
def Token.Proper : Token → Prop
  | .literal l => l.Proper
  | .backreference t => t.Proper
  | .quantifier q => q.Proper
  | _ => True

/-- What the grammar takes from the word is proper. -/
def Word.Proper : Word → Prop
  | .token t => t.Proper
  | .characterClass c => c.Proper

theorem Escape.Scanned.proper {c : Char} {cs rest : List Char} {l : Literal}
    (h : Escape.Scanned c cs l rest) : l.Proper := by
  cases h with
  | escaped value form rest hvalue _ => exact hvalue
  | _ => trivial

theorem Token.Scanned.proper {c : Char} {cs rest : List Char} {t : Token}
    (h : Token.Scanned c cs t rest) : t.Proper := by
  cases h with
  | escape d left _ h => exact h.proper
  | quantifier q rest hq _ => exact hq
  | index n rest hn _ => exact hn
  | _ => trivial

/-- **Every word of a pattern is proper.** -/
theorem Word.next?_proper {cs rest : List Char} {w : Word}
    (h : Word.next? cs = some (w, rest)) : w.Proper := by
  cases w with
  | token t =>
    obtain ⟨c, more, -, hscanned⟩ := scanned_of_next? h
    exact hscanned.proper
  | characterClass c =>
    obtain ⟨inner, -, hread⟩ := next?_characterClass_iff.mp h
    exact ClassBody.read_proper hread

theorem Reads.proper {cs rest : List Char} {ws : List Word} (h : Reads cs ws rest) :
    ∀ w ∈ ws, w.Proper := by
  induction h with
  | done => simp
  | more hw _ ih =>
    intro w hmem
    rcases List.mem_cons.mp hmem with rfl | hmem
    · exact Word.next?_proper hw
    · exact ih w hmem

end PatternDiagram
