import PatternDiagram.Proofs.Counts
import PatternDiagram.Proofs.WellFormed
import PatternDiagram.Pattern.Label
import PatternDiagram.Pattern.Repeat

/-!
# Words as they are typed

The way back from words to text:

* `Literal.written`, `Anchor.written`, `Target.written`, `GroupHead.written`, `RepeatShape.written`,
  `Quantifier.written`: the parts; a class is typed as `CharacterClass.source` says;
* `Word.written`: the text of a word;
* `Word.Typable`: the words that have a text of their own;
* `Word.swallows`: the characters that must not follow directly, since they would become part of
  the word;
* `Word.next?_written`: **a word that is typed is read again**, whatever follows it otherwise.
-/

namespace PatternDiagram

/-! ## 1. Texts -/

/-- The characters that mean something in a pattern, and the slash that delimits it. -/
def syntaxChars : List Char :=
  ['\\', '^', '$', '.', '*', '+', '?', '(', ')', '[', ']', '{', '}', '|', '/']

/-- An escaped character in the form in which it was typed. The backspace is only typed in classes;
    elsewhere this is the word boundary. -/
def EscapeForm.written (value : Char) : EscapeForm → List Char
  | .lineFeed => ['\\', 'n']
  | .carriageReturn => ['\\', 'r']
  | .tab => ['\\', 't']
  | .verticalTab => ['\\', 'v']
  | .formFeed => ['\\', 'f']
  | .backspace => ['\\', 'b']
  | .null => ['\\', '0']
  | .control letter => ['\\', 'c', letter]
  | .hex => '\\' :: 'x' :: Numeral.paddedUpper 2 16 value.toNat
  | .unicode => '\\' :: 'u' :: '{' :: (Numeral.write 16 value.toNat ++ ['}'])
  | .octal => '\\' :: '0' :: Numeral.padded 2 8 value.toNat

def Literal.written : Literal → List Char
  | .char c => if c ∈ syntaxChars then ['\\', c] else [c]
  | .any => ['.']
  | .set e => e.source
  | .escaped value form => form.written value

def Anchor.written : Anchor → List Char
  | .start => ['^']
  | .finish => ['$']
  | .wordBoundary => ['\\', 'b']
  | .nonWordBoundary => ['\\', 'B']

def Target.written : Target → List Char
  | .index n => '\\' :: Numeral.write 10 n
  | .name s => '\\' :: 'k' :: '<' :: (s.toList ++ ['>'])

def GroupHead.written : GroupHead → List Char
  | .capture none => ['(']
  | .capture (some s) => '(' :: '?' :: '<' :: (s.toList ++ ['>'])
  | .plain => ['(', '?', ':']
  | .look .ahead .positive => ['(', '?', '=']
  | .look .ahead .negative => ['(', '?', '!']
  | .look .behind .positive => ['(', '?', '<', '=']
  | .look .behind .negative => ['(', '?', '<', '!']

/-- The bounds of a repetition, by their sign if they have one. -/
def RepeatShape.written : RepeatShape → List Char
  | .optional => ['?']
  | .zeroOrMore => ['*']
  | .oneOrMore => ['+']
  | .exact n => '{' :: (Numeral.write 10 n ++ ['}'])
  | .atLeast m => '{' :: (Numeral.write 10 m ++ [',', '}'])
  | .bounded m n => '{' :: (Numeral.write 10 m ++ ',' :: (Numeral.write 10 n ++ ['}']))

/-- A quantifier, with a question mark if it is lazy. -/
def Quantifier.written (q : Quantifier) : List Char :=
  q.shape.written ++ if q.greedy then [] else ['?']

def Token.written : Token → List Char
  | .literal l => l.written
  | .classOpen negated => '[' :: if negated then ['^'] else []
  | .anchor a => a.written
  | .groupOpen head => head.written
  | .groupClose => [')']
  | .quantifier q => q.written
  | .bar => ['|']
  | .backreference t => t.written

def Word.written : Word → List Char
  | .token t => t.written
  | .characterClass c => c.source

/-! ## 2. What can be typed -/

/-- The text is the name of a group. -/
def isName (s : String) : Bool :=
  match s.toList with
  | [] => false
  | c :: cs => Token.startsName c && cs.all Token.continuesName

/-- The form can be typed for the character outside of classes. An octal escape has two digits
    behind its nought. -/
def EscapeForm.Typable : EscapeForm → Char → Prop
  | .backspace, _ => False
  | .octal, c => c.toNat ≤ 0o77
  | _, _ => True

def Literal.Typable : Literal → Prop
  | .escaped value form => form.Denotes value ∧ form.Typable value
  | _ => True

/-- Numbers and counts are as large as they can be read at most. -/
def Target.Typable : Target → Prop
  | .index n => 1 ≤ n ∧ n ≤ Token.greatestIndex
  | .name s => isName s = true

def Quantifier.Typable (q : Quantifier) : Prop :=
  q.Proper ∧ q.min ≤ Token.greatestCount ∧ ∀ max, q.max = some max → max ≤ Token.greatestCount

def GroupHead.Typable : GroupHead → Prop
  | .capture (some s) => isName s = true
  | _ => True

/-- **The word can be typed.** -/
def Word.Typable : Word → Prop
  | .token (.literal l) => l.Typable
  | .token (.backreference t) => t.Typable
  | .token (.quantifier q) => q.Typable
  | .token (.groupOpen head) => head.Typable
  | .token (.classOpen _) => False
  | .token _ => True
  | .characterClass c => c.Proper

instance : ∀ (form : EscapeForm) (c : Char), Decidable (form.Typable c)
  | .backspace, _ => isFalse id
  | .octal, c => inferInstanceAs (Decidable (c.toNat ≤ 0o77))
  | .lineFeed, _ | .carriageReturn, _ | .tab, _ | .verticalTab, _ | .formFeed, _ => isTrue trivial
  | .null, _ | .control _, _ | .hex, _ | .unicode, _ => isTrue trivial

instance : ∀ l : Literal, Decidable l.Typable
  | .escaped value form => inferInstanceAs (Decidable (form.Denotes value ∧ form.Typable value))
  | .char _ | .any | .set _ => isTrue trivial

instance : ∀ t : Target, Decidable t.Typable
  | .index n => inferInstanceAs (Decidable (1 ≤ n ∧ n ≤ Token.greatestIndex))
  | .name s => inferInstanceAs (Decidable (isName s = true))

instance : ∀ q : Quantifier, Decidable q.Typable
  | ⟨min, none, _⟩ => decidable_of_iff (min ≤ Token.greatestCount)
      (by simp [Quantifier.Typable, Quantifier.Proper])
  | ⟨min, some max, _⟩ =>
      decidable_of_iff (min ≤ max ∧ min ≤ Token.greatestCount ∧ max ≤ Token.greatestCount)
        (by simp [Quantifier.Typable, Quantifier.Proper])

/-- The character would become part of the word in front of it. -/
def Word.swallows : Word → Char → Bool
  | .token (.groupOpen (.capture none)), c => c == '?'
  | .token (.quantifier q), c => q.greedy && c == '?'
  | .token (.backreference (.index _)), c => c.isDigit
  | .token (.literal (.escaped _ .null)), c => Numeral.isDigit 8 c
  | _, _ => false

/-- The word is at its end in front of the text. -/
def Word.EndsBefore (w : Word) (rest : List Char) : Prop :=
  ∀ c, rest.head? = some c → w.swallows c = false

/-! ## 3. Escapes -/

namespace Escape

theorem charOfCode?_toNat (c : Char) : charOfCode? c.toNat = some c := by
  rw [charOfCode?, if_pos (show c.toNat.isValidChar from c.valid), Char.ofNat_toNat]

/-- Digits of base sixteen are read as the number that they denote. -/
theorem hex_append {n : Nat} {ds : List Char} (rest : List Char) (hlength : ds.length = n)
    (hds : ∀ d ∈ ds, Numeral.isDigit 16 d = true) :
    hex n (ds ++ rest) = (charOfCode? (Numeral.value 16 ds), rest) := by
  subst hlength
  have hdigits : hexDigits ds = ds := by
    have hend (c : Char) (hc : ([] : List Char).head? = some c) : Numeral.isDigit 16 c = false := by
      simp at hc
    simpa [hexDigits] using (takeWhile_append_of_all hds hend).1
  simp [hex, hdigits]

theorem hex_written {n : Nat} (hn : 0 < n) {c : Char} (hc : c.toNat < 16 ^ n) (rest : List Char) :
    hex n (Numeral.paddedUpper n 16 c.toNat ++ rest) = (some c, rest) := by
  rw [hex_append rest (Numeral.length_paddedUpper (by omega) hn hc)
    fun d hd => Numeral.isDigit_of_mem_paddedUpper (by omega) (by omega) hd,
    Numeral.value_paddedUpper (by omega) (by omega), charOfCode?_toNat]

/-- Four digits without braces are read as the number that they denote. -/
theorem code_append {ds : List Char} (rest : List Char) (hlength : ds.length = 4)
    (hds : ∀ d ∈ ds, Numeral.isDigit 16 d = true) :
    code (ds ++ rest) = (charOfCode? (Numeral.value 16 ds), rest) := by
  rw [← hex_append rest hlength hds]
  cases ds with
  | nil => simp at hlength
  | cons d ds =>
    unfold code
    split
    · rename_i heq
      simp only [List.cons_append, List.cons.injEq] at heq
      exact absurd (hds d List.mem_cons_self) (by rw [heq.1]; decide)
    · rfl

theorem code_written {c : Char} (hc : c.toNat < 16 ^ 4) (rest : List Char) :
    code (Numeral.paddedUpper 4 16 c.toNat ++ rest) = (some c, rest) := by
  rw [code_append rest (Numeral.length_paddedUpper (by omega) (by omega) hc)
    fun d hd => Numeral.isDigit_of_mem_paddedUpper (by omega) (by omega) hd,
    Numeral.value_paddedUpper (by omega) (by omega), charOfCode?_toNat]

/-- Digits in braces. -/
theorem code_braces (c : Char) (rest : List Char) :
    code ('{' :: (Numeral.write 16 c.toNat ++ '}' :: rest)) = (some c, rest) := by
  have hdigits : hexDigits (Numeral.write 16 c.toNat ++ '}' :: rest) = Numeral.write 16 c.toNat :=
    (takeWhile_append_of_all (fun d hd => Numeral.isDigit_of_mem_write (by omega) (by omega) hd)
      (by simp only [List.head?_cons, Option.some.injEq, forall_eq']; decide)).1
  have hne : (Numeral.write 16 c.toNat).isEmpty = false := by
    simp [Numeral.write]
  have hvalue : Numeral.value 16 (Numeral.write 16 c.toNat) = c.toNat :=
    Numeral.value_write (by omega) (by omega) _
  simp only [code, hdigits, List.drop_left, hne, hvalue, charOfCode?_toNat]
  rfl

/-- Two digits behind a nought. -/
theorem octal_written {n : Nat} (hn : n ≤ 0o77) (rest : List Char) :
    octal 2 0 (Numeral.padded 2 8 n ++ rest) = (n, rest) := by
  have hlength : (Numeral.padded 2 8 n).length = 2 :=
    Numeral.length_padded (by omega) (by omega) (by omega)
  have hvalue : Numeral.value 8 (Numeral.padded 2 8 n) = n :=
    Numeral.value_padded (by omega) (by omega)
  have hdigit (d : Char) (hd : d ∈ Numeral.padded 2 8 n) : Numeral.isDigit 8 d = true :=
    Numeral.isDigit_of_mem_padded (by omega) (by omega) hd
  obtain ⟨c, d, hpadded⟩ : ∃ c d, Numeral.padded 2 8 n = [c, d] := by
    match Numeral.padded 2 8 n, hlength with
    | [c, d], _ => exact ⟨c, d, rfl⟩
  rw [hpadded] at hvalue hdigit ⊢
  simp only [Numeral.value, List.foldl_cons, List.foldl_nil] at hvalue
  simp only [List.cons_append, List.nil_append, octal]
  rw [if_pos ⟨hdigit c (by simp), by omega⟩, if_pos ⟨hdigit d (by simp), by omega⟩, hvalue]

end Escape

/-! ## 4. Tokens -/

namespace Token

/-- An escape that is no place, no reference and no number of a group. -/
theorem next_escape {c : Char} {cs rest : List Char} {l : Literal} (hb : c ≠ 'b') (hB : c ≠ 'B')
    (hk : c ≠ 'k') (hdigit : c.isDigit = true → c = '0') (h : Escape.read c cs = (l, rest)) :
    next ('\\' :: c :: cs) = .ok (some (.literal l, rest)) := by
  have hescape : escape ('\\' :: c :: cs) (c :: cs) = .ok (.literal l, rest) := by
    unfold escape
    split
    · simp_all
    · simp_all
    · simp_all
    · simp_all
    · rename_i heq
      simp only [List.cons.injEq] at heq
      obtain ⟨rfl, rfl⟩ := heq
      rw [if_neg fun hc => hc.2 (hdigit hc.1), h]
  simp [next, read, hescape]

theorem next_char (c : Char) (rest : List Char) :
    next ((Literal.char c).written ++ rest) = .ok (some (.literal (.char c), rest)) := by
  by_cases hc : c ∈ syntaxChars
  · simp only [Literal.written, if_pos hc]
    simp only [syntaxChars, List.mem_cons, List.not_mem_nil, or_false] at hc
    rcases hc with rfl | rfl | rfl | rfl | rfl | rfl | rfl | rfl | rfl | rfl | rfl | rfl | rfl |
      rfl | rfl <;> rfl
  · have hread : read c rest = .ok (.literal (.char c), rest) := by
      unfold read
      split <;> simp_all [syntaxChars]
    simp [Literal.written, hc, next, hread]

theorem next_set (e : EscapeClass) (rest : List Char) :
    next (e.source ++ rest) = .ok (some (.literal (.set e), rest)) := by
  cases e <;> rfl

theorem next_escaped {value : Char} {form : EscapeForm} {rest : List Char}
    (h : (Literal.escaped value form).Typable)
    (hend : (Word.token (.literal (.escaped value form))).EndsBefore rest) :
    next (form.written value ++ rest) = .ok (some (.literal (.escaped value form), rest)) := by
  obtain ⟨hdenotes, htypable⟩ := h
  cases form with
  | lineFeed => obtain rfl := hdenotes; rfl
  | carriageReturn => obtain rfl := hdenotes; rfl
  | tab => obtain rfl := hdenotes; rfl
  | verticalTab => obtain rfl := hdenotes; rfl
  | formFeed => obtain rfl := hdenotes; rfl
  | backspace => exact htypable.elim
  | null =>
    obtain rfl := hdenotes
    refine next_escape (by decide) (by decide) (by decide) (fun _ => rfl) ?_
    have hoctal : Escape.octal 2 0 rest = (0, rest) := by
      cases rest with
      | nil => rfl
      | cons c cs =>
        have hc : Numeral.isDigit 8 c = false := hend c rfl
        simp [Escape.octal, hc]
    simp [Escape.read, hoctal]
  | control letter =>
    obtain ⟨hletter, hvalue⟩ := hdenotes
    refine next_escape (by decide) (by decide) (by decide) (by decide) ?_
    have hchar : Escape.controlChar letter = value := by
      rw [Escape.controlChar, ← hvalue, Char.ofNat_toNat]
    simp [Escape.read, hletter, hchar]
  | hex =>
    refine next_escape (by decide) (by decide) (by decide) (by decide) ?_
    have hhex := Escape.hex_written (n := 2) (by omega) (Nat.lt_succ_of_le hdenotes) rest
    simp only [Escape.read, List.append_eq, hhex]
  | unicode =>
    refine next_escape (by decide) (by decide) (by decide) (by decide) ?_
    have hcode := Escape.code_braces value rest
    simp [Escape.read, hcode]
  | octal =>
    refine next_escape (by decide) (by decide) (by decide) (fun _ => rfl) ?_
    have hoctal := Escape.octal_written htypable rest
    have hlength : (Numeral.padded 2 8 value.toNat).length = 2 :=
      Numeral.length_padded (by omega) (by omega) (Nat.lt_succ_of_le htypable)
    simp [Escape.read, hoctal, hlength, Char.ofNat_toNat]

theorem next_literal {l : Literal} {rest : List Char} (h : l.Typable)
    (hend : (Word.token (.literal l)).EndsBefore rest) :
    next (l.written ++ rest) = .ok (some (.literal l, rest)) := by
  cases l with
  | char c => exact next_char c rest
  | any => rfl
  | set e => exact next_set e rest
  | escaped value form => exact next_escaped h hend

theorem next_anchor (a : Anchor) (rest : List Char) :
    next (a.written ++ rest) = .ok (some (.anchor a, rest)) := by
  cases a <;> rfl

/-! ### Counts and names -/

theorem isDigit_of_mem_write {c : Char} {n : Nat} (h : c ∈ Numeral.write 10 n) :
    c.isDigit = true := Nat.isDigit_of_mem_toDigits (by omega) (by omega) h

/-- A number is read up to the first character that is no digit. -/
theorem digits_written (n : Nat) {rest : List Char}
    (hrest : ∀ c, rest.head? = some c → c.isDigit = false) :
    digits (Numeral.write 10 n ++ rest) = Numeral.write 10 n ∧
      afterDigits (Numeral.write 10 n ++ rest) = rest :=
  takeWhile_append_of_all (fun _ hd => isDigit_of_mem_write hd) hrest

/-- The digits of a number are a count, and stand for the number if it is one of 32 bits. -/
theorem isCount_write (n : Nat) : IsCount (Numeral.write 10 n) :=
  ⟨Nat.toDigits_ne_nil, fun _ hd => isDigit_of_mem_write hd⟩

theorem countOf_write {n : Nat} (hn : n ≤ greatestCount) : countOf (Numeral.write 10 n) = n := by
  rw [countOf, Numeral.value_write (by omega) (by omega)]
  exact Nat.min_eq_left hn

theorem bounds?_exact {n : Nat} (hn : n ≤ greatestCount) (rest : List Char) :
    bounds? (Numeral.write 10 n ++ '}' :: rest) = some ((n, some n), rest) := by
  have hread := (Bounds.exactly (isCount_write n)).read rest
  simpa [countOf_write hn] using hread

theorem bounds?_atLeast {m : Nat} (hm : m ≤ greatestCount) (rest : List Char) :
    bounds? (Numeral.write 10 m ++ ',' :: '}' :: rest) = some ((m, none), rest) := by
  have hread := (Bounds.atLeast (isCount_write m)).read rest
  simpa [countOf_write hm] using hread

theorem bounds?_bounded {m n : Nat} (hm : m ≤ greatestCount) (hn : n ≤ greatestCount)
    (rest : List Char) :
    bounds? (Numeral.write 10 m ++ ',' :: (Numeral.write 10 n ++ '}' :: rest)) =
      some ((m, some n), rest) := by
  have hread := (Bounds.between (isCount_write m) (isCount_write n)).read rest
  simpa [countOf_write hm, countOf_write hn] using hread

theorem lazily_written (min : Nat) (max : Option Nat) {greedy : Bool} {rest : List Char}
    (hrest : greedy = true → rest.head? ≠ some '?') :
    lazily min max ((if greedy = true then [] else ['?']) ++ rest) =
      (.quantifier ⟨min, max, greedy⟩, rest) := by
  cases greedy with
  | false => rfl
  | true =>
    simp only [if_true, List.nil_append]
    unfold lazily
    split
    · exact absurd rfl (hrest rfl)
    · rfl

theorem next_quantifier {q : Quantifier} {rest : List Char} (h : q.Typable)
    (hend : (Word.token (.quantifier q)).EndsBefore rest) :
    next (q.written ++ rest) = .ok (some (.quantifier q, rest)) := by
  obtain ⟨min, max, greedy⟩ := q
  obtain ⟨hproper, hmin, hmax⟩ := h
  have hrest (hg : greedy = true) : rest.head? ≠ some '?' := by
    intro e
    have hswallow := hend '?' e
    simp [Word.swallows, hg] at hswallow
  have hlazy := fun min max => lazily_written min max hrest
  simp only [Quantifier.written]
  unfold Quantifier.shape
  split
  · rename_i hmin' hmax'
    obtain ⟨rfl, rfl⟩ : min = 0 ∧ max = some 1 := ⟨hmin', hmax'⟩
    simp [RepeatShape.written, next, read, hlazy]
  · rename_i hmin' hmax'
    obtain ⟨rfl, rfl⟩ : min = 0 ∧ max = none := ⟨hmin', hmax'⟩
    simp [RepeatShape.written, next, read, hlazy]
  · rename_i hmin' hmax'
    obtain ⟨rfl, rfl⟩ : min = 1 ∧ max = none := ⟨hmin', hmax'⟩
    simp [RepeatShape.written, next, read, hlazy]
  · rename_i hmax' _ _
    obtain rfl : max = none := hmax'
    simp [RepeatShape.written, next, read, braces, bounds?_atLeast hmin, hlazy]
  · rename_i n hmax' _
    obtain rfl : max = some n := hmax'
    have hle : min ≤ n := hproper n rfl
    have hn : n ≤ greatestCount := hmax n rfl
    split
    · obtain rfl : min = n := ‹_›
      simp [RepeatShape.written, next, read, braces, bounds?_exact hn, hlazy]
    · simp [RepeatShape.written, next, read, braces, bounds?_bounded hmin hn, hlazy,
        Nat.not_lt.mpr hle]

theorem nameRun_written {s : String} (h : isName s = true) (rest : List Char) :
    nameRun (s.toList ++ '>' :: rest) = (s.toList, '>' :: rest) ∧ s.toList ≠ [] := by
  unfold isName at h
  cases hs : s.toList with
  | nil => simp [hs] at h
  | cons c cs =>
    simp only [hs, Bool.and_eq_true, List.all_eq_true] at h
    have hclose : ∀ d, ('>' :: rest).head? = some d → continuesName d = false := by
      intro d hd
      obtain rfl : '>' = d := by simpa using hd
      decide +kernel
    obtain ⟨htake, hdrop⟩ := takeWhile_append_of_all h.2 hclose
    exact ⟨by simp [nameRun, h.1, htake, hdrop], by simp⟩

theorem name_written {s : String} (h : isName s = true) (site rest : List Char) :
    name site (s.toList ++ '>' :: rest) = .ok (s, rest) := by
  obtain ⟨hrun, hne⟩ := nameRun_written h rest
  unfold name
  cases hs : s.toList with
  | nil => exact absurd hs hne
  | cons c cs =>
    rw [hs] at hrun
    rw [hrun]
    simp only
    rw [← hs, String.ofList_toList]

/-- A name does not look like the rest of a lookbehind. -/
theorem head_isName {s : String} (h : isName s = true) : ∃ c cs, s.toList = c :: cs ∧
    c ≠ '=' ∧ c ≠ '!' := by
  unfold isName at h
  cases hs : s.toList with
  | nil => simp [hs] at h
  | cons c cs =>
    simp only [hs, Bool.and_eq_true] at h
    refine ⟨c, cs, rfl, ?_, ?_⟩
    · intro e
      subst e
      exact absurd h.1 (by decide +kernel)
    · intro e
      subst e
      exact absurd h.1 (by decide +kernel)

theorem next_groupOpen {head : GroupHead} {rest : List Char} (h : head.Typable)
    (hend : (Word.token (.groupOpen head)).EndsBefore rest) :
    next (head.written ++ rest) = .ok (some (.groupOpen head, rest)) := by
  cases head with
  | plain => rfl
  | look direction polarity => cases direction <;> cases polarity <;> rfl
  | capture name =>
    cases name with
    | none =>
      have hrest : rest.head? ≠ some '?' := fun e => absurd (hend '?' e) (by decide)
      have hgroup : group ('(' :: rest) rest = .ok (.groupOpen (.capture none), rest) := by
        unfold group
        split <;> simp_all
      simp [GroupHead.written, next, read, hgroup]
    | some s =>
      obtain ⟨c, cs, hs, heq, hbang⟩ := head_isName h
      have hname := fun site => name_written h site rest
      rw [hs] at hname
      have hgroup (site : List Char) : group site ('?' :: '<' :: c :: (cs ++ '>' :: rest)) =
          .ok (.groupOpen (.capture (some s)), rest) := by
        simp only [List.cons_append] at hname
        unfold group
        split
        case h_7 =>
          rename_i hangle heq'
          simp only [List.cons.injEq, true_and] at heq'
          exact absurd heq'.symm (hangle _)
        all_goals simp_all
      simp [GroupHead.written, hs, next, read, hgroup]

theorem next_backreference {t : Target} {rest : List Char} (h : t.Typable)
    (hend : (Word.token (.backreference t)).EndsBefore rest) :
    next (t.written ++ rest) = .ok (some (.backreference t, rest)) := by
  cases t with
  | name s =>
    have hname := fun site => name_written h site rest
    simp [Target.written, next, read, escape, hname]
  | index n =>
    obtain ⟨hn, hmax⟩ := h
    obtain ⟨hdigits, hafter⟩ := digits_written n hend
    have hnought : (Numeral.write 10 n).head? ≠ some '0' :=
      Numeral.head?_write_ne (by omega) (by omega) hn
    have hvalue : Numeral.value 10 (Numeral.write 10 n) = n :=
      Numeral.value_write (by omega) (by omega) n
    cases hwrite : Numeral.write 10 n with
    | nil => exact absurd hwrite Nat.toDigits_ne_nil
    | cons d ds =>
      have hd : d.isDigit = true := isDigit_of_mem_write (n := n) (by simp [hwrite])
      rw [hwrite] at hdigits hafter hnought hvalue
      have hescape (site : List Char) : escape site (d :: (ds ++ rest)) =
          .ok (.backreference (.index n), rest) := by
        unfold escape
        split
        · simp_all
        · simp_all
        · simp_all
        · simp_all
        · simp_all
      simp [Target.written, hwrite, next, read, hescape]

end Token

/-! ## 5. Classes -/

namespace ClassBody

/-- The text begins with an atom, and with nothing that means something in a class. -/
structure Begins (cs : List Char) (item : ClassItem) (rest : List Char) : Prop where
  reads : ∃ c more, cs = c :: more ∧ atom c more = some (item, rest)
  ordinary : ∀ c, cs.head? = some c → c ≠ ']' ∧ c ≠ '^' ∧ c ≠ '-'

theorem begins_escape {c : Char} {cs rest : List Char} {l : Literal} (hb : c ≠ 'b')
    (hdigit : ¬ ('1' ≤ c ∧ c ≤ '7')) (h : Escape.read c cs = (l, rest)) :
    Begins ('\\' :: c :: cs) (ofLiteral l) rest where
  reads := ⟨_, _, rfl, by simp [atom, escape, hb, hdigit, h]⟩
  ordinary := by
    intro d hd
    obtain rfl : '\\' = d := by simpa using hd
    decide

theorem begins_classChar (c : Char) (rest : List Char) :
    Begins (classChar c ++ rest) (.char c) rest := by
  unfold classChar
  split
  · rename_i h
    rcases h with rfl | rfl | rfl | rfl
    · exact begins_escape (by decide) (by decide) rfl
    · exact begins_escape (by decide) (by decide) rfl
    · exact begins_escape (by decide) (by decide) rfl
    · exact begins_escape (by decide) (by decide) rfl
  split
  · rename_i h
    subst h
    exact begins_escape (by decide) (by decide) rfl
  split
  · rename_i h
    subst h
    exact begins_escape (by decide) (by decide) rfl
  split
  · rename_i h
    subst h
    exact begins_escape (by decide) (by decide) rfl
  split
  · rename_i h
    have hc : c.toNat < 16 ^ 4 := by
      simp only [isControl, Bool.or_eq_true, Bool.and_eq_true, decide_eq_true_eq] at h
      omega
    have hcode := Escape.code_written hc rest
    have hread : Escape.read 'u' (Numeral.paddedUpper 4 16 c.toNat ++ rest) =
        (.escaped c .unicode, rest) := by
      simp [Escape.read, hcode]
    exact begins_escape (by decide) (by decide) hread
  · rename_i h _ _ _ _
    simp only [not_or] at h
    refine ⟨⟨c, rest, rfl, by simp [atom, h.1]⟩, ?_⟩
    intro d hd
    obtain rfl : c = d := by simpa using hd
    exact h.2

theorem begins_set (e : EscapeClass) (rest : List Char) :
    Begins (e.source ++ rest) (.escape e) rest := by
  cases e <;> exact begins_escape (by decide) (by decide) rfl

/-- The members that begin with one atom come first. -/
theorem read_of_members {start cs : List Char} {c : Char} {item : ClassItem}
    {found items : List ClassItem} {rest left behind : List Char} (hc : c ≠ ']')
    (hatom : atom c cs = some (item, rest))
    (hmembers : members start (c :: cs) item rest = .ok (found, left))
    (hread : read start left = .ok (items, behind)) :
    read start (c :: cs) = .ok (found ++ items, behind) := by
  have hpiece : piece start c cs = .ok (found, left) := by
    rw [piece, hatom]
    exact hmembers
  exact (read_cons_iff hc hpiece).mpr ⟨items, hread, rfl⟩

/-- An atom that no dash follows is a member by itself. -/
theorem read_single {start cs rest behind : List Char} {item : ClassItem}
    {items : List ClassItem} (h : Begins cs item rest) (hdash : rest.head? ≠ some '-')
    (hread : read start rest = .ok (items, behind)) :
    read start cs = .ok (item :: items, behind) := by
  obtain ⟨⟨c, more, rfl, hatom⟩, hordinary⟩ := h
  have htail : rangeTail? rest = none := by
    cases hrest : rangeTail? rest with
    | none => rfl
    | some found =>
      obtain ⟨rfl, -⟩ := rangeTail?_eq_some_iff.mp hrest
      exact absurd rfl hdash
  have hmembers : members start (c :: more) item rest = .ok ([item], rest) := by
    simp [members, htail]
  exact read_of_members (hordinary c rfl).1 hatom hmembers hread

/-- Two characters with a dash between them are a range. -/
theorem read_range {start cs ds rest behind : List Char} {lo hi : Char} {items : List ClassItem}
    (hlo : Begins cs (.char lo) ('-' :: ds)) (hhi : Begins ds (.char hi) rest) (hle : lo ≤ hi)
    (hread : read start rest = .ok (items, behind)) :
    read start cs = .ok (.range lo hi :: items, behind) := by
  obtain ⟨⟨c, more, rfl, hatom⟩, hordinary⟩ := hlo
  obtain ⟨⟨d, more', rfl, hatom'⟩, hordinary'⟩ := hhi
  have htail : rangeTail? ('-' :: d :: more') = some (d, more') :=
    rangeTail?_eq_some_iff.mpr ⟨rfl, (hordinary' d rfl).1⟩
  have hmembers : members start (c :: more) (.char lo) ('-' :: d :: more') =
      .ok ([.range lo hi], rest) := by
    simp [members, htail, hatom', Char.not_lt.mpr hle]
  exact read_of_members (hordinary c rfl).1 hatom hmembers hread

/-- No item is typed with a character in front that means something in a class. -/
theorem ordinary_source (item : ClassItem) (rest : List Char) :
    ∀ c, (item.source ++ rest).head? = some c → c ≠ ']' ∧ c ≠ '^' ∧ c ≠ '-' := by
  cases item with
  | char c => exact (begins_classChar c rest).ordinary
  | range lo hi =>
    simpa [ClassItem.source] using (begins_classChar lo ('-' :: classChar hi ++ rest)).ordinary
  | escape e => exact (begins_set e rest).ordinary

/-- The same for all items and the closing bracket. -/
theorem ordinary_sources (items : List ClassItem) (rest : List Char) :
    ∀ c, (items.flatMap ClassItem.source ++ ']' :: rest).head? = some c → c ≠ '^' ∧ c ≠ '-' := by
  cases items with
  | nil =>
    intro c hc
    obtain rfl : ']' = c := by simpa using hc
    decide
  | cons item items =>
    rw [List.flatMap_cons, List.append_assoc]
    exact fun c hc => (ordinary_source item _ c hc).2

/-- **The items of a class that is typed are read again.** -/
theorem read_source {items : List ClassItem} (start rest : List Char)
    (h : ∀ item ∈ items, item.Proper) :
    read start (items.flatMap ClassItem.source ++ ']' :: rest) = .ok (items, rest) := by
  induction items with
  | nil => simp [read]
  | cons item items ih =>
    have hread := ih fun i hi => h i (List.mem_cons_of_mem _ hi)
    have hdash : (items.flatMap ClassItem.source ++ ']' :: rest).head? ≠ some '-' :=
      fun e => (ordinary_sources items rest '-' e).2 rfl
    rw [List.flatMap_cons, List.append_assoc]
    cases item with
    | char c => exact read_single (begins_classChar c _) hdash hread
    | escape e => exact read_single (begins_set e _) hdash hread
    | range lo hi =>
      have hle : lo ≤ hi := h (.range lo hi) (by simp)
      simp only [ClassItem.source, List.append_assoc, List.cons_append]
      exact read_range (begins_classChar lo _) (begins_classChar hi _) hle hread

end ClassBody

/-! ## 6. Words -/

namespace Word

theorem next?_source {c : CharacterClass} (h : c.Proper) (rest : List Char) :
    next? (c.source ++ rest) = some (.characterClass c, rest) := by
  obtain ⟨negated, items⟩ := c
  have hread (start : List Char) := ClassBody.read_source start rest h
  cases negated with
  | true => simp [CharacterClass.source, next?, Token.next, Token.read, hread]
  | false =>
    have hcaret : ∀ more, items.flatMap ClassItem.source ++ ']' :: rest ≠ '^' :: more :=
      fun more e => (ClassBody.ordinary_sources items rest '^' (by simp [e])).1 rfl
    have hopen : Token.read '[' (items.flatMap ClassItem.source ++ ']' :: rest) =
        .ok (.classOpen false, items.flatMap ClassItem.source ++ ']' :: rest) := by
      unfold Token.read
      split <;> simp_all
    simp [CharacterClass.source, next?, Token.next, hopen, hread]

/-- **A word that is typed is read again**, if nothing that would become part of it follows. -/
theorem next?_written {w : Word} {rest : List Char} (h : w.Typable) (hend : w.EndsBefore rest) :
    next? (w.written ++ rest) = some (w, rest) := by
  cases w with
  | characterClass c => exact next?_source h rest
  | token t =>
    cases t with
    | literal l => exact next?_token_iff.mpr ⟨Token.next_literal h hend, by simp⟩
    | classOpen negated => exact h.elim
    | anchor a => exact next?_token_iff.mpr ⟨Token.next_anchor a rest, by simp⟩
    | groupOpen head => exact next?_token_iff.mpr ⟨Token.next_groupOpen h hend, by simp⟩
    | groupClose => rfl
    | quantifier q => exact next?_token_iff.mpr ⟨Token.next_quantifier h hend, by simp⟩
    | bar => rfl
    | backreference t => exact next?_token_iff.mpr ⟨Token.next_backreference h hend, by simp⟩

end Word

end PatternDiagram
