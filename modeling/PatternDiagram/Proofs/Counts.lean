import Mathlib.Data.List.TakeWhile
import PatternDiagram.Proofs.Numerals
import PatternDiagram.Reading.Reader

/-!
# Counts in braces

What an opening brace comes to, for any text behind it and digits of any length:

* `Token.IsCount`, `Token.countOf`: a row of digits, and the count that it stands for;
* `Token.Bounds`: **the three texts that give bounds**, from behind the opening brace to the closing
  one;
* `Token.count?_eq_some_iff`, `Token.bounds?_eq_some_iff`: what is read as a count, and as bounds;
* `Reader.next_brace`: **bounds make a quantifier**, or an error if they are out of order, and
  without them the brace is a character like any other.
-/

namespace PatternDiagram

/-- A run goes as far as the characters suit it, and what follows is left. -/
theorem takeWhile_append_of_all {p : Char → Bool} {ds rest : List Char}
    (hds : ∀ d ∈ ds, p d = true) (hrest : ∀ c, rest.head? = some c → p c = false) :
    (ds ++ rest).takeWhile p = ds ∧ (ds ++ rest).dropWhile p = rest := by
  have hend : rest.takeWhile p = [] ∧ rest.dropWhile p = rest := by
    cases rest with
    | nil => exact ⟨rfl, rfl⟩
    | cons c cs => simp [hrest c rfl]
  rw [List.takeWhile_append_of_pos hds, List.dropWhile_append_of_pos hds, hend.1, hend.2]
  simp

namespace Token

/-! ## 1. Counts -/

/-- A row of decimal digits, at least one. -/
def IsCount (ds : List Char) : Prop := ds ≠ [] ∧ ∀ d ∈ ds, d.isDigit = true

/-- The count that a row of digits stands for: their number, or the greatest number of 32 bits if
    theirs is greater. -/
def countOf (ds : List Char) : Nat := min (Numeral.value 10 ds) (2 ^ 32 - 1)

instance (ds : List Char) : Decidable (IsCount ds) :=
  decidable_of_iff ((!ds.isEmpty && ds.all Char.isDigit) = true) (by simp [IsCount])

/-- No digit comes first. -/
def StopsDigits (rest : List Char) : Prop := ∀ c, rest.head? = some c → c.isDigit = false

theorem stopsDigits_cons {c : Char} (rest : List Char) (h : c.isDigit = false) :
    StopsDigits (c :: rest) := by
  intro d hd
  obtain rfl : c = d := by simpa using hd
  exact h

/-- **What is read as a count**: all the digits at the front, if there are any. -/
theorem count?_eq_some_iff {cs rest : List Char} {n : Nat} :
    count? cs = some (n, rest) ↔
      ∃ ds, cs = ds ++ rest ∧ IsCount ds ∧ StopsDigits rest ∧ n = countOf ds := by
  constructor
  · intro h
    have hall : ∀ d ∈ digits cs, d.isDigit = true := fun d hd => List.mem_takeWhile_imp hd
    have hstop : StopsDigits (afterDigits cs) := by
      intro c hc
      have hhead := List.head?_dropWhile_not Char.isDigit cs
      rw [show cs.dropWhile Char.isDigit = afterDigits cs from rfl, hc] at hhead
      exact hhead
    unfold count? at h
    split at h
    · simp at h
    · rename_i hne
      simp only [Option.some.injEq, Prod.mk.injEq] at h
      obtain ⟨rfl, rfl⟩ := h
      exact ⟨digits cs, List.takeWhile_append_dropWhile.symm, ⟨hne, hall⟩, hstop, rfl⟩
  · rintro ⟨ds, rfl, ⟨hne, hall⟩, hstop, rfl⟩
    obtain ⟨hdigits, hafter⟩ : digits (ds ++ rest) = ds ∧ afterDigits (ds ++ rest) = rest :=
      takeWhile_append_of_all hall hstop
    unfold count?
    rw [hdigits, hafter]
    split
    · exact absurd rfl hne
    · rfl

/-- A count is read up to the first character that is no digit. -/
theorem count?_append {ds : List Char} {c : Char} (rest : List Char) (h : IsCount ds)
    (hc : c.isDigit = false) : count? (ds ++ c :: rest) = some (countOf ds, c :: rest) :=
  count?_eq_some_iff.mpr ⟨ds, rfl, h, stopsDigits_cons rest hc, rfl⟩

/-! ## 2. Bounds -/

/-- **The texts that give bounds**, from behind an opening brace to the closing one: exactly so
    often, at least so often, or from so often to so often. -/
inductive Bounds : List Char → Nat → Option Nat → Prop where
  | exactly {ds : List Char} (h : IsCount ds) :
      Bounds (ds ++ ['}']) (countOf ds) (some (countOf ds))
  | atLeast {ds : List Char} (h : IsCount ds) : Bounds (ds ++ [',', '}']) (countOf ds) none
  | between {ds es : List Char} (h : IsCount ds) (h' : IsCount es) :
      Bounds (ds ++ ',' :: (es ++ ['}'])) (countOf ds) (some (countOf es))

theorem Bounds.mem_close {text : List Char} {m : Nat} {max : Option Nat} (h : Bounds text m max) :
    '}' ∈ text := by
  cases h <;> simp

theorem Bounds.read {text : List Char} {m : Nat} {max : Option Nat} (h : Bounds text m max)
    (rest : List Char) : bounds? (text ++ rest) = some ((m, max), rest) := by
  cases h with
  | @exactly ds h =>
    have hcount := count?_append rest h (show '}'.isDigit = false by decide)
    rw [List.append_assoc, bounds?, List.singleton_append, hcount]
    rfl
  | @atLeast ds h =>
    have hcount := count?_append ('}' :: rest) h (show ','.isDigit = false by decide)
    rw [List.append_assoc, bounds?, List.cons_append, List.singleton_append, hcount]
    rfl
  | @between ds es h h' =>
    have hcount := count?_append (es ++ '}' :: rest) h (show ','.isDigit = false by decide)
    have hcount' := count?_append rest h' (show '}'.isDigit = false by decide)
    -- a brace behind the comma would be read first
    have hbrace : ∀ more, es ++ '}' :: rest ≠ '}' :: more := by
      intro more heq
      cases es with
      | nil => exact h'.1 rfl
      | cons e es =>
        obtain ⟨rfl, -⟩ := List.cons.inj heq
        exact absurd (h'.2 '}' List.mem_cons_self) (by decide)
    have htext : ds ++ ',' :: (es ++ ['}']) ++ rest = ds ++ ',' :: (es ++ '}' :: rest) := by simp
    rw [htext, bounds?, hcount]
    split
    · rename_i heq
      cases heq
    · rename_i heq
      cases heq
    · rename_i more heq
      simp only [Option.some.injEq, Prod.mk.injEq, List.cons.injEq, true_and] at heq
      exact absurd heq.2 (hbrace _)
    · rename_i heq
      simp only [Option.some.injEq, Prod.mk.injEq, List.cons.injEq, true_and] at heq
      obtain ⟨rfl, rfl⟩ := heq
      rw [hcount']
      rfl
    · rename_i hcomma heq
      exact absurd (Option.some.inj heq).symm (hcomma _ _)

/-- **What is read as bounds.** -/
theorem bounds?_eq_some_iff {cs rest : List Char} {m : Nat} {max : Option Nat} :
    bounds? cs = some ((m, max), rest) ↔ ∃ text, cs = text ++ rest ∧ Bounds text m max := by
  constructor
  · intro h
    unfold bounds? at h
    split at h
    · cases h
    · rename_i hcount
      obtain ⟨ds, rfl, hds, -, rfl⟩ := count?_eq_some_iff.mp hcount
      cases h
      exact ⟨ds ++ ['}'], by simp, .exactly hds⟩
    · rename_i hcount
      obtain ⟨ds, rfl, hds, -, rfl⟩ := count?_eq_some_iff.mp hcount
      cases h
      exact ⟨ds ++ [',', '}'], by simp, .atLeast hds⟩
    · rename_i hcount
      split at h
      · rename_i hcount'
        obtain ⟨ds, rfl, hds, -, rfl⟩ := count?_eq_some_iff.mp hcount
        obtain ⟨es, rfl, hes, -, rfl⟩ := count?_eq_some_iff.mp hcount'
        cases h
        exact ⟨ds ++ ',' :: (es ++ ['}']), by simp, .between hds hes⟩
      · cases h
    · cases h
  · rintro ⟨text, rfl, htext⟩
    exact htext.read rest

theorem bounds?_eq_none {cs : List Char}
    (h : ∀ text rest m max, cs = text ++ rest → ¬ Bounds text m max) : bounds? cs = none := by
  cases hbounds : bounds? cs with
  | none => rfl
  | some found =>
    obtain ⟨text, htext, his⟩ := bounds?_eq_some_iff.mp hbounds
    exact absurd his (h text found.2 found.1.1 found.1.2 htext)

/-! ## 3. The mark behind bounds -/

/-- The mark is a question mark if one follows, and nothing otherwise; `rest` is behind it. -/
def Marks (mark rest : List Char) : Prop := mark = ['?'] ∨ mark = [] ∧ rest.head? ≠ some '?'

theorem lazily_marked {mark rest : List Char} (min : Nat) (max : Option Nat)
    (h : Marks mark rest) :
    lazily min max (mark ++ rest) = (.quantifier ⟨min, max, mark.isEmpty⟩, rest) := by
  rcases h with rfl | ⟨rfl, hrest⟩
  · rfl
  · rw [List.nil_append]
    unfold lazily
    split
    · exact absurd rfl hrest
    · rfl

theorem next_bounds {text mark rest : List Char} {m : Nat} {max : Option Nat}
    (h : Bounds text m max) (hmark : Marks mark rest) (horder : ∀ n, max = some n → m ≤ n) :
    next ('{' :: (text ++ mark ++ rest)) =
      .ok (some (.quantifier ⟨m, max, mark.isEmpty⟩, rest)) := by
  have hread : bounds? (text ++ (mark ++ rest)) = some ((m, max), mark ++ rest) := h.read _
  have hlazy := lazily_marked m max hmark
  rw [List.append_assoc]
  cases max with
  | none => simp [next, Token.read, braces, hread, hlazy]
  | some n =>
    have hle : ¬ n < m := Nat.not_lt.mpr (horder n rfl)
    simp [next, Token.read, braces, hread, hlazy, hle]

theorem next_bounds_of_lt {text : List Char} {m n : Nat} (h : Bounds text m (some n))
    (hlt : n < m) (rest : List Char) :
    next ('{' :: (text ++ rest)) =
      .error ⟨.countsOutOfOrder, '{' :: (text ++ rest), rest⟩ := by
  have hread : bounds? (text ++ rest) = some ((m, some n), rest) := h.read rest
  simp [next, Token.read, braces, hread, hlt]

theorem next_of_no_bounds {cs : List Char}
    (h : ∀ text rest m max, cs = text ++ rest → ¬ Bounds text m max) :
    next ('{' :: cs) = .ok (some (.literal (.char '{'), cs)) := by
  simp [next, Token.read, braces, bounds?_eq_none h]

end Token

/-! ## 4. Readers -/

namespace Reader

open Token

/-- **What an opening brace comes to**, anywhere in any pattern. Bounds behind it make a quantifier,
    lazy if a question mark follows, that takes all of their text. If they are out of order it is an
    error at the brace. Without bounds the brace stands for itself, and nothing behind it is
    taken. -/
theorem next_brace (front cs : List Char) (base : Nat) (naming : Naming) :
    let r : Reader := { pattern := front ++ '{' :: cs, base, rest := '{' :: cs, naming }
    (∀ text mark rest m max, cs = text ++ mark ++ rest → Bounds text m max → Marks mark rest →
      (∀ n, max = some n → m ≤ n) →
        r.next = (.ok (some ⟨.quantifier ⟨m, max, mark.isEmpty⟩, byteLength front,
          byteLength (front ++ '{' :: (text ++ mark))⟩), r.goTo rest)) ∧
    (∀ text rest m n, cs = text ++ rest → Bounds text m (some n) → n < m →
      r.next.1 = .error ⟨.countsOutOfOrder, base + front.length⟩ ∧
        Fault.countsOutOfOrder.message = "numbers out of order in \x7b\x7d quantifier") ∧
    ((∀ text rest m max, cs = text ++ rest → ¬ Bounds text m max) →
      r.next = (.ok (some ⟨.literal (.char '{'), byteLength front, byteLength front + 1⟩),
        r.goTo cs)) := by
  intro r
  have hposition : r.position = byteLength front := place_of_append rfl
  refine ⟨?_, ?_, ?_⟩
  · rintro text mark rest m max hcs hbounds hmark horder
    have hnext := next_bounds hbounds hmark horder
    rw [← hcs] at hnext
    have hsplit : r.pattern = front ++ '{' :: (text ++ mark) ++ rest := by simp [r, hcs]
    rw [next, show r.rest = '{' :: cs from rfl, hnext]
    simp only [hposition, place_of_append hsplit]
  · rintro text rest m n hcs hbounds hlt
    have hnext := next_bounds_of_lt hbounds hlt rest
    rw [← hcs] at hnext
    refine ⟨?_, rfl⟩
    rw [next, show r.rest = '{' :: cs from rfl, hnext]
    simp [error, offset, r]
  · intro hnone
    have hnext := next_of_no_bounds hnone
    have hsplit : r.pattern = front ++ ['{'] ++ cs := by simp [r]
    have hbehind : byteLength (front ++ ['{']) = byteLength front + 1 := byteLength_append _ _
    rw [next, show r.rest = '{' :: cs from rfl, hnext]
    simp only [hposition, place_of_append hsplit, hbehind]

/-- Each of the three cases once: a number too large for 32 bits, numbers out of order, and a second
    number that is missing. -/
theorem next_brace_of_counts :
    (Bounds "007,4294967299\x7d".toList 7 (some 4294967295) ∧ Marks ['?'] ['x'] ∧
      ({ pattern := "é\x7b007,4294967299\x7d?x".toList,
         rest := "\x7b007,4294967299\x7d?x".toList } : Reader).next.1 =
        .ok (some ⟨.quantifier ⟨7, some 4294967295, false⟩, 2, 19⟩)) ∧
    (Bounds "2,1\x7d".toList 2 (some 1) ∧
      ({ pattern := "a\x7b2,1\x7d".toList, rest := "\x7b2,1\x7d".toList } : Reader).next.1 =
        .error ⟨.countsOutOfOrder, 1⟩) ∧
    ((∀ text rest m max, "2,".toList = text ++ rest → ¬ Bounds text m max) ∧
      ({ pattern := "\x7b2,".toList, rest := "\x7b2,".toList } : Reader).next.1 =
        .ok (some ⟨.literal (.char '{'), 0, 1⟩)) := by
  have hlarge : Bounds "007,4294967299\x7d".toList 7 (some 4294967295) := by
    have hseven : IsCount "007".toList := by decide
    have hmany : IsCount "4294967299".toList := by decide
    exact .between hseven hmany
  have hwrong : Bounds "2,1\x7d".toList 2 (some 1) := by
    have htwo : IsCount ['2'] := by decide
    have hone : IsCount ['1'] := by decide
    exact .between htwo hone
  have hnone : ∀ text rest m max, "2,".toList = text ++ rest → ¬ Bounds text m max := by
    intro text rest m max htext h
    have hmem : '}' ∈ "2,".toList := htext ▸ List.mem_append_left rest h.mem_close
    exact absurd hmem (by decide)
  refine ⟨⟨hlarge, .inl rfl, ?_⟩, ⟨hwrong, ?_⟩, hnone, ?_⟩
  · exact congrArg Prod.fst ((next_brace ['é'] "007,4294967299\x7d?x".toList 0 {}).1
      "007,4294967299\x7d".toList ['?'] ['x'] 7 (some 4294967295) rfl hlarge (.inl rfl)
      (by simp))
  · exact ((next_brace ['a'] "2,1\x7d".toList 0 {}).2.1 "2,1\x7d".toList [] 2 1 rfl hwrong
      (by decide)).1
  · exact congrArg Prod.fst ((next_brace [] "2,".toList 0 {}).2.2 hnone)

end Reader

end PatternDiagram
