import PatternDiagram.Proofs.Scanner

/-!
# Classes by bytes

The members of a character class, read by the scanner that walks over bytes:

* `Bytes.classAtom`, `Bytes.isRange`, `Bytes.classMembers`: an atom, and what it makes with a dash
  and another one;
* `Bytes.classItems`: all members;
* `Bytes.run_classItems`: in front of any end of a pattern they are those that `ClassBody.read`
  finds there.
-/

namespace PatternDiagram.Bytes

/-! ## 1. The parts -/

section

variable (pattern : List Char) (base : Nat)

/-- What begins with the character `c` in the class that stands at `start`. -/
def classAtom (c : Char) (start : Nat) : Trial ClassItem := do
  if c = '\\' then
    match ← (advance pattern : ByteReader _) with
    | none => throw (← errorAt pattern base .unterminatedClass start)
    | some 'b' => return .char '\x08'
    | some d =>
      if '1' ≤ d ∧ d ≤ '7' then
        return .char (Char.ofNat (← scanOctal pattern 2 ((Numeral.digit? d).getD 0)))
      else
        return ClassBody.ofLiteral (← charEscape pattern d)
  else
    return .char c

/-- Whether a dash comes next that makes a range. -/
def isRange : ByteReader Bool := do
  if (← peek pattern) = some '-' then
    return (← peekNth pattern 1).any (· ≠ ']')
  else
    return false

/-- The members that an atom makes which begins at `place`. -/
def classMembers (start place : Nat) (item : ClassItem) : Trial (List ClassItem) := do
  if ← isRange pattern then
    let _ ← (advance pattern : ByteReader _)
    match ← (advance pattern : ByteReader _) with
    | none => throw (← errorAt pattern base .unterminatedClass start)
    | some d =>
      match item, ← classAtom pattern base d start with
      | .char lo, .char hi =>
        if hi < lo then throw (← errorAt pattern base .rangeOutOfOrder place)
        else return [.range lo hi]
      | lower, upper => return [lower, .char '-', upper]
  else
    return [item]

/-- All members, behind those that have been read, within so many rounds. -/
def classItems (start : Nat) : Nat → List ClassItem → Trial (List ClassItem)
  | 0, _ => giveUp
  | n + 1, items => do
    let place ← (position : ByteReader _)
    match ← (advance pattern : ByteReader _) with
    | none => throw (← errorAt pattern base .unterminatedClass start)
    | some c =>
      if c = ']' then
        return items
      else
        let item ← classAtom pattern base c start
        let found ← classMembers pattern base start place item
        classItems start n (items ++ found)

end

/-! ## 2. What they come to -/

variable {pattern rest site : List Char}

theorem run_classAtom (c : Char) (hsite : site <:+ pattern) (h : rest <:+ pattern) (base : Nat)
    (naming : Naming) :
    (classAtom pattern base c (placeOf pattern site)).run.run (.before pattern rest naming) =
      outcome pattern base naming
        (match ClassBody.atom c rest with
        | none => .error ⟨.unterminatedClass, site, []⟩
        | some found => .ok found) := by
  by_cases hslash : c = '\\'
  · subst hslash
    cases rest with
    | nil => simpa [classAtom, ClassBody.atom] using run_throw_errorAt hsite base _ [] naming
    | cons d cs =>
      have hcs : cs <:+ pattern := (List.suffix_cons d cs).trans h
      have hescape := run_charEscape h naming
      simp only [ClassBody.atom, if_true]
      unfold ClassBody.escape
      split
      · rename_i hb
        subst hb
        simp [classAtom, h, outcome]
      · rename_i hb
        split
        · rename_i hdigit
          simp [classAtom, h, hdigit, run_scanOctal hcs, outcome, Except.map]
        · rename_i hdigit
          simp [classAtom, h, if_neg hdigit, hescape, outcome, Except.map]
  · simp [classAtom, ClassBody.atom, hslash, outcome]

theorem run_isRange (h : rest <:+ pattern) (naming : Naming) :
    (isRange pattern).run (.before pattern rest naming) =
      some ((ClassBody.rangeTail? rest).isSome, .before pattern rest naming) := by
  rcases rest with _ | ⟨c, _ | ⟨d, more⟩⟩
  · simp [isRange, h, ClassBody.rangeTail?]
  · by_cases hc : c = '-'
    · subst hc
      simp [isRange, h, ClassBody.rangeTail?]
    · simp [isRange, h, hc, ClassBody.rangeTail?]
  · by_cases hc : c = '-'
    · subst hc
      by_cases hd : d = ']'
      · subst hd
        simp [isRange, h, ClassBody.rangeTail?]
      · simp [isRange, h, hd, ClassBody.rangeTail?]
    · simp [isRange, h, hc, ClassBody.rangeTail?]

theorem run_classMembers {place : List Char} (item : ClassItem) (hsite : site <:+ pattern)
    (hplace : place <:+ pattern) (h : rest <:+ pattern) (base : Nat) (naming : Naming) :
    (classMembers pattern base (placeOf pattern site) (placeOf pattern place) item).run.run
        (.before pattern rest naming) =
      outcome pattern base naming (ClassBody.members site place item rest) := by
  have hrange := run_isRange h naming
  unfold ClassBody.members
  split
  · rename_i htail
    simp [classMembers, hrange, htail, outcome]
  · rename_i d more htail
    obtain rfl : rest = '-' :: d :: more := by
      unfold ClassBody.rangeTail? at htail
      split at htail
      · split at htail
        · simp at htail
        · simpa using htail
      · simp at htail
    have hd : d :: more <:+ pattern := (List.suffix_cons '-' _).trans h
    have hmore : more <:+ pattern := (List.suffix_cons d _).trans hd
    have hatom := run_classAtom d hsite hmore base naming
    split
    · rename_i heq
      rw [heq] at hatom
      simp [classMembers, hrange, htail, h, hd, hatom, outcome]
    · rename_i upper left heq
      rw [heq] at hatom
      split
      · rename_i lo hi
        split
        · rename_i hlt
          have hthrow := run_throw_errorAt (α := List ClassItem) hplace base .rangeOutOfOrder left
            naming
          simpa [classMembers, hrange, htail, h, hd, hatom, outcome, hlt] using hthrow
        · rename_i hlt
          simp [classMembers, hrange, htail, h, hd, hatom, outcome, hlt]
      · rename_i hne
        simp [classMembers, hrange, htail, h, hd, hatom, outcome]

/-- One round of the loop. -/
theorem run_classItems_cons {c : Char} {cs more left : List Char} {item : ClassItem}
    {found : List ClassItem} {n : Nat} (hsite : site <:+ pattern) (h : c :: cs <:+ pattern)
    (hc : c ≠ ']') (hatom : ClassBody.atom c cs = some (item, more))
    (hmembers : ClassBody.members site (c :: cs) item more = .ok (found, left))
    (items : List ClassItem) (base : Nat) (naming : Naming) :
    (classItems pattern base (placeOf pattern site) (n + 1) items).run.run
        (.before pattern (c :: cs) naming) =
      (classItems pattern base (placeOf pattern site) n (items ++ found)).run.run
        (.before pattern left naming) := by
  have hcs : cs <:+ pattern := (List.suffix_cons c cs).trans h
  have hfirst := run_classAtom c hsite hcs base naming
  have hothers := run_classMembers item hsite h ((ClassBody.atom_suffix hatom).trans hcs) base
    naming
  rw [hatom] at hfirst
  rw [hmembers] at hothers
  rw [classItems]
  simp [h, hc, hfirst, hothers, outcome]

/-- **The members of a class are those that the reader finds.** The induction is on what the reader
    does; the loop has the members before in its hands. -/
theorem run_classItems {n : Nat} (hsite : site <:+ pattern) (h : rest <:+ pattern)
    (hn : rest.length ≤ n) (items : List ClassItem) (base : Nat) (naming : Naming) :
    (classItems pattern base (placeOf pattern site) (n + 1) items).run.run
        (.before pattern rest naming) =
      outcome pattern base naming
        (match ClassBody.read site rest with
        | .error f => .error f
        | .ok (more, left) => .ok (items ++ more, left)) := by
  fun_induction ClassBody.read site rest generalizing n items with
  | case1 =>
    rw [classItems]
    simpa using run_throw_errorAt hsite base _ [] naming
  | case2 cs =>
    rw [classItems]
    simp [h, outcome]
  | case3 c cs hc hatom =>
    have hrun := run_classAtom c hsite ((List.suffix_cons c cs).trans h) base naming
    rw [hatom] at hrun
    rw [classItems]
    simp [h, hc, hrun, outcome]
  | case4 c cs hc item more hatom f hmembers =>
    have hcs : cs <:+ pattern := (List.suffix_cons c cs).trans h
    have hrun := run_classAtom c hsite hcs base naming
    have hrun' := run_classMembers item hsite h ((ClassBody.atom_suffix hatom).trans hcs) base
      naming
    rw [hatom] at hrun
    rw [hmembers] at hrun'
    rw [classItems]
    simp [h, hc, hrun, hrun', outcome]
  | case5 c cs hc item more hatom found left hmembers f hread ih =>
    obtain ⟨n, rfl⟩ := Nat.exists_eq_add_one_of_ne_zero (Nat.ne_zero_of_lt hn)
    have hmore := (ClassBody.members_suffix hmembers).trans (ClassBody.atom_suffix hatom)
    have hle := Nat.le_trans hmore.length_le (Nat.le_of_succ_le_succ hn)
    have hleft := ih (hmore.trans ((List.suffix_cons c cs).trans h)) hle (items ++ found)
    rw [run_classItems_cons hsite h hc hatom hmembers items base naming, hleft, hread]
  | case6 c cs hc item more hatom found left hmembers others rest' hread ih =>
    obtain ⟨n, rfl⟩ := Nat.exists_eq_add_one_of_ne_zero (Nat.ne_zero_of_lt hn)
    have hmore := (ClassBody.members_suffix hmembers).trans (ClassBody.atom_suffix hatom)
    have hle := Nat.le_trans hmore.length_le (Nat.le_of_succ_le_succ hn)
    have hleft := ih (hmore.trans ((List.suffix_cons c cs).trans h)) hle (items ++ found)
    rw [run_classItems_cons hsite h hc hatom hmembers items base naming, hleft, hread]
    simp

end PatternDiagram.Bytes
