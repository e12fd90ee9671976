/-!
# Ranges of code points

* `CodeRange`: a range of code points, both ends included;
* `InRanges`: a code point lies in one of several ranges, as a proposition;
* `inRanges`: the same as a test, with `inRanges_iff` between them.
-/

namespace PatternDiagram

/-- A range of code points, both ends included. -/
abbrev CodeRange := Nat × Nat

/-- The code point lies in one of the ranges. -/
def InRanges (rs : List CodeRange) (c : Nat) : Prop := ∃ r ∈ rs, r.1 ≤ c ∧ c ≤ r.2

@[simp] theorem inRanges_nil (c : Nat) : ¬ InRanges [] c := by simp [InRanges]

@[simp] theorem inRanges_cons (r : CodeRange) (rs : List CodeRange) (c : Nat) :
    InRanges (r :: rs) c ↔ (r.1 ≤ c ∧ c ≤ r.2) ∨ InRanges rs c := by
  simp [InRanges]

theorem inRanges_flatMap {α : Type} (xs : List α) (ranges : α → List CodeRange) (c : Nat) :
    InRanges (xs.flatMap ranges) c ↔ ∃ x ∈ xs, InRanges (ranges x) c := by
  constructor
  · rintro ⟨r, hr, hc⟩
    obtain ⟨x, hx, hr⟩ := List.mem_flatMap.mp hr
    exact ⟨x, hx, r, hr, hc⟩
  · rintro ⟨x, hx, r, hr, hc⟩
    exact ⟨r, List.mem_flatMap.mpr ⟨x, hx, hr⟩, hc⟩

/-- The test that belongs to `InRanges`. -/
def inRanges (rs : List CodeRange) (c : Nat) : Bool :=
  rs.any fun r => decide (r.1 ≤ c ∧ c ≤ r.2)

theorem inRanges_iff (rs : List CodeRange) (c : Nat) : inRanges rs c = true ↔ InRanges rs c := by
  simp [inRanges, InRanges]

instance (rs : List CodeRange) (c : Nat) : Decidable (InRanges rs c) :=
  decidable_of_iff _ (inRanges_iff rs c)

end PatternDiagram
