import Mathlib
import PatternDiagram.Plane.Coordinate

/-!
# What becomes of numbers that are too large

A double-precision number is finite, infinite, or not a number at all. A finite result has finite
operands; a result that is not a number comes from an operand that is none, or from two infinities.

* `Double.Kind`, `Double.kind`: the three kinds;
* `Double.kind_pack`: rounding makes a finite result finite or infinite, and nothing else;
* `Double.isFinite_of_add`, `Double.isFinite_of_sub`: **a sum or a difference is finite only if both
  operands are**;
* `Double.isNumber_add` and the others: with one finite operand a number stays a number;
* `Double.IsTop`, `Double.IsBottom`: the two infinities, and how minimum and maximum treat them.
-/

namespace PatternDiagram

open Float.Model (UnpackedFloat Format)
open Float.Model.UnpackedFloat (Sign)

namespace Double

/-! ## 1. Kinds -/

/-- What a number is. -/
inductive Kind where
  | nan
  | infinite
  | finite
  deriving DecidableEq

/-- The kind of a number that has been taken apart. -/
def kind : UnpackedFloat → Kind
  | .notANumber => .nan
  | .infinity _ => .infinite
  | .zero _ => .finite
  | .finite .. => .finite

@[simp] theorem kind_notANumber : kind .notANumber = .nan := rfl

@[simp] theorem kind_infinity (s : Sign) : kind (.infinity s) = .infinite := rfl

@[simp] theorem kind_zero (s : Sign) : kind (.zero s) = .finite := rfl

@[simp] theorem kind_finite (s : Sign) (m : Nat) (e : Int) (h : 0 < m) :
    kind (.finite s m e h) = .finite := rfl

/-- The number taken apart. -/
def parts (x : Float) : UnpackedFloat := x.toModel.unpack

theorem isFinite_iff {x : Float} : Coordinate.isFinite x = true ↔ kind (parts x) = .finite := by
  show (parts x).isFinite = true ↔ _
  cases parts x <;> simp [UnpackedFloat.isFinite, kind]

theorem le_iff {x y : Float} : x ≤ y ↔ (parts x).le (parts y) = true := by
  show decide (x.toModel ≤ y.toModel) = true ↔ _
  rw [decide_eq_true_iff]
  rfl

theorem lt_iff {x y : Float} : x < y ↔ (parts x).lt (parts y) = true := by
  show decide (x.toModel < y.toModel) = true ↔ _
  rw [decide_eq_true_iff]
  rfl

theorem isNumber_iff {x : Float} : Coordinate.IsNumber x ↔ kind (parts x) ≠ .nan := by
  rw [Coordinate.IsNumber, le_iff]
  cases parts x with
  | notANumber => simp [UnpackedFloat.le, UnpackedFloat.compare, kind]
  | infinity s => cases s <;> simp [UnpackedFloat.le, UnpackedFloat.compare, kind] <;> decide
  | zero s => simp [UnpackedFloat.le, UnpackedFloat.compare, kind]
  | finite s m e hm => cases s <;> simp [UnpackedFloat.le, UnpackedFloat.compare, kind]

/-- A finite number is a number. -/
theorem isNumber_of_isFinite {x : Float} (h : Coordinate.isFinite x = true) :
    Coordinate.IsNumber x := by
  rw [isNumber_iff, isFinite_iff.mp h]
  decide

/-! ## 2. Rounding -/

/-- The greatest exponent is kept for what is not finite. -/
theorem kind_unpack_packComponents (s : Sign) {exponent : BitVec 11} (h : exponent ≠ -1#11)
    (mantissa : BitVec 52) :
    kind (UnpackedFloat.unpack .binary64
      (UnpackedFloat.packComponents .binary64 s exponent mantissa)) = .finite := by
  rw [UnpackedFloat.unpack]
  simp only [UnpackedFloat.unpackExponent_packComponents, if_neg h]
  split
  · split <;> rfl
  · rfl

/-- **Rounding** makes of a finite result a finite number or an infinity, and leaves the others
    alone. -/
theorem kind_pack (u : UnpackedFloat) :
    kind (parts (.ofModel (.pack u))) = kind u ∨
      kind u = .finite ∧ kind (parts (.ofModel (.pack u))) = .infinite := by
  cases u with
  | notANumber => exact .inl (by decide)
  | infinity s => exact .inl (by cases s <;> decide)
  | zero s => exact .inl (by cases s <;> decide)
  | finite s m e hm =>
    have hinfinite : kind (UnpackedFloat.unpack .binary64
        (UnpackedFloat.packedInfinity .binary64 s)) = .infinite := by cases s <;> decide
    show kind (UnpackedFloat.unpack .binary64 (UnpackedFloat.pack .binary64 (.finite s m e hm))) =
        .finite ∨ _ ∧
      kind (UnpackedFloat.unpack .binary64 (UnpackedFloat.pack .binary64 (.finite s m e hm))) = _
    rw [UnpackedFloat.pack]
    dsimp only
    split
    · exact .inr ⟨rfl, hinfinite⟩
    · next hsmall =>
      refine .inl ?_
      split
      · refine kind_unpack_packComponents s (fun hones => ?_) _
        have hvalue := congrArg BitVec.toNat hones
        simp at hvalue hsmall
        omega
      · exact kind_unpack_packComponents s (by decide) _

theorem kind_of_pack_finite {u : UnpackedFloat}
    (h : kind (parts (.ofModel (.pack u))) = .finite) : kind u = .finite := by
  rcases kind_pack u with hkind | ⟨hkind, -⟩
  · rw [← hkind, h]
  · exact hkind

theorem kind_pack_ne_nan {u : UnpackedFloat} (h : kind u ≠ .nan) :
    kind (parts (.ofModel (.pack u))) ≠ .nan := by
  rcases kind_pack u with hkind | ⟨-, hkind⟩
  · rwa [hkind]
  · rw [hkind]
    decide

theorem kind_roundWithAccuracy (s : Sign) (m : Nat) (e : Int) (a : UnpackedFloat.Accuracy) :
    kind (UnpackedFloat.roundWithAccuracy .binary64 s m e a) = .finite := by
  unfold UnpackedFloat.roundWithAccuracy
  dsimp only
  split <;> rfl

theorem kind_normalize (m e : Int) (s : Sign) :
    kind (UnpackedFloat.normalize .binary64 m e s) = .finite := by
  unfold UnpackedFloat.normalize
  split
  · exact kind_roundWithAccuracy ..
  · rfl
  · exact kind_roundWithAccuracy ..

/-! ## 3. Sums, differences and products -/

section

variable (u v : UnpackedFloat)

theorem kind_add_finite :
    kind (u.add .binary64 v) = .finite ↔ kind u = .finite ∧ kind v = .finite := by
  cases u <;> cases v <;> simp [UnpackedFloat.add, apply_ite kind, kind_normalize]
  split <;> decide

theorem kind_sub_finite :
    kind (u.sub .binary64 v) = .finite ↔ kind u = .finite ∧ kind v = .finite := by
  cases u <;> cases v <;> simp [UnpackedFloat.sub, apply_ite kind, kind_normalize]
  split <;> decide

theorem kind_mul_finite :
    kind (u.mul .binary64 v) = .finite ↔ kind u = .finite ∧ kind v = .finite := by
  cases u <;> cases v <;> simp [UnpackedFloat.mul, kind_roundWithAccuracy]

theorem kind_add_ne_nan (hu : kind u ≠ .nan) (hv : kind v = .finite) :
    kind (u.add .binary64 v) ≠ .nan := by
  cases u <;> cases v <;> simp_all [UnpackedFloat.add, apply_ite kind, kind_normalize]

theorem kind_add_ne_nan' (hu : kind u = .finite) (hv : kind v ≠ .nan) :
    kind (u.add .binary64 v) ≠ .nan := by
  cases u <;> cases v <;> simp_all [UnpackedFloat.add, apply_ite kind, kind_normalize]

theorem kind_sub_ne_nan (hu : kind u ≠ .nan) (hv : kind v = .finite) :
    kind (u.sub .binary64 v) ≠ .nan := by
  cases u <;> cases v <;> simp_all [UnpackedFloat.sub, apply_ite kind, kind_normalize]

end

section

open Coordinate (isFinite IsNumber least greatest)

variable {a b : Float}

/-- **A sum is finite** only if both operands are. -/
theorem isFinite_of_add (h : isFinite (a + b) = true) : isFinite a = true ∧ isFinite b = true := by
  have hparts := kind_of_pack_finite (isFinite_iff.mp h)
  rw [isFinite_iff, isFinite_iff]
  exact (kind_add_finite (parts a) (parts b)).mp hparts

/-- **A difference is finite** only if both operands are. -/
theorem isFinite_of_sub (h : isFinite (a - b) = true) : isFinite a = true ∧ isFinite b = true := by
  have hparts := kind_of_pack_finite (isFinite_iff.mp h)
  rw [isFinite_iff, isFinite_iff]
  exact (kind_sub_finite (parts a) (parts b)).mp hparts

/-- The product of finite numbers may be infinite, but it is a number. -/
theorem isNumber_mul (ha : isFinite a = true) (hb : isFinite b = true) : IsNumber (a * b) := by
  have hparts := (kind_mul_finite (parts a) (parts b)).mpr ⟨isFinite_iff.mp ha, isFinite_iff.mp hb⟩
  refine isNumber_iff.mpr (kind_pack_ne_nan ?_)
  show kind ((parts a).mul .binary64 (parts b)) ≠ .nan
  rw [hparts]
  decide

/-- A number to which something finite is added is still a number. -/
theorem isNumber_add (ha : IsNumber a) (hb : isFinite b = true) : IsNumber (a + b) :=
  isNumber_iff.mpr
    (kind_pack_ne_nan (kind_add_ne_nan _ _ (isNumber_iff.mp ha) (isFinite_iff.mp hb)))

/-- Something finite to which a number is added is a number. -/
theorem isNumber_finite_add (ha : isFinite a = true) (hb : IsNumber b) : IsNumber (a + b) :=
  isNumber_iff.mpr
    (kind_pack_ne_nan (kind_add_ne_nan' _ _ (isFinite_iff.mp ha) (isNumber_iff.mp hb)))

/-- A number from which something finite is taken away is still a number. -/
theorem isNumber_sub (ha : IsNumber a) (hb : isFinite b = true) : IsNumber (a - b) :=
  isNumber_iff.mpr
    (kind_pack_ne_nan (kind_sub_ne_nan _ _ (isNumber_iff.mp ha) (isFinite_iff.mp hb)))

/-! ## 4. The two infinities -/

/-- Infinity. -/
def IsTop (x : Float) : Prop := parts x = .infinity .positive

/-- Minus infinity. -/
def IsBottom (x : Float) : Prop := parts x = .infinity .negative

theorem IsTop.not_isFinite {x : Float} (h : IsTop x) : ¬ isFinite x = true := by
  rw [isFinite_iff, h]
  decide

theorem IsBottom.not_isFinite {x : Float} (h : IsBottom x) : ¬ isFinite x = true := by
  rw [isFinite_iff, h]
  decide

/-- What is neither finite nor one of the infinities is no number. -/
theorem isTop_or_isBottom {x : Float} (hnumber : IsNumber x) (h : ¬ isFinite x = true) :
    IsTop x ∨ IsBottom x := by
  rw [isNumber_iff] at hnumber
  rw [isFinite_iff] at h
  unfold IsTop IsBottom
  cases hparts : parts x with
  | notANumber => simp [hparts] at hnumber
  | infinity s => cases s <;> simp
  | zero s => simp [hparts] at h
  | finite s m e hm => simp [hparts] at h

theorem IsTop.isNumber {x : Float} (h : IsTop x) : IsNumber x := by
  rw [isNumber_iff, h]
  decide

theorem IsBottom.isNumber {x : Float} (h : IsBottom x) : IsNumber x := by
  rw [isNumber_iff, h]
  decide

/-- Nothing is above infinity. -/
theorem IsTop.not_lt (h : IsTop a) : ¬ a < b := by
  rw [lt_iff, h]
  cases parts b with
  | infinity s => cases s <;> decide
  | _ => simp [UnpackedFloat.lt, UnpackedFloat.compare]

/-- Nothing is below minus infinity. -/
theorem IsBottom.not_lt (h : IsBottom b) : ¬ a < b := by
  rw [lt_iff, h]
  cases parts a with
  | infinity s => cases s <;> decide
  | _ => simp [UnpackedFloat.lt, UnpackedFloat.compare]

/-- A number that is not below infinity is infinity. -/
theorem IsTop.of_not_lt (h : IsTop b) (ha : IsNumber a) (hlt : ¬ a < b) : IsTop a := by
  rw [lt_iff, h] at hlt
  rw [isNumber_iff] at ha
  unfold IsTop
  cases hparts : parts a with
  | infinity s =>
    cases s with
    | positive => rfl
    | negative => exact absurd (by rw [hparts]; decide) hlt
  | _ => simp_all [UnpackedFloat.lt, UnpackedFloat.compare]

/-- A number that is not above minus infinity is minus infinity. -/
theorem IsBottom.of_not_lt (h : IsBottom a) (hb : IsNumber b) (hlt : ¬ a < b) : IsBottom b := by
  rw [lt_iff, h] at hlt
  rw [isNumber_iff] at hb
  unfold IsBottom
  cases hparts : parts b with
  | infinity s =>
    cases s with
    | positive => exact absurd (by rw [hparts]; decide) hlt
    | negative => rfl
  | _ => simp_all [UnpackedFloat.lt, UnpackedFloat.compare]

/-- **No maximum hides infinity.** -/
theorem isTop_greatest (h : IsTop a ∨ IsTop b) : IsTop (greatest a b) := by
  unfold greatest
  rcases h with h | h
  · rw [if_neg h.not_lt, if_pos h.isNumber]
    exact h
  · split
    · exact h
    · next hlt =>
      split
      · next ha => exact h.of_not_lt ha hlt
      · exact h

/-- **No minimum hides minus infinity.** -/
theorem isBottom_least (h : IsBottom a ∨ IsBottom b) : IsBottom (least a b) := by
  unfold least
  rcases h with h | h
  · rw [if_neg h.not_lt, if_pos h.isNumber]
    exact h
  · split
    · exact h
    · next hlt =>
      split
      · next ha => exact h.of_not_lt ha hlt
      · exact h

end

end Double

end PatternDiagram
