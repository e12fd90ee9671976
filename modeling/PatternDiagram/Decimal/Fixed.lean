import PatternDiagram.Decimal.Binary
import PatternDiagram.Text.Numeral

/-!
# Decimal numbers with a fixed number of places

* `roundHalfEven`: a quotient rounded to the nearest whole number, a half to the even neighbour;
* `roundHalfEven_error`: the result is at most half a unit away;
* `Fixed.write`: a quotient with so many places after the point.
-/

namespace PatternDiagram

open Binary (Fraction)

/-- The whole number nearest to the quotient. Of two equally near ones it is the even one. -/
def roundHalfEven (f : Fraction) : Nat :=
  let whole := f.num / f.den
  let rest := f.num % f.den
  if 2 * rest < f.den then whole
  else if f.den < 2 * rest then whole + 1
  else if whole % 2 = 0 then whole
  else whole + 1

/-- **Rounding moves a quotient by at most half a unit.** -/
theorem roundHalfEven_error (f : Fraction) (h : 0 < f.den) :
    2 * (roundHalfEven f * f.den) ≤ 2 * f.num + f.den ∧
      2 * f.num ≤ 2 * (roundHalfEven f * f.den) + f.den := by
  have hdiv := Nat.div_add_mod f.num f.den
  have hmod := Nat.mod_lt f.num h
  have hcomm := Nat.mul_comm f.den (f.num / f.den)
  have hsucc := Nat.succ_mul (f.num / f.den) f.den
  unfold roundHalfEven
  dsimp only
  split
  · omega
  · split
    · rw [hsucc]; omega
    · split
      · omega
      · rw [hsucc]; omega

/-- A whole quotient is not moved. -/
theorem roundHalfEven_of_isWhole {f : Fraction} (h : f.isWhole = true) (hden : 0 < f.den) :
    roundHalfEven f = f.num / f.den := by
  have hrest : f.num % f.den = 0 := beq_iff_eq.mp h
  simp [roundHalfEven, hrest, hden]

namespace Fixed

/-- The digits of `n`, with a point before the last `places` of them. At least one digit stands
    before the point, and without places there is none. -/
def pointed (places n : Nat) : List Char :=
  let digits := Numeral.padded (places + 1) 10 n
  let front := digits.take (digits.length - places)
  if places = 0 then front else front ++ '.' :: digits.drop (digits.length - places)

/-- The quotient, rounded to so many places after the point. -/
def write (places : Nat) (f : Fraction) : List Char :=
  pointed places (roundHalfEven (f.scale places))

end Fixed

end PatternDiagram
