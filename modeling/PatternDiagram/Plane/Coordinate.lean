/-!
# Coordinates

Diagrams are laid out over any numbers that have the four operations and an order. This file fixes
what is asked of them:

* `Coordinate`: the operations, the natural numbers among the coordinates, which coordinates are
  finite, and the bounds that an interval without points reports;
* the instances for double-precision numbers, which documents are made of, and for exact rational
  numbers;
* `Coordinate.least`, `Coordinate.greatest`: minimum and maximum. Something that is not a number
  gives way to a number, and of two equal values the first is taken.
-/

namespace PatternDiagram

/-- Numbers to lay out a diagram with. -/
class Coordinate (α : Type) extends Add α, Sub α, Neg α, Mul α, Div α, LT α, LE α where
  /-- The natural numbers among the coordinates. -/
  ofNat : Nat → α
  isFinite : α → Bool
  /-- The lower bound of an interval without points. -/
  voidLow : α
  /-- The upper bound of an interval without points. -/
  voidHigh : α
  decidableLT : DecidableLT α
  decidableLE : DecidableLE α

variable {α : Type} [Coordinate α]

instance Coordinate.instDecidableLT : DecidableLT α := Coordinate.decidableLT

instance Coordinate.instDecidableLE : DecidableLE α := Coordinate.decidableLE

/-- Among double-precision numbers an interval without points reaches from infinity down to minus
    infinity. -/
instance : Coordinate Float where
  ofNat n := Float.ofNat n
  isFinite x := x.isFinite
  voidLow := 1 / 0
  voidHigh := -1 / 0
  decidableLT := inferInstance
  decidableLE := inferInstance

/-- Rational numbers are all finite. A point bounds both axes there, so that no interval without
    points is ever asked for its bounds. -/
instance : Coordinate Rat where
  ofNat n := (n : Rat)
  isFinite _ := true
  voidLow := 0
  voidHigh := 0
  decidableLT := inferInstance
  decidableLE := inferInstance

namespace Coordinate

@[simp] theorem ofNat_rat (n : Nat) : (Coordinate.ofNat n : Rat) = (n : Rat) := rfl

@[simp] theorem isFinite_rat (x : Rat) : Coordinate.isFinite x = true := rfl

/-- The coordinate is a number: it equals itself. -/
def IsNumber (x : α) : Prop := x ≤ x

instance (x : α) : Decidable (IsNumber x) := inferInstanceAs (Decidable (x ≤ x))

/-- The lesser of two coordinates. -/
def least (a b : α) : α := if b < a then b else if IsNumber a then a else b

/-- The greater of two coordinates. -/
def greatest (a b : α) : α := if a < b then b else if IsNumber a then a else b

/-- The distance from nought. -/
def abs (x : α) : α := if x < ofNat 0 then -x else x

/-- One, in the direction of a coordinate that is not nought. -/
def direction (x : α) : α := if ofNat 0 < x then ofNat 1 else -ofNat 1

end Coordinate

end PatternDiagram
