/-!
# Floating-point numbers taken apart

* `Binary`: what a double-precision number is: not a number, an infinity, or a sign with a whole
  number times a power of two;
* `Binary.ofFloat`: reads it off the 64 bits;
* `Binary.Fraction`, `Binary.fraction`: the magnitude of a finite number as a quotient of natural
  numbers, so that all further arithmetic is exact.
-/

namespace PatternDiagram

/-- A double-precision number. A finite one has the magnitude `m * 2 ^ q`. -/
inductive Binary where
  | nan
  | infinite (negative : Bool)
  | finite (negative : Bool) (m : Nat) (q : Int)
  deriving DecidableEq, Repr

namespace Binary

/-- The bits of a number: one for the sign, eleven for the exponent, 52 for the rest. The least
    exponent marks numbers without the leading one bit. -/
def ofFloat (x : Float) : Binary :=
  let bits := x.toBits.toNat
  let negative := bits / 0x8000000000000000 == 1
  let exponent : Nat := bits / 0x10000000000000 % 0x800
  let rest : Nat := bits % 0x10000000000000
  if exponent = 2047 then
    if rest = 0 then .infinite negative else .nan
  else if exponent = 0 then .finite negative rest (-1074)
  else .finite negative (rest + 0x10000000000000) ((exponent : Int) - 1075)

/-- A quotient of natural numbers. -/
structure Fraction where
  num : Nat
  den : Nat
  deriving DecidableEq, Repr

/-- The magnitude `m * 2 ^ q` as a quotient. -/
def fraction (m : Nat) (q : Int) : Fraction :=
  if 0 ≤ q then ⟨m * Nat.pow 2 q.toNat, 1⟩ else ⟨m, Nat.pow 2 (-q).toNat⟩

theorem fraction_den_pos (m : Nat) (q : Int) : 0 < (fraction m q).den := by
  unfold fraction
  split
  · exact Nat.one_pos
  · exact Nat.two_pow_pos _

/-- The quotient is a whole number. -/
def Fraction.isWhole (f : Fraction) : Bool := f.num % f.den == 0

/-- The quotient times a power of ten. -/
def Fraction.scale (f : Fraction) (places : Nat) : Fraction := ⟨f.num * Nat.pow 10 places, f.den⟩

end Binary

end PatternDiagram
