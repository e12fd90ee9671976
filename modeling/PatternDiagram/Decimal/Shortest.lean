import PatternDiagram.Decimal.Binary
import PatternDiagram.Text.Numeral

/-!
# The fewest digits that read back

A double-precision number stands for all the reals that round to it. Among the decimal numbers in
that interval this file finds one with the fewest digits, and of those the nearest to the number
itself:

* `Rounding`: the interval, as a quotient with the distances to its two ends;
* `Digits`: a whole number times a power of ten;
* `Shortest.digits`: the search, one digit more at a time;
* `NumberStyle`, `NumberStyle.write`: where the point goes, and when an exponent is written.
-/

namespace PatternDiagram

/-- The reals that round to the number `num / den`: those from `(num - below) / den` to
    `(num + above) / den`, the ends included if `closed`. -/
structure Rounding where
  num : Nat
  den : Nat
  below : Nat
  above : Nat
  closed : Bool
  deriving Repr

/-- A decimal number: `value * 10 ^ exponent`. -/
structure Digits where
  value : Nat
  exponent : Int
  deriving DecidableEq, Repr

/-- What becomes of a number that is as far from one decimal neighbour as from the other. -/
inductive Tie where
  | up
  | even
  deriving DecidableEq, Repr

namespace Rounding

/-- The interval of `m * 2 ^ q`. The gap below a power of two is half as wide as the one above it,
    unless the exponent is already the least. -/
def ofBinary (m : Nat) (q : Int) : Rounding :=
  let narrow := m == 0x10000000000000 && decide (-1074 < q)
  let unit := (Binary.fraction 1 (q - 2))
  { num := 4 * m * unit.num
    den := unit.den
    below := (if narrow then 1 else 2) * unit.num
    above := 2 * unit.num
    closed := m % 2 == 0 }

/-- The interval in units of `10 ^ k`. -/
def inUnits (r : Rounding) (k : Int) : Rounding :=
  if 0 ≤ k then { r with den := r.den * Nat.pow 10 k.toNat }
  else
    let s := Nat.pow 10 (-k).toNat
    { r with num := r.num * s, below := r.below * s, above := r.above * s }

/-- The whole number lies in the interval. -/
def holds (r : Rounding) (c : Nat) : Bool :=
  let lo := r.num - r.below
  let hi := r.num + r.above
  if r.closed then decide (lo ≤ c * r.den ∧ c * r.den ≤ hi)
  else decide (lo < c * r.den ∧ c * r.den < hi)

/-- The whole number below, or the one above, whichever lies in the interval; if both do, the
    nearer one. -/
def pick (r : Rounding) (tie : Tie) : Option Nat :=
  let below := r.num / r.den
  let rest := r.num % r.den
  match r.holds below, r.holds (below + 1) with
  | false, false => none
  | true, false => some below
  | false, true => some (below + 1)
  | true, true =>
      if 2 * rest < r.den then some below
      else if r.den < 2 * rest then some (below + 1)
      else match tie with
        | .up => some (below + 1)
        | .even => some (if below % 2 = 0 then below else below + 1)

/-- The number of digits of a whole number, nought for nought. -/
def width (n : Nat) : Nat := if n = 0 then 0 else (Numeral.write 10 n).length

/-- The power of ten just above the number: the least `p` with `num / den < 10 ^ p`. -/
def magnitude (r : Rounding) : Int :=
  if r.den ≤ r.num then width (r.num / r.den) else 1 - (width ((r.den - 1) / r.num) : Int)

end Rounding

namespace Shortest

/-- Tries the decimal numbers of `count` digits, then those of one digit more, and so on. -/
def search (r : Rounding) (tie : Tie) (p : Int) : Nat → Nat → Digits
  | count, 0 =>
      let k := p - count
      ⟨(r.inUnits k).num / (r.inUnits k).den, k⟩
  | count, more + 1 =>
      let k := p - count
      match (r.inUnits k).pick tie with
      | some c => ⟨c, k⟩
      | none => search r tie p (count + 1) more

/-- The digits of `m * 2 ^ q`, which must not be nought. Seventeen are always enough. -/
def digits (tie : Tie) (m : Nat) (q : Int) : Digits :=
  let r := Rounding.ofBinary m q
  search r tie r.magnitude 1 17

end Shortest

/-! ## Where the point goes -/

/-- How decimal numbers are laid out. `point` counts the digits before the point: the number is
    between `10 ^ (point - 1)` and `10 ^ point`. -/
structure NumberStyle where
  /-- With fewer digits before the point than this the number gets an exponent. -/
  leastPoint : Int
  /-- With more digits before the point than this the number gets an exponent. -/
  greatestPoint : Int
  /-- What stands before a power of ten that is not negative. -/
  plus : List Char
  /-- Which of two equally near numbers is written. -/
  tie : Tie
  nan : String
  infinite : String
  negativeInfinite : String

namespace NumberStyle

/-- The digits with a point after the first `point` of them, noughts filled in where there are no
    digits. Something stands on both sides of the point. -/
def positional (digits : List Char) (point : Int) : List Char :=
  if point ≤ 0 then '0' :: '.' :: (List.replicate (-point).toNat '0' ++ digits)
  else if digits.length ≤ point.toNat then
    digits ++ List.replicate (point.toNat - digits.length) '0' ++ ['.', '0']
  else digits.take point.toNat ++ '.' :: digits.drop point.toNat

/-- The digits with a point after the first one, if more follow, and a power of ten. -/
def exponential (plus digits : List Char) (point : Int) : List Char :=
  let power := point - 1
  digits.take 1 ++ (if digits.length ≤ 1 then [] else '.' :: digits.drop 1) ++
    'e' :: ((if power < 0 then ['-'] else plus) ++ Numeral.write 10 power.natAbs)

/-- The magnitude `value * 10 ^ exponent`. -/
def magnitude (style : NumberStyle) (d : Digits) : List Char :=
  let all := Numeral.write 10 d.value
  let point := all.length + d.exponent
  let digits := (all.reverse.dropWhile (· == '0')).reverse
  if style.leastPoint ≤ point ∧ point ≤ style.greatestPoint then positional digits point
  else exponential style.plus digits point

/-- A double-precision number in the fewest digits that read back. -/
def write (style : NumberStyle) (x : Float) : String :=
  match Binary.ofFloat x with
  | .nan => style.nan
  | .infinite false => style.infinite
  | .infinite true => style.negativeInfinite
  | .finite negative m q =>
      let body := if m = 0 then ['0', '.', '0']
        else style.magnitude (Shortest.digits style.tie m q)
      String.ofList (if negative then '-' :: body else body)

end NumberStyle

end PatternDiagram
