import PatternDiagram.Text.Numeral

/-!
# Reading decimal numbers

* `DecimalText`: the parts of a decimal number: sign, digits, power of ten;
* `DecimalText.read?`: reads `12`, `1.5`, `.5`, `5.`, each with an optional sign before it and an
  optional exponent (`e-3`) behind it, and nothing else;
* `DecimalText.toFloat`: the nearest double-precision number.
-/

namespace PatternDiagram

/-- A decimal number as written: the digits as a whole number, and the power of ten to multiply it
    with. -/
structure DecimalText where
  negative : Bool
  value : Nat
  exponent : Int
  deriving DecidableEq, Repr

namespace DecimalText

/-- Splits off a sign. No sign means a positive number. -/
def sign : List Char → Bool × List Char
  | '-' :: cs => (true, cs)
  | '+' :: cs => (false, cs)
  | cs => (false, cs)

/-- The digits at the front and what follows them. -/
def digits (cs : List Char) : List Char × List Char :=
  (cs.takeWhile Char.isDigit, cs.dropWhile Char.isDigit)

/-- The power of ten at the end of a number: nothing, or `e` with a whole number. -/
def exponent? : List Char → Option Int
  | [] => some 0
  | e :: cs =>
      if e = 'e' ∨ e = 'E' then
        match sign cs with
        | (negative, rest) =>
            match digits rest with
            | ([], _) => none
            | (ds, []) =>
                let n : Int := Numeral.value 10 ds
                some (if negative then -n else n)
            | _ => none
      else none

/-- Reads a whole text as a decimal number. At least one digit must stand before or after the
    point. -/
def read? (text : List Char) : Option DecimalText :=
  let (negative, cs) := sign text
  let (front, afterFront) := digits cs
  let (back, rest) := match afterFront with
    | '.' :: r => digits r
    | r => ([], r)
  if front.isEmpty && back.isEmpty then none
  else (exponent? rest).map fun e =>
    ⟨negative, Numeral.value 10 (front ++ back), e - back.length⟩

/-- The nearest double-precision number. From `10 ^ 400` on a number is infinite, and below
    `10 ^ (-400)` it is nought, whatever its digits are. -/
def toFloat (d : DecimalText) : Float :=
  let size : Int := (Numeral.write 10 d.value).length + d.exponent
  let magnitude : Float :=
    if d.value = 0 ∨ size < -400 then 0
    else if 400 < size then 1 / 0
    else if d.exponent < 0 then Float.ofScientific d.value true d.exponent.natAbs
    else Float.ofScientific d.value false d.exponent.natAbs
  if d.negative then -magnitude else magnitude

end DecimalText

end PatternDiagram
