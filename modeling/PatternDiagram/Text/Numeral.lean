/-!
# Numerals

Writing and reading natural numbers in a base of at most sixteen:

* `Numeral.digit?`: the value of a digit, capital letters included;
* `Numeral.value`: the number that a row of digits denotes;
* `Numeral.write`, `Numeral.padded`: the digits of a number, with small letters.
-/

namespace PatternDiagram.Numeral

/-- The value of a digit below sixteen. -/
def digit? (c : Char) : Option Nat :=
  if '0' ≤ c ∧ c ≤ '9' then some (c.toNat - '0'.toNat)
  else if 'a' ≤ c ∧ c ≤ 'f' then some (c.toNat - 'a'.toNat + 10)
  else if 'A' ≤ c ∧ c ≤ 'F' then some (c.toNat - 'A'.toNat + 10)
  else none

/-- The character is a digit of the base. -/
def isDigit (base : Nat) (c : Char) : Bool :=
  match digit? c with
  | some d => d < base
  | none => false

/-- The number that a row of digits denotes in the base. Anything that is not a digit counts as
    nought. -/
def value (base : Nat) (cs : List Char) : Nat :=
  cs.foldl (fun n c => n * base + (digit? c).getD 0) 0

@[simp] theorem value_nil (base : Nat) : value base [] = 0 := rfl

/-- **The last digit counts once, all the others as often as the base says.** -/
theorem value_append_singleton (base : Nat) (cs : List Char) (c : Char) :
    value base (cs ++ [c]) = value base cs * base + (digit? c).getD 0 := by
  simp [value]

/-- The digits of a number, without leading noughts. -/
def write (base n : Nat) : List Char := Nat.toDigits base n

/-- The digits of a number, filled up with leading noughts to the given width. -/
def padded (width base n : Nat) : List Char :=
  let digits := write base n
  List.replicate (width - digits.length) '0' ++ digits

/-- A number below the base is one digit. -/
theorem write_of_lt {base n : Nat} (h : n < base) : write base n = [Nat.digitChar n] := by
  simp [write, Nat.toDigits_of_lt_base h]

/-- The digits of a number with capital letters, filled up to the given width. -/
def paddedUpper (width base n : Nat) : List Char :=
  (padded width base n).map Char.toUpper

/-- A number in the ordinary decimal way. -/
def decimal (n : Nat) : String := String.ofList (write 10 n)

theorem decimal_eq_toString (n : Nat) : decimal n = toString n := rfl

end PatternDiagram.Numeral
