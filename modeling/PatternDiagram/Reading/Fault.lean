import PatternDiagram.Text.Numeral

/-!
# What can be wrong with a pattern

* `Fault`: the causes, and `Fault.message`: their wording;
* `SyntaxError`: a cause with the place it is about, counted in characters;
* `Failure`: the same while reading goes on, when places are still ends of the pattern: what is left
  from the place on, and what is left where reading stopped.
-/

namespace PatternDiagram

/-- The ways in which a pattern can be malformed. -/
inductive Fault where
  | unmatchedClose
  | unterminatedGroup
  | invalidGroup
  | invalidGroupName
  | duplicateGroupName (name : String)
  | unterminatedClass
  | rangeOutOfOrder
  | countsOutOfOrder
  | nothingToRepeat
  | trailingBackslash
  /-- A bar where an item has to begin. No pattern has one: a bar ends the items before it. -/
  | unexpectedBar
  | repeatedFlag (letter : Char)
  deriving DecidableEq, Repr

/-- The wording of a fault. -/
def Fault.message : Fault → String
  | .unmatchedClose => "unmatched ')'"
  | .unterminatedGroup => "unterminated group"
  | .invalidGroup => "invalid group"
  | .invalidGroupName => "invalid capture group name"
  | .duplicateGroupName name => "duplicate group name '" ++ name ++ "'"
  | .unterminatedClass => "unterminated character class"
  | .rangeOutOfOrder => "range out of order in character class"
  | .countsOutOfOrder => "numbers out of order in \x7b\x7d quantifier"
  | .nothingToRepeat => "nothing to repeat"
  | .trailingBackslash => "\\ at end of pattern"
  | .unexpectedBar => "unexpected '|'"
  | .repeatedFlag letter => "repeated flag '" ++ String.ofList [letter] ++ "'"

/-- A fault and how many characters come before the place it is about. -/
structure SyntaxError where
  fault : Fault
  offset : Nat
  deriving DecidableEq, Repr

/-- The wording of an error, its place included. -/
def SyntaxError.message (e : SyntaxError) : String :=
  e.fault.message ++ " at offset " ++ Numeral.decimal e.offset

/-- A fault in the middle of reading. `site` is what is left of the pattern from the place on that
    the fault is about, `stop` what is left where reading stopped. -/
structure Failure where
  fault : Fault
  site : List Char
  stop : List Char
  deriving DecidableEq, Repr

end PatternDiagram
