import PatternDiagram.Decimal.Reader
import PatternDiagram.Drawing.Config
import PatternDiagram.Text.Blank
import PatternDiagram.Text.Quoted

/-!
# Measures from the environment

* `Environment`: the texts of the variables that are set; `Config.variableNames`: those that matter;
* `Environment.size?`, `Environment.duration?`: what counts as a size and as a duration;
* `ConfigError`: a variable with a text that is neither;
* `Config.ofEnvironment`: the measures, the usual ones where a variable is not set.
-/

namespace PatternDiagram

/-- The variables that are set. -/
structure Environment where
  /-- The text of a variable, if it is set. -/
  text? : String → Option String

/-- A variable whose text is not what it should be. -/
structure ConfigError where
  name : String
  value : String
  deriving DecidableEq, Repr

/-- The wording of an error. -/
def ConfigError.message (e : ConfigError) : String :=
  "invalid value for " ++ e.name ++ ": " ++ Quoted.write e.value

namespace Environment

/-- The environment in which these variables are set. -/
def ofList (set : List (String × String)) : Environment :=
  ⟨fun name => set.lookup name⟩

/-- A size: a finite decimal number that is not below nought. Blanks around it do not count. -/
def size? (text : String) : Option Float :=
  match DecimalText.read? (trimBlanks text.toList) with
  | none => none
  | some d =>
      let x := d.toFloat
      if x.isFinite ∧ 0 ≤ x then some x else none

/-- A whole number of milliseconds below `2 ^ 64`, perhaps with a plus sign before it. Blanks around
    it do not count. -/
def duration? (text : String) : Option Nat :=
  let cs := trimBlanks text.toList
  let digits := match cs with
    | '+' :: rest => rest
    | _ => cs
  let n := Numeral.value 10 digits
  if digits.isEmpty || !digits.all Char.isDigit || decide (UInt64.size ≤ n) then none else some n

/-- What a variable says, or the usual value if it is not set. -/
def read {β : Type} (env : Environment) (name : String) (parse? : String → Option β)
    (usual : β) : Except ConfigError β :=
  match env.text? name with
  | none => .ok usual
  | some text =>
      match parse? text with
      | some value => .ok value
      | none => .error ⟨name, text⟩

end Environment

/-- The variables that have a say in the measures, in the order in which they are read. -/
def Config.variableNames : List String :=
  ["RAILROAD_CHAR_WIDTH", "RAILROAD_FONT_SIZE", "RAILROAD_MARGIN", "RAILROAD_CANCEL_DELAY_MS"]

/-- The measures that the environment asks for. The first variable that is not understood is the one
    that is complained about. -/
def Config.ofEnvironment (env : Environment) : Except ConfigError (Config Float) := do
  let charWidth ← env.read "RAILROAD_CHAR_WIDTH" Environment.size? 7
  let fontSize ← env.read "RAILROAD_FONT_SIZE" Environment.size? 12
  let margin ← env.read "RAILROAD_MARGIN" Environment.size? 10
  let cancelDelay ← env.read "RAILROAD_CANCEL_DELAY_MS" Environment.duration? 10
  return { Config.withFont charWidth fontSize with margin, cancelDelay }

end PatternDiagram
