import PatternDiagram.Command.Arguments
import PatternDiagram.Drawing.Environment
import PatternDiagram.Json.Expression
import PatternDiagram.Render.Tree

/-!
# What the command does

* `Report`: what is printed, what is written to a file, and the exit code;
* `patternOfInput`, `unfolded`: the pattern in the input; a pattern that was typed over several
  lines, with line feed escapes in place of the line ends;
* `respond`: the report on a pattern;
* `run`: the report on a whole call.
-/

namespace PatternDiagram.Command

/-! ## 1. Reports -/

/-- What a call of the command amounts to. The document that goes to a file stands beside the file's
    name. -/
structure Report where
  exit : Nat := 0
  stdout : String := ""
  stderr : String := ""
  file : Option (String × String) := none
  deriving DecidableEq, Repr

/-- Something went wrong while something was being done. -/
def Report.failure (doing cause : String) : Report where
  exit := 1
  stderr := "Error: " ++ doing ++ "\n\nCaused by:\n    " ++ cause ++ "\n"

/-- The input could not be read as text. -/
def Report.unreadable : Report :=
  .failure "reading pattern from stdin" "stream did not contain valid UTF-8"

/-- The file could not be written. -/
def Report.unwritten (file cause : String) : Report := .failure ("writing " ++ file) cause

/-- The pattern is malformed. A caret under it points to the place. -/
def Report.syntaxError (source : String) (e : SyntaxError) : Report where
  exit := 1
  stderr := "error: " ++ e.message ++ "\n  " ++ source ++ "\n  " ++
    String.ofList (List.replicate e.offset ' ') ++ "^\n"

/-! ## 2. The pattern -/

/-- The text without the line ends at its end. -/
def dropLineEnds (cs : List Char) : List Char :=
  (cs.reverse.dropWhile fun c => c == '\r' || c == '\n').reverse

/-- A line feed escape in place of every line end. -/
def unfoldLines : List Char → List Char
  | '\r' :: '\n' :: cs => '\\' :: 'n' :: unfoldLines cs
  | '\n' :: cs => '\\' :: 'n' :: unfoldLines cs
  | c :: cs => c :: unfoldLines cs
  | [] => []

/-- The pattern in the input. -/
def patternOfInput (input : String) : String := String.ofList (dropLineEnds input.toList)

/-- A pattern that was typed over several lines, as one. -/
def unfolded (pattern : String) : String := String.ofList (unfoldLines pattern.toList)

/-! ## 3. The answer -/

/-- The size of a drawing and its warnings. -/
def outputJson (o : RenderOutput Float) : Json :=
  .object [("width", .decimal o.width), ("height", .decimal o.height),
    ("warnings", .list (o.warnings.map .text))]

/-- A line of output. -/
def line (cs : List Char) : String := String.ofList (cs ++ ['\n'])

/-- Prints the expression that the source denotes. -/
def showExpression (source : String) : Report :=
  match parse source with
  | .error e => .syntaxError source e
  | .ok e => { stdout := line e.toJson.pretty }

/-- Draws the source. The document goes to the file if there is one, and is printed otherwise,
    unless the size was asked for. -/
def draw (a : Arguments) (c : Config Float) (source : String) : Report :=
  match renderSvg c source with
  | .error (.malformed e) => .syntaxError source e
  | .error .cancelled => { exit := 130, stderr := RenderError.cancelled.message ++ "\n" }
  | .error e => .failure "rendering diagram" e.message
  | .ok (svg, output) =>
      let size := if a.json then line (outputJson output).compact else ""
      match a.output with
      | some file => { stdout := size, file := some (file, svg) }
      | none => { stdout := if a.json then size else svg }

/-- The report on a pattern as it was typed. -/
def respond (a : Arguments) (env : Environment) (pattern : String) : Report :=
  let source := unfolded pattern
  match Config.ofEnvironment env with
  | .error e => .failure "reading render configuration" e.message
  | .ok c => if a.ast then showExpression source else draw a c source

/-- The report on a call whose input is `input`. -/
def run (arguments : List String) (env : Environment) (input : String) : Report :=
  match Arguments.parse arguments with
  | .error fault => { exit := 2, stderr := fault.message ++ "\n" }
  | .ok a => respond a env (a.pattern.getD (patternOfInput input))

end PatternDiagram.Command
