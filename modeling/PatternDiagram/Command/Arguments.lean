/-!
# Arguments of the command line

* `Arguments`: what was asked for;
* `ArgumentFault`: why nothing is done;
* `Arguments.parse`: reads the arguments from left to right. A single dash means that the pattern is
  read from the input, and takes back a pattern that stands before it.
-/

namespace PatternDiagram

/-- What was asked for. -/
structure Arguments where
  /-- The pattern, or `none` if it is read from the input. -/
  pattern : Option String := none
  /-- The file that the document goes to. -/
  output : Option String := none
  /-- The size and the warnings are printed. -/
  json : Bool := false
  /-- The expression is printed, and nothing is drawn. -/
  ast : Bool := false
  deriving DecidableEq, Repr

/-- Why nothing is done. -/
inductive ArgumentFault where
  | help
  | missingFile
  | unexpected (argument : String)
  deriving DecidableEq, Repr

/-- How the program is used. -/
def usage : String := "usage: regex-railroad [--json] [--ast] [-o FILE] [PATTERN | -]"

/-- What is said when nothing is done. -/
def ArgumentFault.message : ArgumentFault → String
  | .help => usage
  | .missingFile => "expected a file after -o"
  | .unexpected argument => "unexpected argument '" ++ argument ++ "'\n" ++ usage

namespace Arguments

/-- Goes on with the arguments that follow those read so far. -/
def parseFrom (a : Arguments) : List String → Except ArgumentFault Arguments
  | [] => .ok a
  | "--json" :: rest => parseFrom { a with json := true } rest
  | "--ast" :: rest => parseFrom { a with ast := true } rest
  | "-o" :: file :: rest => parseFrom { a with output := some file } rest
  | "--output" :: file :: rest => parseFrom { a with output := some file } rest
  | "-o" :: [] => .error .missingFile
  | "--output" :: [] => .error .missingFile
  | "-h" :: _ => .error .help
  | "--help" :: _ => .error .help
  | "-" :: rest => parseFrom { a with pattern := none } rest
  | argument :: rest =>
      match a.pattern with
      | none => parseFrom { a with pattern := some argument } rest
      | some _ => .error (.unexpected argument)

/-- Reads the arguments. -/
def parse (arguments : List String) : Except ArgumentFault Arguments := parseFrom {} arguments

end Arguments

end PatternDiagram
