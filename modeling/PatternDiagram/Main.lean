import PatternDiagram.Command.Path
import PatternDiagram.Command.Report

/-!
# The command

Reads the arguments, the environment and, if there is no pattern among the arguments, the input, and
carries out the report that `Command.run` gives on them.
-/

namespace PatternDiagram.Command

/-- All that is left of the input, behind what has been read already. -/
partial def readAll (input : IO.FS.Stream) (read : ByteArray) : IO ByteArray := do
  let more ← input.read 65536
  if more.isEmpty then return read else readAll input (read ++ more)

/-- The environment, as far as it has a say. -/
def readEnvironment : IO Environment := do
  let set ← Config.variableNames.filterMapM fun name => do
    return (← IO.getEnv name).map fun text => (name, text)
  return .ofList set

/-- The pattern is in the arguments, or else it is the input. -/
def readInput (arguments : List String) : IO (Option String) := do
  match Arguments.parse arguments with
  | .ok { pattern := none, .. } =>
      return String.fromUTF8? (← readAll (← IO.getStdin) .empty)
  | _ => return some ""

/-- Why a file could not be written. -/
def causeOf : IO.Error → String
  | .noFileOrDirectory .. => Refusal.message .notFound
  | .inappropriateType .. => Refusal.message .isFolder
  | cause => toString cause

/-- Writes the document that goes to a file. If that is not possible, the report says so instead. -/
def writeDocument (report : Report) : IO Report := do
  match report.file with
  | none => return report
  | some (path, document) =>
      try
        IO.FS.writeFile path document
        return report
      catch cause => return .unwritten path (causeOf cause)

end PatternDiagram.Command

open PatternDiagram.Command

/-- The command. Its exit code is that of the report. -/
def main (arguments : List String) : IO UInt32 := do
  let report ← match ← readInput arguments with
    | none => pure Report.unreadable
    | some input => writeDocument (run arguments (← readEnvironment) input)
  (← IO.getStdout).putStr report.stdout
  (← IO.getStderr).putStr report.stderr
  return UInt32.ofNat report.exit
