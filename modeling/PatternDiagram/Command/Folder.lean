import PatternDiagram.Command.Path
import PatternDiagram.Command.Report

/-!
# Folders

Where the document of a report goes when it goes to a file:

* `Folder`: the files that have been written, with the folder in which paths begin;
* `Folder.content?`, `Folder.write`: what is in a file, and what replaces it;
* `Folder.carryOut`: writes the document of a report. If that is not possible, the report says so
  instead.
-/

namespace PatternDiagram.Command

/-- The files that have been written: where they are, their names, and what is in them. -/
structure Folder where
  files : List ((Place × String) × String) := []
  deriving DecidableEq, Repr

namespace Folder

def empty : Folder := {}

/-- The folder in which paths begin has a file of this name. -/
def hasFile (f : Folder) (name : String) : Bool := (f.files.lookup (.here, name)).isSome

/-- What is in a file. -/
def content? (f : Folder) (path : String) : Option String :=
  match Path.destination f.hasFile path with
  | .ok (.file place name) => f.files.lookup (place, name)
  | _ => none

/-- Replaces what is in a file. -/
def write (f : Folder) (place : Place) (name content : String) : Folder :=
  ⟨((place, name), content) :: f.files.filter fun file => file.1 != (place, name)⟩

/-- Writes the document of a report. What is written to the output or to the errors stands in front
    of what is printed there. -/
def carryOut (f : Folder) (report : Report) : Report × Folder :=
  match report.file with
  | none => (report, f)
  | some (path, document) =>
      match Path.destination f.hasFile path with
      | .ok (.file place name) => (report, f.write place name document)
      | .ok (.device .sink) => (report, f)
      | .ok (.device .full) => (.unwritten path Refusal.noSpace.message, f)
      | .ok (.device .output) => ({ report with stdout := document ++ report.stdout }, f)
      | .ok (.device .errors) => ({ report with stderr := document ++ report.stderr }, f)
      | .error r => (.unwritten path r.message, f)

end Folder

end PatternDiagram.Command
