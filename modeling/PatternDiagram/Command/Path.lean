/-!
# Paths

Where a path leads, seen from a folder of which nothing is known but its files:

* `Place`: a folder; `Device`: a file that is none; `Destination`: what a path leads to;
* `Refusal`: why a path leads nowhere, or to nothing that can be written;
* `Path.follow`, `Path.destination`: the way, part by part. The parts in front must be folders. The
  last one names the file, which need not exist; a slash behind it asks for a folder.
-/

namespace PatternDiagram.Command

/-! ## 1. Places -/

/-- A folder. -/
inductive Place where
  /-- The folder in which paths begin. -/
  | here
  /-- So many folders further up. -/
  | above (levels : Nat)
  /-- A folder that every system has, by the names from the root on. -/
  | system (names : List String)
  deriving DecidableEq, Repr

/-- Something that is written like a file. -/
inductive Device where
  /-- It takes everything and keeps nothing. -/
  | sink
  /-- It has no room for anything. -/
  | full
  | output
  | errors
  deriving DecidableEq, Repr

/-- What a path leads to. -/
inductive Destination where
  | file (place : Place) (name : String)
  | device (d : Device)
  deriving DecidableEq, Repr

/-- The folders that every system has. -/
def systemFolders : List (List String) :=
  [[], ["bin"], ["dev"], ["etc"], ["home"], ["lib"], ["opt"], ["proc"], ["root"], ["sbin"], ["sys"],
    ["tmp"], ["usr"], ["usr", "bin"], ["usr", "lib"], ["usr", "local"], ["usr", "share"], ["var"],
    ["var", "tmp"]]

/-- The devices that every system has. -/
def systemDevices : List (List String × Device) :=
  [(["dev", "null"], .sink), (["dev", "zero"], .sink), (["dev", "full"], .full),
    (["dev", "stdout"], .output), (["dev", "stderr"], .errors)]

/-- The folder that holds a folder. The root holds itself. -/
def Place.parent : Place → Place
  | .here => .above 1
  | .above levels => .above (levels + 1)
  | .system names => .system names.dropLast

/-! ## 2. Refusals -/

/-- Why nothing can be written to a path. -/
inductive Refusal where
  | notFound
  | notFolder
  | isFolder
  | noSpace
  | nameTooLong
  deriving DecidableEq, Repr

/-- The wording of a refusal. -/
def Refusal.message : Refusal → String
  | .notFound => "No such file or directory (os error 2)"
  | .notFolder => "Not a directory (os error 20)"
  | .isFolder => "Is a directory (os error 21)"
  | .noSpace => "No space left on device (os error 28)"
  | .nameTooLong => "File name too long (os error 36)"

/-! ## 3. The way -/

namespace Path

/-- The longest name of a file, in bytes. -/
def longestName : Nat := 255

/-- The longest path, in bytes. -/
def longest : Nat := 4095

/-- The folder of that name in a place. `isFile` tells the files of the folder in which paths
    begin. -/
def enter (isFile : String → Bool) (place : Place) (name : String) : Except Refusal Place :=
  if name = "." then .ok place
  else if name = ".." then .ok place.parent
  else if longestName < name.utf8ByteSize then .error .nameTooLong
  else
    match place with
    | .here => if isFile name then .error .notFolder else .error .notFound
    | .above _ => .error .notFound
    | .system names =>
        if names ++ [name] ∈ systemFolders then .ok (.system (names ++ [name]))
        else if (systemDevices.lookup (names ++ [name])).isSome then .error .notFolder
        else .error .notFound

/-- The file of that name in a place. -/
def open? (place : Place) (name : String) : Except Refusal Destination :=
  if name = "." ∨ name = ".." then .error .isFolder
  else if longestName < name.utf8ByteSize then .error .nameTooLong
  else
    match place with
    | .system names =>
        if names ++ [name] ∈ systemFolders then .error .isFolder
        else
          match systemDevices.lookup (names ++ [name]) with
          | some d => .ok (.device d)
          | none => .ok (.file place name)
    | _ => .ok (.file place name)

/-- What the parts of a path lead to. `slash` says that there is a slash behind the last one. -/
def follow (isFile : String → Bool) (slash : Bool) (place : Place) :
    List String → Except Refusal Destination
  | [] => .error .isFolder
  | [name] => if slash then .error .isFolder else open? place name
  | name :: rest =>
      match enter isFile place name with
      | .ok place => follow isFile slash place rest
      | .error r => .error r

/-- What a path leads to. -/
def destination (isFile : String → Bool) (path : String) : Except Refusal Destination :=
  if path.isEmpty then .error .notFound
  else if longest < path.utf8ByteSize then .error .nameTooLong
  else
    let cs := path.toList
    let start := if cs.head? = some '/' then Place.system [] else .here
    follow isFile (cs.getLast? == some '/') start ((path.splitOn "/").filter (· ≠ ""))

end Path

end PatternDiagram.Command
