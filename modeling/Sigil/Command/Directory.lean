import Sigil.Command.Execution

/-!
# Directories as values

A directory that is a list of files, with a standard input and what was printed.  Commands run on it
like on a real one, so what they do can be computed and reasoned about.
-/

namespace Sigil.Command

/-- A directory with the two standard streams. -/
structure Directory where
  files : List (String × ByteArray) := []
  standardInput : ByteArray := .empty
  printed : ByteArray := .empty

namespace Directory

/-- The path without leading `./`. -/
def normal (path : String) : String := String.ofList (dropDots path.toList)
where
  /-- Drops `./` from the front, any number of times. -/
  dropDots : List Char → List Char
    | '.' :: '/' :: r => dropDots r
    | r => r

/-- The characters before the last slash of a path. -/
def parent? (path : String) : Option String :=
  match path.toList.reverse.dropWhile (· != '/') with
  | [] => none
  | _ :: r => some (String.ofList r.reverse)

/-- A path leads to a directory. -/
def isDirectory (d : Directory) (path : String) : Bool :=
  path.isEmpty || path == "." || path == ".."
    || d.files.any fun (name, _) => (path ++ "/").toList.isPrefixOf name.toList

/-- Why a directory cannot be read. -/
def noFile : String := "is a directory"

/-- What is found under a path. -/
def find (d : Directory) (path : String) : Found :=
  let path := normal path
  if d.isDirectory path then .closed noFile
  else
    match d.files.lookup path with
    | some bytes => .file bytes
    | none => .absent

/-- A file can be made under a path. -/
def canCreate (d : Directory) (path : String) : Bool :=
  let path := normal path
  !d.isDirectory path && (parent? path).all d.isDirectory

/-- Sets the contents of a file. -/
def store (d : Directory) (path : String) (bytes : ByteArray) : Directory :=
  let path := normal path
  { d with files := (path, bytes) :: d.files.filter (·.1 != path) }

/-- The operations on a directory. -/
def effects : Effects (StateM Directory) where
  find path := do return (← get).find path
  standardInput := do return (← get).standardInput
  create path := do
    let d ← get
    if d.canCreate path then
      set (d.store path .empty)
      return true
    else return false
  write path bytes := modify (·.store path bytes)
  print bytes := modify fun d => { d with printed := d.printed ++ bytes }

/-- Carries out a command line on a directory. -/
def run (d : Directory) (args : List String) (colour : Bool) : Verdict × Directory :=
  Command.run effects args colour d

/-- The files of `after` that are new or have other contents than in `d`. -/
def changes (d after : Directory) : List (String × ByteArray) :=
  after.files.filter fun (name, bytes) => d.files.lookup name != some bytes

end Directory

end Sigil.Command
