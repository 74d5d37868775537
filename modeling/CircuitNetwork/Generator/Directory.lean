namespace CircuitNetwork

/-!
# Directories

The files that the generator works on, as values: a directory with files in it
and below it. A path is walked name by name, and every name but the last one must
lead to a directory that is there. What is above the directory is not known, but
it can be left and entered.
-/

/-- Why a file cannot be opened. -/
inductive FileProblem where
  | missing
  | isDirectory
  | notDirectory
  | invalidName
  | nameTooLong
  deriving Repr, DecidableEq, Inhabited

/-- The wording of a problem with a file. -/
def FileProblem.text : FileProblem → String
  | missing => "no such file or directory"
  | isDirectory => "is a directory"
  | notDirectory => "not a directory"
  | invalidName => "invalid argument"
  | nameTooLong => "file name too long"

/-- Files by path, without names that lead nowhere. -/
structure Directory where
  files : List (String × String) := []
  deriving Repr, DecidableEq, Inhabited

/-- What a path leads to: a file, or a directory, both by the names that lead there, or a directory
above. The device that keeps nothing is the only thing known above. -/
inductive Destination where
  | file (path : List String) (text : String)
  | folder (path : List String)
  | above
  | devices
  | nothing
  deriving Repr, DecidableEq, Inhabited

namespace Directory

/-- The greatest length of a path in bytes. -/
def maxPath : Nat := 4095

/-- The greatest length of a name in bytes. -/
def maxName : Nat := 255

/-- The path of names. -/
def pathOf (names : List String) : String := "/".intercalate names

/-- What names in this directory lead to. -/
def entry? (directory : Directory) (path : List String) : Option Destination :=
  match directory.files.find? (·.1 = pathOf path) with
  | some file => some (.file path file.2)
  | none =>
      let below := pathOf path ++ "/"
      if directory.files.any (·.1.startsWith below) then some (.folder path) else none

/-- What an ordinary name leads to, if that is known. -/
def find
    (name : String)
    (found : Option Destination) :
    Except FileProblem Destination :=
  if maxName < name.utf8ByteSize then .error .nameTooLong
  else match found with
    | some destination => .ok destination
    | none => .error .missing

/-- What a name leads to from a place. No name and a dot stay there, and two dots go up. -/
def step
    (directory : Directory)
    (place : Destination)
    (name : String) :
    Except FileProblem Destination :=
  match place with
  | .file .. => .error .notDirectory
  | .nothing => .error .notDirectory
  | .folder path =>
      if name = "" || name = "." then .ok place
      else if name = ".." then .ok (if path.isEmpty then .above else .folder path.dropLast)
      else find name (directory.entry? (path ++ [name]))
  | .above =>
      if name = "" || name = "." || name = ".." then .ok .above
      else find name none
  | .devices =>
      if name = "" || name = "." then .ok .devices
      else if name = ".." then .ok .above
      else find name (if name = "null" then some .nothing else none)

/-- What names lead to. Those in front of a path from the top may lead to the devices. -/
def walk (directory : Directory) : List String → Except FileProblem Destination
  | "" :: "dev" :: rest => rest.foldlM directory.step .devices
  | "" :: rest => rest.foldlM directory.step .above
  | names => names.foldlM directory.step (.folder [])

/-- The names along a path that can be walked at all. -/
def names (path : String) : Except FileProblem (List String) :=
  if path.contains '\x00' then .error .invalidName
  else if path = "" then .error .missing
  else if maxPath < path.utf8ByteSize then .error .nameTooLong
  else .ok (path.splitOn "/")

/-- What a path leads to: the text of a file, or a directory, which can be opened as well. -/
def lookup (directory : Directory) (path : String) : Except FileProblem (Option String) := do
  match ← directory.walk (← names path) with
  | .file _ text => return some text
  | .nothing => return some ""
  | _ => return none

/-- Set the text of a file. -/
def put (directory : Directory) (path text : String) : Directory :=
  if directory.files.any (·.1 = path) then
    ⟨directory.files.map fun file => if file.1 = path then (path, text) else file⟩
  else
    ⟨directory.files ++ [(path, text)]⟩

/-- Create a file with a name in a place, or replace one. Files above are not kept. -/
def createIn
    (directory : Directory)
    (place : Destination)
    (name text : String) :
    Except FileProblem Directory :=
  match place, directory.step place name with
  | _, .ok (.file path _) => .ok (directory.put (pathOf path) text)
  | _, .ok .nothing => .ok directory
  | _, .ok _ => .error .isDirectory
  | .folder path, .error .missing => .ok (directory.put (pathOf (path ++ [name])) text)
  | .above, .error .missing => .ok directory
  | _, .error problem => .error problem

/-- Create a file, or replace one, in a directory that is there. A path with a slash at its end is
that of a directory. -/
def create (directory : Directory) (path text : String) : Except FileProblem Directory := do
  let names ← names path
  let last := names.getLastD ""
  if last ≠ "" || names.all (· = "") then
    directory.createIn (← directory.walk names.dropLast) last text
  else
    let named := (names.reverse.dropWhile (· = "")).reverse
    let _ ← directory.step (← directory.walk named.dropLast) "."
    .error .isDirectory

end Directory

end CircuitNetwork
