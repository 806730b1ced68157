import Rowbase.Bindings
import Rowbase.Bytes
import Rowbase.Files.Fault
import Rowbase.Files.Path

/-! # A file system

Directories and files, found by walking along the names of a path. Whoever opens a file keeps the
number under which its bytes are stored, so the file stays readable and writable for them after it
is removed. A request that fails changes nothing, but for `makeDirectories`, which keeps the
directories that it made before it failed. -/
namespace Rowbase

/-- What a name leads to. -/
inductive Files.Node where
  | directory
  /-- A file, with the number of its bytes. -/
  | file (id : Nat)
deriving DecidableEq

/-- The state of a file system. Directories are known by the names that lead to them from the
root, which always exists. -/
structure Files where
  nodes : Bindings (List String) Files.Node
  /-- The bytes of each file ever made. -/
  contents : Array ByteArray
  /-- Where paths start that are not absolute. -/
  workDirectory : List String

namespace Files

/-- What the names lead to from the root. -/
def node? (fs : Files) (names : List String) : Option Node :=
  if names = [] then some .directory else fs.nodes.get? names

/-- Where a name leads from a directory. Two names are special everywhere: a point stays and two
points go up; the root is above itself. -/
def step (directory : List String) (name : String) : Except Fault (List String) :=
  if name = "" ∨ name = "." then .ok directory
  else if name = ".." then .ok directory.dropLast
  else if 255 < name.utf8ByteSize then .error .nameTooLong
  else .ok (directory ++ [name])

/-- Where names lead from a directory. All but the last must lead to directories. -/
def walk (fs : Files) (directory : List String) : List String → Except Fault (List String)
  | [] => .ok directory
  | name :: names => match fs.node? directory with
    | none => .error .notFound
    | some (.file _) => .error .notDirectory
    | some .directory => do fs.walk (← step directory name) names

/-- Where a path starts. -/
def start (fs : Files) (path : String) : List String :=
  if isAbsolute path then [] else fs.workDirectory

/-- Whether a path can be asked for at all. -/
def check (path : String) : Except Fault Unit :=
  if '\x00' ∈ path.toList then .error .nulInName
  else if path.isEmpty then .error .notFound
  else if 4095 < path.utf8ByteSize then .error .nameTooLong
  else .ok ()

/-- Where a path leads. -/
def locate (fs : Files) (path : String) : Except Fault (List String) := do
  check path
  fs.walk (fs.start path) (namesOf path)

/-- Where a path leads at which a file is made or written. A slash at its end asks for a directory,
whatever the last name leads to; the names before it must lead to one. -/
def locateFile (fs : Files) (path : String) : Except Fault (List String) := do
  if endsInSlash path then
    check path
    discard (fs.walk (fs.start path) (((namesOf path).filter (· ≠ "")).dropLast ++ ["."]))
    .error .isDirectory
  else fs.locate path

/-- Whether there is something at a path. -/
def exists? (fs : Files) (path : String) : Bool :=
  match fs.locate path with
  | .ok names => (fs.node? names).isSome
  | .error _ => false

/-! ## Files by path -/

/-- The number of an existing file. -/
def find (fs : Files) (path : String) : Except Fault Nat := do
  match fs.node? (← fs.locate path) with
  | some (.file id) => pure id
  | some .directory => .error .isDirectory
  | none => .error .notFound

/-- The file system with a new file of these bytes. -/
def push (fs : Files) (names : List String) (bytes : ByteArray) : Files where
  nodes := fs.nodes.insert names (.file fs.contents.size)
  contents := fs.contents.push bytes
  workDirectory := fs.workDirectory

/-- Makes an empty file where there is nothing, and returns its number. -/
def create (fs : Files) (path : String) : Except Fault (Nat × Files) := do
  let names ← fs.locateFile path
  match fs.node? names with
  | some _ => .error .alreadyExists
  | none => pure (fs.contents.size, fs.push names .empty)

/-- The bytes of a file, none if its number stands for none. -/
def bytes (fs : Files) (id : Nat) : ByteArray := fs.contents.getD id .empty

/-- The file system with other bytes in a file. -/
def setBytes (fs : Files) (id : Nat) (bytes : ByteArray) : Files :=
  { fs with contents := fs.contents.setIfInBounds id bytes }

/-- The bytes of the file at a path. -/
def read (fs : Files) (path : String) : Except Fault ByteArray := do
  return fs.bytes (← fs.find path)

/-- Writes a whole file, which is made if there is none. -/
def write (fs : Files) (path : String) (bytes : ByteArray) : Except Fault Files := do
  let names ← fs.locateFile path
  match fs.node? names with
  | some (.file id) => pure (fs.setBytes id bytes)
  | some .directory => .error .isDirectory
  | none => pure (fs.push names bytes)

/-- Removes a file. -/
def remove (fs : Files) (path : String) : Except Fault Files := do
  let names ← fs.locate path
  match fs.node? names with
  | some (.file _) => pure { fs with nodes := fs.nodes.erase names }
  | some .directory => .error .isDirectory
  | none => .error .notFound

/-! ## Parts of an open file -/

/-- The bytes of a file from a place on, if it has so many. -/
def readAt (fs : Files) (id place size : Nat) : Except Fault ByteArray :=
  let bytes := (fs.bytes id).extract place (place + size)
  if bytes.size = size then .ok bytes else .error .endOfFile

/-- Writes bytes into a file; a gap behind its end is filled with zeros. -/
def writeAt (fs : Files) (id place : Nat) (data : ByteArray) : Files :=
  let old := fs.bytes id
  let grown := old ++ Bytes.zeros (place + data.size - old.size)
  fs.setBytes id (Bytes.overwrite grown place data)

/-! ## Directories -/

/-- Makes a directory where there is nothing. -/
def makeDirectory (fs : Files) (start names : List String) : Except Fault Files := do
  let names ← fs.walk start names
  match fs.node? names with
  | some _ => .error .alreadyExists
  | none => pure { fs with nodes := fs.nodes.insert names .directory }

/-- Whether the names lead to a directory. -/
def isDirectory (fs : Files) (start names : List String) : Bool :=
  match fs.walk start names with
  | .ok names => fs.node? names == some .directory
  | .error _ => false

/-- Makes a directory, which may be there already. -/
def ensureDirectory (fs : Files) (start names : List String) : Except Fault Unit × Files :=
  match fs.makeDirectory start names with
  | .ok fs => (.ok (), fs)
  | .error e => (if fs.isDirectory start names then .ok () else .error e, fs)

/-- Makes a directory, which may be there already. If one on the way to it is missing, those above
it are made, and then the directory is tried once more. -/
def ensureBelow (fs : Files) (start names : List String)
    (makeAbove : Files → Except Fault Unit × Files) : Except Fault Unit × Files :=
  match fs.ensureDirectory start names with
  | (.error .notFound, fs) => match makeAbove fs with
    | (.ok (), fs) => fs.ensureDirectory start names
    | failed => failed
  | done => done

/-- Makes a directory, which may be there already, and all that are missing above it. The names
stand in reverse, the last first. -/
def makeAll (fs : Files) (start : List String) : List String → Except Fault Unit × Files
  | [] => (.ok (), fs)
  | name :: above =>
    fs.ensureBelow start (name :: above).reverse fun fs => fs.makeAll start above

/-- Makes the directory at a path and all that are missing above it. The empty path stands for the
directory where paths start. The path is tried as it stands: a point at its end stays in a directory
that must be there, and is not made together with those above it. -/
def makeDirectories (fs : Files) (path : String) : Except Fault Unit × Files :=
  if path.isEmpty then (.ok (), fs)
  else match check path with
    | .error e => (.error e, fs)
    | .ok () => fs.ensureBelow (fs.start path) ((namesOf path).filter (· ≠ "")) fun fs =>
      fs.makeAll (fs.start path) (stepsOf path).reverse.tail

/-- A file system with nothing in it but a directory to work in. -/
def fresh (workDirectory : List String) : Files :=
  (makeAll ⟨.empty, #[], workDirectory⟩ [] workDirectory.reverse).2

/-- The size of every file. -/
def sizes (fs : Files) : List (List String × Nat) :=
  fs.nodes.entries.filterMap fun e => match e.2 with
    | .file id => some (e.1, (fs.bytes id).size)
    | .directory => none

end Files

end Rowbase
