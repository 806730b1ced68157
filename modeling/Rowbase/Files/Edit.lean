import Rowbase.Files.Basic

/-! # How two states of a file system differ

What has to be done to a directory so that it becomes what another state says. -/
namespace Rowbase.Files

/-- A difference between two states. -/
inductive Edit where
  /-- There is a new directory. -/
  | makeDirectory (names : List String)
  /-- A file is new or has other bytes. -/
  | write (names : List String) (bytes : ByteArray)
  /-- A file is gone. -/
  | remove (names : List String)

/-- The bytes of the file that names lead to. -/
def fileAt? (fs : Files) (names : List String) : Option ByteArray :=
  match fs.node? names with
  | some (.file id) => some (fs.bytes id)
  | _ => none

/-- What differs at one place of the new state. -/
def editAt? (old new : Files) : List String × Node → Option Edit
  | (names, .directory) =>
    if old.node? names = some .directory then none else some (.makeDirectory names)
  | (names, .file id) =>
    if old.fileAt? names == some (new.bytes id) then none
    else some (.write names (new.bytes id))

/-- All that differs, removals first. -/
def edits (old new : Files) : List Edit :=
  let gone := old.nodes.entries.filterMap fun (names, _) =>
    if (old.fileAt? names).isSome && (new.node? names).isNone then some (.remove names) else none
  gone ++ new.nodes.entries.filterMap (editAt? old new)

end Rowbase.Files
