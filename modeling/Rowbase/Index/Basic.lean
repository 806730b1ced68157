import Rowbase.Index.Document
import Std.Data.TreeMap.Basic

/-! # Indices

An index finds the rows of a relation by the values in some of its columns. It lives in a map from
keys to handles, which is read from its file when it is first needed and saved after every change.
Keys with a NULL are kept but never found, and do not count as equal in a unique index. -/
namespace Rowbase

/-- An index and the file that it is saved in. -/
structure Index where
  table : String
  name : String
  columns : List String
  unique : Bool
  path : String
  /-- The handles under each key. -/
  map : Std.TreeMap Key (List Handle) Key.compare := ∅
  /-- Whether the map holds what the file does. -/
  loaded : Bool := false

namespace Index

/-- The key of a row. -/
def keyOf (ix : Index) (row : Row) : Except StorageError Key := row.valuesOf ix.name ix.columns

/-- The handles under a key. -/
def handles (ix : Index) (key : Key) : List Handle := ix.map.getD key []

/-- The index with a handle added under a key. A unique index takes one handle for each key
without a NULL. -/
def add (ix : Index) (key : Key) (h : Handle) : Except StorageError Index :=
  if ix.unique && !key.hasNull && !(ix.handles key).isEmpty then
    .error (.duplicateKey ix.name key.shown)
  else .ok { ix with map := ix.map.insert key (ix.handles key ++ [h]) }

/-- The index with a handle taken away from under a key. -/
def remove (ix : Index) (key : Key) (h : Handle) : Index :=
  let rest := (ix.handles key).filter (· ≠ h)
  { ix with map := if rest.isEmpty then ix.map.erase key else ix.map.insert key rest }

/-- The index as it is saved. -/
def document (ix : Index) : Document := ⟨ix.unique, ix.columns, ix.map.toList⟩

/-! ## Acts -/

/-- Reads the map from the file, unless that was done before. Of two entries for a key the later
one counts. A directory can be opened like a file, and shows itself only when it is read. -/
def load : Act StorageError Index Unit :=
  .change fun ix fs =>
    if ix.loaded then .ok ((), ix, fs)
    else match fs.read ix.path with
      | .error .notFound => .error (.relation (.indexMissing ix.name ix.table))
      | .error .isDirectory => .error (.indexDocument (.unreadable .isDirectory))
      | .error e => .error (.file e)
      | .ok bytes => match Document.ofBytes? bytes with
        | none => .error (.indexDocument .malformed)
        | some d => .ok ((), { ix with map := .ofList d.entries _, loaded := true }, fs)

/-- Writes the map to the file. -/
def save : Act StorageError Index Unit :=
  .change fun ix fs => do
    return ((), ix, ← (fs.write ix.path ix.document.bytes).mapError .file)

/-- Adds a row to the map. -/
def addRow (h : Handle) (row : Row) : Act StorageError Index Unit :=
  .change fun ix fs => do return ((), ← ix.add (← ix.keyOf row) h, fs)

/-- Makes the index of rows, which must not be there. -/
def create (entries : List (Handle × Row)) : Act StorageError Index Unit := do
  .look fun ix fs =>
    if fs.exists? ix.path then .error (.relation (.indexExists ix.name ix.table)) else .ok ()
  .update fun ix => { ix with map := ∅ }
  entries.forM fun e => addRow e.1 e.2
  save
  .update fun ix => { ix with loaded := true }

/-- Removes the index. -/
def drop : Act StorageError Index Unit := do
  .update fun ix => { ix with map := ∅, loaded := false }
  .change fun ix fs => match fs.remove ix.path with
    | .ok fs => .ok ((), ix, fs)
    | .error .notFound => .ok ((), ix, fs)
    | .error e => .error (.file e)

/-- Adds a row that was inserted. -/
def insert (h : Handle) (row : Row) : Act StorageError Index Unit := do
  load
  addRow h row
  save

/-- Takes out a row that is to be deleted. -/
def delete (h : Handle) (row : Row) : Act StorageError Index Unit := do
  load
  .change fun ix fs => do return ((), ix.remove (← ix.keyOf row) h, fs)
  save

/-- The handles under the key that a row has; none if the key has a NULL. -/
def lookup (row : Row) : Act StorageError Index (List Handle) := do
  load
  .look fun ix _ => do
    let key ← ix.keyOf row
    return if key.hasNull then [] else ix.handles key

end Index

end Rowbase
