import Rowbase.Files.Act
import Rowbase.Heap.BlockFile
import Rowbase.Heap.Record

/-! # Relations

Rows in a file of blocks, in no order but that of their coming. A row is known by its handle, the
numbers of its block and of its record in there. The functions on an open relation say in their
types what they may change; the acts at the end open the relation first. -/
namespace Rowbase

/-- Where a row lies in its relation. -/
structure Handle where
  block : Nat
  record : Nat
deriving DecidableEq

/-- A relation and the file that it lies in. -/
structure Relation where
  name : String
  columns : List Column
  file : Heap.BlockFile
deriving DecidableEq

namespace Relation

/-- The relation that lies, or will lie, in the file at a path. -/
def describe (name : String) (columns : List Column) (path : String) : Relation where
  name
  columns
  file := { relation := name, path }

/-- The names of the columns, in their order. -/
def columnNames (r : Relation) : List String := r.columns.map Column.name

/-- The first column of a name. -/
def column (r : Relation) (name : String) : Except StorageError Column :=
  match r.columns.find? (·.name = name) with
  | some c => .ok c
  | none => .error (.unknownColumn name r.name)

/-- The columns of some names. -/
def pickColumns (r : Relation) (names : List String) : Except StorageError (List Column) :=
  names.mapM r.column

/-! ## Rows -/

/-- The value of a column in a row that is to be stored. -/
def cell (r : Relation) (row : Row) (c : Column) : Except StorageError Value :=
  match row.get? c.name with
  | none =>
    if c.domain.nullable then .ok .null else .error (.relation (.missingValue c.name r.name))
  | some v =>
    if c.domain.accepts v then .ok v
    else .error (.relation (.wrongKind c.name r.name c.domain.kind v.kind?))

/-- The row with NULL in the columns that it does not name. -/
def complete (r : Relation) (row : Row) : Except StorageError Row :=
  match row.keys.find? (· ∉ r.columnNames) with
  | some extra => .error (.unknownColumn extra r.name)
  | none => do return .ofList (← r.columns.mapM fun c => do return (c.name, ← r.cell row c))

/-- The row in a record. -/
def decode (r : Relation) (bytes : ByteArray) : Except StorageError Row :=
  Heap.decode r.name r.columns bytes

/-- The row behind a handle. -/
def row (r : Relation) (fs : Files) (h : Handle) : Except StorageError Row := do
  match (← r.file.get fs h.block).get? h.record with
  | some bytes => r.decode bytes
  | none => .error (.relation (.noRow h.block h.record r.name))

/-- Whether a record holds a row that meets the condition, if there is one. -/
def meets (r : Relation) (condition : Option Row) (bytes : ByteArray) :
    Except StorageError Bool :=
  match condition with
  | none => .ok true
  | some condition => do (← r.decode bytes).meets condition r.name

/-- The handles of the rows of a page that meet a condition. -/
def pageHandles (r : Relation) (condition : Option Row) (p : Heap.Page) :
    Except StorageError (List Handle) := do
  let records ← p.records.filterM fun record =>
    r.meets condition ((p.get? record).getD .empty)
  return records.map fun record => ⟨p.block, record⟩

/-- The handles of the rows that meet a condition, in the order of their places. -/
def handles (r : Relation) (fs : Files) (condition : Option Row) :
    Except StorageError (List Handle) := do
  let pages ← r.file.blocks.mapM fun block => do r.pageHandles condition (← r.file.get fs block)
  return pages.flatten

/-- Stores a complete row in the last block, or in a new one if there is no room for it. -/
def append (r : Relation) (fs : Files) (row : Row) :
    Except StorageError (Handle × Relation × Files) := do
  let bytes ← (Heap.encode r.columns row).mapError .relation
  let (page, file, fs) ←
    if r.file.last = 0 then r.file.grow fs
    else do pure (← r.file.get fs r.file.last, r.file, fs)
  let (page, file, fs) ←
    if page.hasRoom bytes.size then pure (page, file, fs) else file.grow fs
  let (record, page) ← page.add bytes
  let fs ← file.put fs page
  return (⟨page.block, record⟩, { r with file }, fs)

/-- Removes the row behind a handle. -/
def erase (r : Relation) (fs : Files) (h : Handle) : Except StorageError Files := do
  match (← r.file.get fs h.block).delete? h.record with
  | some page => r.file.put fs page
  | none => .error (.relation (.noRow h.block h.record r.name))

/-! ## Acts -/

/-- Opens the relation unless it is open. -/
def opening : Act StorageError Relation Unit :=
  .change fun r fs => do return ((), { r with file := ← r.file.opened fs }, fs)

/-- Closes the relation. -/
def close : Act StorageError Relation Unit := .update fun r => { r with file := r.file.closed }

/-- Makes the file of the relation, which must not be there. -/
def create : Act StorageError Relation Unit :=
  .change fun r fs => do
    let (file, fs) ← r.file.create fs
    return ((), { r with file }, fs)

/-- Makes the file of the relation if it is not there. -/
def createIfMissing : Act StorageError Relation Unit := do
  if ← .look fun r fs => .ok (r.file.exists? fs) then opening else create

/-- Removes the file of the relation. -/
def drop : Act StorageError Relation Unit := do
  .update fun r => { r with file := r.file.dropped }
  .change fun r fs => do return ((), r, ← r.file.remove fs)

/-- Stores a row, and returns its handle. -/
def insert (row : Row) : Act StorageError Relation Handle := do
  opening
  .change fun r fs => do r.append fs (← r.complete row)

/-- Removes the row behind a handle. -/
def delete (h : Handle) : Act StorageError Relation Unit := do
  opening
  .change fun r fs => do return ((), r, ← r.erase fs h)

/-- The handles of the rows that meet a condition; without one, of all. -/
def select (condition : Option Row) : Act StorageError Relation (List Handle) := do
  opening
  .look fun r fs => r.handles fs condition

/-- The row behind a handle, cut down to some columns; none at all stands for every column. -/
def project (h : Handle) (columns : List String) : Act StorageError Relation Row := do
  opening
  .look fun r fs => do (← r.row fs h).restrict r.name columns

/-- The rows that meet a condition, cut down to some columns. -/
def rows (condition : Option Row) (columns : List String) :
    Act StorageError Relation (List Row) := do
  (← select condition).mapM fun h => project h columns

/-- Those of the handles whose rows meet a condition. -/
def keep (condition : Row) (handles : List Handle) : Act StorageError Relation (List Handle) :=
  handles.filterM fun h => do
    let row ← project h []
    .look fun r _ => row.meets condition r.name

end Relation

end Rowbase
