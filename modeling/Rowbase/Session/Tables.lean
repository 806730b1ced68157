import Rowbase.Answer
import Rowbase.Session.Change

/-! # Making and dropping tables and indices

The rows that describe a table or an index and the file that holds it come and go together. What
is made halfway is taken back; what is dropped halfway is not. -/
namespace Rowbase

/-- A storage error is a refusal of the statement that meets it. -/
instance : MonadLift (Act StorageError σ) (Act Refusal σ) := ⟨Act.adapt .storage⟩

/-- An answer that is only a message. -/
def Answer.ofMessage (message : String) : Answer := { message }

namespace Catalog

/-! ## Tables -/

/-- The declared columns as columns to be stored, after those already read. -/
def storableColumns (known : List Column) :
    List Language.ColumnDeclaration → Except Refusal (List Column)
  | [] => .ok known
  | c :: rest => match c.type.kind? with
    | none => .error (.unsupportedType c.type.written c.name)
    | some kind =>
      if known.any (·.name == c.name) then .error (.duplicateColumn c.name)
      else storableColumns (known ++ [⟨c.name, { kind }⟩]) rest

/-- Takes back what was done of making a table. -/
def unmakeTable (table : String) (log : List Change) : Act StorageError Catalog Unit := do
  forgetTable table
  rollBack log

/-- Inserts the rows of a table's columns after the changes in a log, and returns the log with
them. If one cannot be inserted, all is taken back. -/
def recordColumns (table : String) (log : List Change) :
    List Column → Act StorageError Catalog (List Change)
  | [] => pure log
  | c :: rest => do
    let row := Schema.columnRow table c.name c.domain.kind
    let h ← (onColumns (Relation.insert row)).onFailure (unmakeTable table log)
    recordColumns table (.inserted Schema.columns h :: log) rest

/-- Describes a table and makes its file. With `adopt`, a file that is there already is taken. -/
def makeTable (table : String) (columns : List Column) (adopt : Bool) :
    Act StorageError Catalog Unit := do
  let h ← (onTables (Relation.insert (Schema.tableRow table))).onFailure (unmakeTable table [])
  let log ← recordColumns table [.inserted Schema.tables h] columns
  (onRelation table (if adopt then Relation.createIfMissing else Relation.create)).onFailure
    (unmakeTable table log)

/-- Carries out CREATE TABLE. -/
def createTable (table : String) (declared : List Language.ColumnDeclaration)
    (ifNotExists : Bool) : Act Refusal Catalog Answer := do
  let columns ← .result (storableColumns [] declared)
  if ← tableExists table then
    if ifNotExists then return .ofMessage (Refusal.tableExists table).message
    else throw (.tableExists table)
  makeTable table columns ifNotExists
  return .ofMessage s!"created {table}"

/-- Removes the file of an index and forgets the index. -/
def removeIndex (table index : String) : Act StorageError Catalog Unit := do
  onIndex table index Index.drop
  forgetIndex table index

/-- Carries out DROP TABLE. The indices go first, then the columns, the file and the table. -/
def dropTable (table : String) : Act Refusal Catalog Answer := do
  if table ∈ Schema.names then throw .dropCatalogTable
  let handles ← tableHandles table
  if handles.isEmpty then throw (.tableMissing table)
  (← indexNames table).forM fun index => do
    removeIndex table index
    (← indexHandles table index).forM fun h => onIndices (Relation.delete h)
  let r ← detach table
  (← columnHandles table).forM fun h => onColumns (Relation.delete h)
  Relation.drop.within (fun _ => r) fun _ c => c
  handles.forM fun h => onTables (Relation.delete h)
  return .ofMessage s!"dropped {table}"

/-! ## Indices -/

/-- Carries out DROP INDEX. -/
def dropIndex (index table : String) : Act Refusal Catalog Answer := do
  let handles ← indexHandles table index
  if handles.isEmpty then throw (.indexMissing index table)
  removeIndex table index
  handles.forM fun h => onIndices (Relation.delete h)
  return .ofMessage s!"dropped index {index} from {table}"

/-- Checks the columns of an index against those of its table and against each other, after some
that were checked before. -/
def checkIndexColumns (index table : String) (known checked : List String) :
    List String → Except Refusal Unit
  | [] => .ok ()
  | column :: rest =>
    if column ∉ known then .error (.noSuchColumn column table)
    else if column ∈ checked then .error (.duplicateIndexColumn column index)
    else checkIndexColumns index table known (checked ++ [column]) rest

/-- Describes an index and makes it of the rows of its table. -/
def makeIndex (index table : String) (columns : List String) (kind : Language.IndexKind) :
    Act StorageError Catalog Unit := do
  (columns.zipIdx 1).forM fun (column, place) =>
    discard (onIndices (Relation.insert (Schema.indexRow table index place column kind)))
  let handles ← onRelation table (Relation.select none)
  let entries ← handles.mapM fun h => do
    return (h, ← onRelation table (Relation.project h columns))
  onIndex table index (Index.create entries)

/-- Carries out CREATE INDEX. An index that cannot be made is dropped. -/
def createIndex (index table : String) (columns : List String) (kind : Language.IndexKind) :
    Act Refusal Catalog Answer := do
  if table ∈ Schema.names then throw (.indexCatalogTable table)
  unless ← tableExists table do throw (.tableMissing table)
  let known ← columnsOf table
  .result (checkIndexColumns index table (known.map Column.name) [] columns)
  unless (← indexHandles table index).isEmpty do throw (.indexExists index table)
  ((makeIndex index table columns kind).adapt .storage).onFailure
    (discard (dropIndex index table))
  return .ofMessage s!"created index {index}"

end Catalog

end Rowbase
