import Rowbase.Catalog.Schema
import Rowbase.Index.Basic
import Rowbase.Location
import Rowbase.Query.Plan

/-! # The catalog

What is known of all relations and indices: the three relations that describe them, and those of
the others that were used so far. A relation or an index is used by its name; the first time, it is
made from its description. -/
namespace Rowbase

/-- The catalog of a database. -/
structure Catalog where
  location : Location
  tables : Relation
  columns : Relation
  indices : Relation
  /-- The tables used so far. -/
  relations : Bindings String Relation := .empty
  /-- The indices used so far, by table and name. -/
  indexes : Bindings (String × String) Index := .empty

namespace Catalog

/-- The catalog at a place, before anything is used. -/
def blank (location : Location) : Catalog :=
  let relation := fun name =>
    Relation.describe name (Schema.columnsOf name) (location.relationPath name)
  { location, tables := relation Schema.tables, columns := relation Schema.columns,
    indices := relation Schema.indices }

/-! ## The describing relations -/

def onTables (x : Act StorageError Relation α) : Act StorageError Catalog α :=
  x.within tables fun r c => { c with tables := r }

def onColumns (x : Act StorageError Relation α) : Act StorageError Catalog α :=
  x.within columns fun r c => { c with columns := r }

def onIndices (x : Act StorageError Relation α) : Act StorageError Catalog α :=
  x.within indices fun r c => { c with indices := r }

/-- The text in a column of a describing row. -/
def textCell (row : Row) (column : String) : Except StorageError String :=
  match (row.get? column).bind Value.text? with
  | some s => .ok s
  | none => .error (.relation (.malformedCell column))

/-- The rows that list a table. -/
def tableHandles (table : String) : Act StorageError Catalog (List Handle) :=
  onTables (Relation.select (some (Schema.tableRow table)))

/-- Whether a table is listed. -/
def tableExists (table : String) : Act StorageError Catalog Bool := do
  return !(← tableHandles table).isEmpty

/-- The rows that describe the columns of a table. -/
def columnHandles (table : String) : Act StorageError Catalog (List Handle) :=
  onColumns (Relation.select (some (Schema.tableRow table)))

/-- The column that a row describes. -/
def columnOf (row : Row) : Except StorageError Column := do
  let name ← textCell row "column_name"
  let type ← textCell row "data_type"
  match Kind.ofName? type with
  | some kind => return ⟨name, { kind }⟩
  | none => .error (.relation (.unknownKind type))

/-- The columns of a table, in the order of their rows. -/
def columnsOf (table : String) : Act StorageError Catalog (List Column) := do
  (← columnHandles table).mapM fun h => do .result (columnOf (← onColumns (Relation.project h [])))

/-- The rows that describe the indices of a table. -/
def tableIndexHandles (table : String) : Act StorageError Catalog (List Handle) :=
  onIndices (Relation.select (some (Schema.tableRow table)))

/-- The rows that describe an index. -/
def indexHandles (table index : String) : Act StorageError Catalog (List Handle) :=
  onIndices (Relation.select (some (Schema.indexCondition table index)))

/-- The names of the indices of a table, sorted. -/
def indexNames (table : String) : Act StorageError Catalog (List String) := do
  let names ← (← tableIndexHandles table).mapM fun h => do
    .result (textCell (← onIndices (Relation.project h ["index_name"])) "index_name")
  return names.eraseDups.mergeSort fun a b => decide (a ≤ b)

/-- What a row says of a column of an index: its place, its name and whether the index is
unique. -/
def indexPartOf (row : Row) : Except StorageError (Int32 × String × Bool) := do
  match (row.get? "seq_in_index").bind Value.int? with
  | none => .error (.relation .malformedPosition)
  | some place =>
    let unique := ((row.get? "is_unique").bind Value.bool?).getD false
    return (place, ← textCell row "column_name", unique)

/-- The columns of an index in their order, and whether it is unique. The last row decides. -/
def indexDefinition (table index : String) : Act StorageError Catalog (List String × Bool) := do
  let parts ← (← indexHandles table index).mapM fun h => do
    .result (indexPartOf (← onIndices (Relation.project h [])))
  let sorted := parts.mergeSort fun a b =>
    ((compare a.1 b.1).then (compare a.2.1 b.2.1)).isLE
  return (sorted.map (·.2.1), (parts.getLast?.map (·.2.2)).getD false)

/-- The indices of a table with their columns, sorted by name. -/
def indexOutlines (table : String) : Act StorageError Catalog (List IndexOutline) := do
  (← indexNames table).mapM fun name => do
    return ⟨name, (← indexDefinition table name).1⟩

/-! ## Tables -/

/-- The table of a name as it is known, made from its description if it is not. -/
def remember (table : String) : Act StorageError Catalog Relation := do
  match (← Act.thing).relations.get? table with
  | some r => return r
  | none =>
    let columns ← columnsOf table
    if columns.isEmpty then throw (.relation (.relationMissing table))
    .change fun c fs =>
      let r := Relation.describe table columns (c.location.relationPath table)
      .ok (r, { c with relations := c.relations.insert table r }, fs)

/-- An act on the relation of a name. -/
def onRelation (table : String) (x : Act StorageError Relation α) :
    Act StorageError Catalog α :=
  if table = Schema.tables then onTables x
  else if table = Schema.columns then onColumns x
  else if table = Schema.indices then onIndices x
  else do
    let r ← remember table
    x.within (fun _ => r) fun r c => { c with relations := c.relations.insert table r }

/-- Forgets what is known of a table. -/
def forgetTable (table : String) : Act StorageError Catalog Unit :=
  .update fun c => { c with relations := c.relations.erase table }

/-- The table of a name, which is forgotten. The catalog's own relations stay. -/
def detach (table : String) : Act StorageError Catalog Relation := do
  if table ∈ Schema.names then throw (.relation (.catalogRelation table))
  let r ← remember table
  forgetTable table
  return r

/-! ## Indices -/

/-- The index of a name as it is known, made from its description if it is not. -/
def rememberIndex (table index : String) : Act StorageError Catalog Index := do
  match (← Act.thing).indexes.get? (table, index) with
  | some ix => return ix
  | none =>
    let (columns, unique) ← indexDefinition table index
    if columns.isEmpty then throw (.relation (.indexMissing index table))
    .change fun c fs =>
      let ix : Index :=
        { table, name := index, columns, unique, path := c.location.indexPath table index }
      .ok (ix, { c with indexes := c.indexes.insert (table, index) ix }, fs)

/-- An act on the index of a name. -/
def onIndex (table index : String) (x : Act StorageError Index α) :
    Act StorageError Catalog α := do
  let ix ← rememberIndex table index
  x.within (fun _ => ix) fun ix c => { c with indexes := c.indexes.insert (table, index) ix }

/-- Forgets what is known of an index. -/
def forgetIndex (table index : String) : Act StorageError Catalog Unit :=
  .update fun c => { c with indexes := c.indexes.erase (table, index) }

/-! ## Setting up -/

/-- Describes the catalog's own relations. -/
def describeItself : Act StorageError Catalog Unit :=
  Schema.names.forM fun name => do
    discard (onTables (Relation.insert (Schema.tableRow name)))
    (Schema.columnsOf name).forM fun column => do
      discard (onColumns (Relation.insert (Schema.columnRow name column.name column.domain.kind)))

/-- Makes the directory where it is missing. -/
def makeDirectory : Act StorageError Catalog Unit := fun s =>
  match s.2.makeDirectories s.1.location.directory with
  | (r, fs) => (r.mapError .file, s.1, fs)

/-- Makes the directory and the describing relations where they are missing. A catalog that lists
no table is taken to be new, and describes itself. -/
def setUp : Act StorageError Catalog Unit := do
  makeDirectory
  onTables Relation.createIfMissing
  onColumns Relation.createIfMissing
  onIndices Relation.createIfMissing
  if (← onTables (Relation.select none)).isEmpty then describeItself

end Catalog

end Rowbase
