import Rowbase.Query.Condition
import Rowbase.Query.Run
import Rowbase.Session.Tables

/-! # Inserting, deleting and selecting rows

A row that is inserted goes into its table and then into each index of it; if one of them refuses
it, it is taken out of all that have it. -/
namespace Rowbase.Catalog

/-- The end of a message about a table with indices. -/
def withIndices (count : Nat) : String := if count = 0 then "" else s!" and {count} indices"

/-- Refuses a table that is not listed. -/
def checkListed (table : String) : Act Refusal Catalog Unit := do
  unless ← tableExists table do throw (.unknownTable table)

/-- Refuses the catalog's own tables. -/
def checkWritable (table : String) : Act Refusal Catalog Unit := do
  if table ∈ Schema.names then throw (.modifyCatalogTable table)

/-- The condition of a statement, all of whose columns the table must have. -/
def conditionOf (table : String) : Option Language.Expr → Act Refusal Catalog (Option Row)
  | none => pure none
  | some e => do
    let condition ← .result (Row.ofExpr e)
    discard (onRelation table (.look fun r _ => r.pickColumns condition.keys))
    return some condition

/-- The rows of a table that meet a condition. -/
def planFor (table : String) : Option Row → Plan
  | none => .scan table
  | some condition => .filter condition (.scan table)

/-! ## Inserting -/

/-- A row with further values, each of a column of its own. -/
def giveValues (row : Row) : List (String × Language.Expr) → Except Refusal Row
  | [] => .ok row
  | (column, .literal l) :: rest => do
    let v ← l.value
    if (row.get? column).isSome then .error (.duplicateColumn column)
    else giveValues (row.insert column v) rest
  | (_, e) :: _ => .error (.unsupportedValue e.written)

/-- Adds a stored row to indices, after the changes in a log. If one refuses it, all is undone. -/
def indexRow (table : String) (h : Handle) (stored : Row) (log : List Change) :
    List String → Act StorageError Catalog Unit
  | [] => pure ()
  | index :: rest => do
    (onIndex table index (Index.insert h stored)).onFailure (rollBack log)
    indexRow table h stored (.indexed table index h stored :: log) rest

/-- Inserts a row into a table and its indices, as it is stored. -/
def insertRow (table : String) (row : Row) (indices : List String) :
    Act StorageError Catalog Unit := do
  let h ← onRelation table (Relation.insert row)
  let log := [.inserted table h]
  let stored ← (onRelation table (Relation.project h [])).onFailure (rollBack log)
  indexRow table h stored log indices

/-- Carries out INSERT. -/
def insert (table : String) (columns : Option (List String)) (values : List Language.Expr) :
    Act Refusal Catalog Answer := do
  checkWritable table
  checkListed table
  let columns ← match columns with
    | some columns => pure columns
    | none => do pure ((← columnsOf table).map Column.name)
  unless columns.length = values.length do throw (.valueCount values.length columns.length)
  let row ← .result (giveValues .empty (columns.zip values))
  let indices ← indexNames table
  insertRow table row indices
  return .ofMessage s!"successfully inserted 1 row into {table}{withIndices indices.length}"

/-! ## Deleting -/

/-- Takes a row out of indices and then out of its table. -/
def deleteRow (table : String) (indices : List String) (h : Handle) :
    Act StorageError Catalog Unit := do
  let row ← onRelation table (Relation.project h [])
  indices.forM fun index => onIndex table index (Index.delete h row)
  onRelation table (Relation.delete h)

/-- Carries out DELETE. -/
def delete (table : String) (condition : Option Language.Expr) : Act Refusal Catalog Answer := do
  checkWritable table
  checkListed table
  let condition ← conditionOf table condition
  let indices ← indexOutlines table
  let handles ← ((planFor table condition).optimize indices).find
  handles.forM (deleteRow table (indices.map IndexOutline.name) ·)
  return .ofMessage (s!"successfully deleted {handles.length} rows from {table}" ++
    withIndices indices.length)

/-! ## Selecting -/

/-- An answer with rows. -/
def answerRows (columns : List Column) (rows : List Row) : Answer where
  message := s!"successfully returned {rows.length} rows"
  table := some ⟨columns.map Column.name, columns.map Column.domain, rows⟩

/-- Carries out SELECT. -/
def select (what : Language.Selection) (table : String) (condition : Option Language.Expr) :
    Act Refusal Catalog Answer := do
  checkListed table
  let names ← match what with
    | .all => do pure ((← columnsOf table).map Column.name)
    | .columns names => pure names
  let columns ← onRelation table (.look fun r _ => r.pickColumns names)
  let condition ← conditionOf table condition
  let indices ← indexOutlines table
  let plan := (Plan.project names (planFor table condition)).optimize indices
  return answerRows columns (← plan.evaluate).2

/-! ## Listing -/

/-- Whether a row lists a table that is not the catalog's own. -/
def listsUserTable (row : Row) : Bool :=
  match (row.get? "table_name").bind Value.text? with
  | some table => table ∉ Schema.names
  | none => true

/-- Carries out SHOW TABLES, which leaves the catalog's own tables out. -/
def showTables : Act Refusal Catalog Answer := do
  let columns := Schema.columnsOf Schema.tables
  let rows ← onTables (Relation.rows none (columns.map Column.name))
  return answerRows columns (rows.filter listsUserTable)

/-- Carries out SHOW COLUMNS, of one table or of all. -/
def showColumns (table : Option String) : Act Refusal Catalog Answer := do
  let columns := Schema.columnsOf Schema.columns
  let rows ← onColumns (Relation.rows (table.map Schema.tableRow) (columns.map Column.name))
  return answerRows columns rows

/-- Carries out SHOW INDEX. -/
def showIndex (table : String) : Act Refusal Catalog Answer := do
  let columns := Schema.columnsOf Schema.indices
  let rows ← onIndices (Relation.rows (some (Schema.tableRow table)) (columns.map Column.name))
  return answerRows columns rows

end Rowbase.Catalog
