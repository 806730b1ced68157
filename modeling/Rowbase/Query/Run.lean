import Rowbase.Catalog.Basic

/-! # Running plans

A plan is run down to the handles of the rows that it finds, and then the rows are read. -/
namespace Rowbase.Plan

/-- Whether every value of a key lies in the domain of its column. -/
def keyFits (key : Row) : Act StorageError Relation Bool :=
  .look fun r _ => do
    let columns ← r.pickColumns key.keys
    return (columns.zip key.values).all fun (column, v) => column.domain.accepts v

/-- The handles of the rows that a plan finds. A key that does not fit the index's columns is
looked for by reading the table, where it meets the values that it cannot be compared with. -/
def find : Plan → Act StorageError Catalog (List Handle)
  | scan table => Catalog.onRelation table (Relation.select none)
  | filteredScan table condition => Catalog.onRelation table (Relation.select (some condition))
  | filter condition input => do
    let handles ← input.find
    Catalog.onRelation input.table (Relation.keep condition handles)
  | project _ input => input.find
  | indexLookup table index key residual => do
    if ← Catalog.onRelation table (keyFits key) then
      let handles ← Catalog.onIndex table index (Index.lookup key)
      match residual with
      | some residual => Catalog.onRelation table (Relation.keep residual handles)
      | none => return handles
    else Catalog.onRelation table (Relation.select (some (lookupCondition key residual)))

/-- The names of the columns that a plan returns. -/
def outputColumns : Plan → Relation → List String
  | project columns _, _ => columns
  | _, r => r.columnNames

/-- The names of the columns that a plan returns, and the rows that it finds. -/
def evaluate (p : Plan) : Act StorageError Catalog (List String × List Row) := do
  let handles ← p.find
  Catalog.onRelation p.table do
    let columns ← .look fun r _ => .ok (p.outputColumns r)
    return (columns, ← handles.mapM fun h => Relation.project h columns)

end Rowbase.Plan
