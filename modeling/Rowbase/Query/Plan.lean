import Rowbase.Row

/-! # Plans

How the rows of a statement are found: by reading a whole table, or through an index when the
condition asks for a value in each of its columns. Optimising a plan gathers the conditions that
stand above a table and then chooses the way to it; what the plan finds stays the same. -/
namespace Rowbase

/-- The name of an index and the columns of its key. -/
structure IndexOutline where
  name : String
  columns : List String
deriving DecidableEq

/-- A way to find rows. -/
inductive Plan where
  /-- All rows of a table. -/
  | scan (table : String)
  /-- The rows of a plan that meet a condition. -/
  | filter (condition : Row) (input : Plan)
  /-- The rows of a plan cut down to some columns. -/
  | project (columns : List String) (input : Plan)
  /-- The rows of a table that meet a condition, chosen while reading it. -/
  | filteredScan (table : String) (condition : Row)
  /-- The rows that an index has under a key, as far as they meet the rest of a condition. -/
  | indexLookup (table index : String) (key : Row) (residual : Option Row)
deriving DecidableEq

namespace Plan

/-- The table that a plan reads. -/
def table : Plan → String
  | scan table => table
  | filter _ input => input.table
  | project _ input => input.table
  | filteredScan table _ => table
  | indexLookup table _ _ _ => table

/-- Whether two plans are equal but for the order of the columns in their conditions. -/
def same : Plan → Plan → Bool
  | scan table, scan table' => table == table'
  | filter condition input, filter condition' input' =>
    condition.same condition' && input.same input'
  | project columns input, project columns' input' => columns == columns' && input.same input'
  | filteredScan table condition, filteredScan table' condition' =>
    table == table' && condition.same condition'
  | indexLookup table index key residual, indexLookup table' index' key' residual' =>
    table == table' && index == index' && key.same key' &&
      match residual, residual' with
      | none, none => true
      | some r, some r' => r.same r'
      | _, _ => false
  | _, _ => false

/-- The longer of two indices, the first if they are of one length. -/
def longer (a b : IndexOutline) : IndexOutline :=
  if a.columns.length < b.columns.length then b else a

/-- The first of the indices with the most columns. -/
def longest? : List IndexOutline → Option IndexOutline
  | [] => none
  | index :: rest => some (rest.foldl longer index)

/-- The best way to the rows of a table that meet a condition: through the longest index whose
columns are all bound, or by a scan. -/
def access (indices : List IndexOutline) (table : String) (condition : Row) : Plan :=
  match longest? (indices.filter fun i => !i.columns.isEmpty && condition.bindsAll i.columns) with
  | some index =>
    let rest := condition.without index.columns
    indexLookup table index.name (condition.pick index.columns)
      (if rest.size = 0 then none else some rest)
  | none => filteredScan table condition

/-- The condition under which an index lookup finds a row. -/
def lookupCondition (key : Row) : Option Row → Row
  | none => key
  | some residual => key.extend residual

/-- An optimised plan with a condition above it, joined to the plan's own if they do not
contradict each other. -/
def restrict (indices : List IndexOutline) (condition : Row) : Plan → Plan
  | scan table => access indices table condition
  | filteredScan table own => match own.merge? condition with
    | some merged => access indices table merged
    | none => filter condition (filteredScan table own)
  | indexLookup table index key residual =>
    match (lookupCondition key residual).merge? condition with
    | some merged => access indices table merged
    | none => filter condition (indexLookup table index key residual)
  | input => filter condition input

/-- The plan that finds the same rows in the best way. -/
def optimize (indices : List IndexOutline) : Plan → Plan
  | project columns input => project columns (input.optimize indices)
  | filter condition input => (input.optimize indices).restrict indices condition
  | plan => plan

end Plan

end Rowbase
