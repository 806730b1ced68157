import Rowbase.Column
import Rowbase.Language.Statement
import Rowbase.Row

/-! # The catalog's relations

Three relations describe all relations and indices, themselves among them: one lists the tables,
one the columns of every table, and one the columns of every index. -/
namespace Rowbase.Schema

/-- The relation that lists every table. -/
def tables : String := "_tables"

/-- The relation that lists every column of every table. -/
def columns : String := "_columns"

/-- The relation that lists every column of every index. -/
def indices : String := "_indices"

/-- The names of the catalog's relations. -/
def names : List String := [tables, columns, indices]

/-- The columns of a relation of the catalog; any other has none here. -/
def columnsOf (relation : String) : List Column :=
  let text := fun name => (⟨name, { kind := .text }⟩ : Column)
  if relation = tables then [text "table_name"]
  else if relation = columns then
    [text "table_name", text "column_name", text "data_type"]
  else if relation = indices then
    [text "table_name", text "index_name", ⟨"seq_in_index", { kind := .int }⟩,
      text "column_name", text "index_type", ⟨"is_unique", { kind := .boolean }⟩]
  else []

/-- The row of a table, which is also the condition that finds the rows about it. -/
def tableRow (table : String) : Row := .ofList [("table_name", .text table)]

/-- The row of a column. -/
def columnRow (table column : String) (kind : Kind) : Row :=
  .ofList [("table_name", .text table), ("column_name", .text column),
    ("data_type", .text kind.name)]

/-- The row of a column of an index, at its place among them counted from 1. -/
def indexRow (table index : String) (place : Nat) (column : String)
    (kind : Language.IndexKind) : Row :=
  .ofList [("table_name", .text table), ("index_name", .text index),
    ("seq_in_index", .integer (Int32.ofNat place)), ("column_name", .text column),
    ("index_type", .text kind.name), ("is_unique", .boolean kind.isUnique)]

/-- The condition that finds the rows of an index. -/
def indexCondition (table index : String) : Row :=
  .ofList [("table_name", .text table), ("index_name", .text index)]

end Rowbase.Schema
