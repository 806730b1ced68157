import Rowbase.Column
import Rowbase.Row

/-! # Answers

What a statement answers: a message, and for statements that ask for rows a table of them. -/
namespace Rowbase

/-- Rows, the names of the columns to show of them, and the domains of these columns. -/
structure Table where
  names : List String
  domains : List Domain
  rows : List Row

/-- The answer to a statement. -/
structure Answer where
  message : String
  table : Option Table := none

/-- Texts with a blank behind each, as a line. -/
def spacedLine (texts : List String) : String := String.join (texts.map (· ++ " ")) ++ "\n"

/-- The line under the heading, with a dash of fixed width for each column. -/
def Table.rule (t : Table) : String :=
  "+" ++ String.join (t.names.map fun _ => "----------+") ++ "\n"

/-- The line of a row; a column that the row does not bind is shown as NULL. -/
def Table.line (t : Table) (row : Row) : String :=
  spacedLine (t.names.map fun name => ((row.get? name).getD .null).shown)

/-- The heading, the line under it, and a line for each row. -/
def Table.text (t : Table) : String :=
  spacedLine t.names ++ t.rule ++ String.join (t.rows.map t.line)

/-- The table, if there is one, and the message under it. -/
def Answer.text (a : Answer) : String := (a.table.elim "" Table.text) ++ a.message

end Rowbase
