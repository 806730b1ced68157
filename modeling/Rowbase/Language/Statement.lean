import Rowbase.Language.Expr
import Rowbase.Value

/-! # Statements

What can be asked of the database, and how each statement is written. -/
namespace Rowbase.Language

/-- The type of a column as it is declared. -/
inductive DeclaredType where
  | boolean
  | smallInt
  | integer
  | bigInt
  | float
  | double
  | char (size : Nat)
  | varchar (size : Nat)
  | text
  | date
  | timestamp
deriving DecidableEq

namespace DeclaredType

def written : DeclaredType → String
  | boolean => "BOOLEAN"
  | smallInt => "SMALLINT"
  | integer => "INT"
  | bigInt => "BIGINT"
  | float => "FLOAT"
  | double => "DOUBLE"
  | char size => s!"CHAR({size})"
  | varchar size => s!"VARCHAR({size})"
  | text => "TEXT"
  | date => "DATE"
  | timestamp => "TIMESTAMP"

/-- The kind of value that a column of this type holds; most types can be declared but not
stored. -/
def kind? : DeclaredType → Option Kind
  | integer => some .int
  | text => some .text
  | boolean => some .boolean
  | _ => none

end DeclaredType

/-- The declaration of a column. -/
structure ColumnDeclaration where
  name : String
  type : DeclaredType
  notNull : Bool
deriving DecidableEq

def ColumnDeclaration.written (c : ColumnDeclaration) : String :=
  c.name ++ " " ++ c.type.written ++ if c.notNull then " NOT NULL" else ""

/-- How an index stores its keys: an ordered one holds each key once, a hashed one does not
mind. -/
inductive IndexKind where
  | btree
  | hash
deriving DecidableEq

namespace IndexKind

/-- The name of the kind, as stored in the catalog. -/
def name : IndexKind → String
  | btree => "BTREE"
  | hash => "HASH"

/-- Whether no two rows may have the same key. -/
def isUnique : IndexKind → Bool
  | btree => true
  | hash => false

/-- The kind whose name the word is in capitals. -/
def ofName? (word : String) : Option IndexKind := do
  let capitals ← Text.capitals? word
  [btree, hash].find? (·.name == capitals)

end IndexKind

/-- What a selection asks of every row. -/
inductive Selection where
  /-- All columns of the table. -/
  | all
  | columns (names : List String)
deriving DecidableEq

/-- A statement. -/
inductive Statement where
  | select (what : Selection) (table : String) (condition : Option Expr)
  | insert (table : String) (columns : Option (List String)) (values : List Expr)
  | update (table : String) (assignments : List (String × Expr)) (condition : Option Expr)
  | delete (table : String) (condition : Option Expr)
  | createTable (table : String) (columns : List ColumnDeclaration) (ifNotExists : Bool)
  | dropTable (table : String)
  | createIndex (index table : String) (columns : List String) (kind : IndexKind)
  | dropIndex (index table : String)
  | showTables
  | showColumns (table : Option String)
  | showIndex (table : String)
deriving DecidableEq

/-- Texts one after the other with commas between them. -/
def commaSeparated (texts : List String) : String := ", ".intercalate texts

def Selection.written : Selection → String
  | all => "*"
  | columns names => commaSeparated names

/-- The condition of a statement, behind the word that starts it. -/
def writtenCondition : Option Expr → String
  | some e => " WHERE " ++ e.written
  | none => ""

/-- A statement as it is written, with its keywords in capitals and its names as they are. -/
def Statement.written : Statement → String
  | select what table condition =>
    "SELECT " ++ what.written ++ " FROM " ++ table ++ writtenCondition condition
  | insert table columns values =>
    "INSERT INTO " ++ table ++ " " ++
      (match columns with
        | some names => "(" ++ commaSeparated names ++ ") "
        | none => "") ++
      "VALUES (" ++ commaSeparated (values.map Expr.written) ++ ")"
  | update table assignments condition =>
    "UPDATE " ++ table ++ " SET " ++
      commaSeparated (assignments.map fun a => a.1 ++ " = " ++ a.2.written) ++
      writtenCondition condition
  | delete table condition => "DELETE FROM " ++ table ++ writtenCondition condition
  | createTable table columns ifNotExists =>
    "CREATE TABLE " ++ (if ifNotExists then "IF NOT EXISTS " else "") ++ table ++ " (" ++
      commaSeparated (columns.map ColumnDeclaration.written) ++ ")"
  | dropTable table => "DROP TABLE " ++ table
  | createIndex index table columns kind =>
    "CREATE INDEX " ++ index ++ " ON " ++ table ++ " USING " ++ kind.name ++ " (" ++
      commaSeparated columns ++ ")"
  | dropIndex index table => "DROP INDEX " ++ index ++ " FROM " ++ table
  | showTables => "SHOW TABLES"
  | showColumns (some table) => "SHOW COLUMNS FROM " ++ table
  | showColumns none => "SHOW COLUMNS"
  | showIndex table => "SHOW INDEX FROM " ++ table

end Rowbase.Language
