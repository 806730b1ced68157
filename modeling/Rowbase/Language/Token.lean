import Rowbase.Decimal.Shortest
import Rowbase.Text.Capitals

/-! # Tokens

The words and signs of the statement language. Keywords are told from names by their capitals;
each token has one text, which is how messages show it. -/
namespace Rowbase.Language

/-- The reserved words. -/
inductive Keyword where
  | CREATE | DROP | TABLE | INDEX | SHOW | TABLES | COLUMNS
  | SELECT | INSERT | UPDATE | DELETE | INTO | VALUES | SET | FROM | WHERE
  | AND | OR | NOT | ON | USING | IF | EXISTS
  | UNIQUE | NULL
  | INT | INTEGER | BIGINT | SMALLINT | FLOAT | DOUBLE | VARCHAR | CHAR | TEXT
  | BOOLEAN | BOOL | DATE | TIMESTAMP
  | TRUE | FALSE
deriving DecidableEq

namespace Keyword

/-- Every keyword. -/
def all : List Keyword :=
  [CREATE, DROP, TABLE, INDEX, SHOW, TABLES, COLUMNS, SELECT, INSERT, UPDATE, DELETE, INTO, VALUES,
    SET, FROM, WHERE, AND, OR, NOT, ON, USING, IF, EXISTS, UNIQUE, NULL, INT, INTEGER, BIGINT,
    SMALLINT, FLOAT, DOUBLE, VARCHAR, CHAR, TEXT, BOOLEAN, BOOL, DATE, TIMESTAMP, TRUE, FALSE]

/-- The keyword in capitals. -/
def text : Keyword → String
  | CREATE => "CREATE"
  | DROP => "DROP"
  | TABLE => "TABLE"
  | INDEX => "INDEX"
  | SHOW => "SHOW"
  | TABLES => "TABLES"
  | COLUMNS => "COLUMNS"
  | SELECT => "SELECT"
  | INSERT => "INSERT"
  | UPDATE => "UPDATE"
  | DELETE => "DELETE"
  | INTO => "INTO"
  | VALUES => "VALUES"
  | SET => "SET"
  | FROM => "FROM"
  | WHERE => "WHERE"
  | AND => "AND"
  | OR => "OR"
  | NOT => "NOT"
  | ON => "ON"
  | USING => "USING"
  | IF => "IF"
  | EXISTS => "EXISTS"
  | UNIQUE => "UNIQUE"
  | NULL => "NULL"
  | INT => "INT"
  | INTEGER => "INTEGER"
  | BIGINT => "BIGINT"
  | SMALLINT => "SMALLINT"
  | FLOAT => "FLOAT"
  | DOUBLE => "DOUBLE"
  | VARCHAR => "VARCHAR"
  | CHAR => "CHAR"
  | TEXT => "TEXT"
  | BOOLEAN => "BOOLEAN"
  | BOOL => "BOOL"
  | DATE => "DATE"
  | TIMESTAMP => "TIMESTAMP"
  | TRUE => "TRUE"
  | FALSE => "FALSE"

/-- The keyword that a word is in capitals. -/
def ofWord? (word : String) : Option Keyword := do
  let capitals ← Text.capitals? word
  all.find? (·.text == capitals)

theorem mem_all (k : Keyword) : k ∈ all := by
  cases k <;> decide

end Keyword

/-- The signs that compare two operands. -/
inductive Comparison where
  | eq
  | neq
  | lt
  | gt
  | le
  | ge
deriving DecidableEq

/-- The sign; inequality has two spellings and is written as the first. -/
def Comparison.text : Comparison → String
  | eq => "="
  | neq => "<>"
  | lt => "<"
  | gt => ">"
  | le => "<="
  | ge => ">="

/-- A word or sign of a statement. -/
inductive Token where
  | keyword (k : Keyword)
  | integer (n : Int)
  | float (x : Decimal.Binary64)
  /-- A text in single quotes. -/
  | text (s : String)
  /-- The name of a table, column or index. -/
  | name (s : String)
  | comparison (op : Comparison)
  | asterisk
  | leftParen
  | rightParen
  | comma
  | semicolon
deriving DecidableEq

namespace Token

/-- How a token is shown. Quotes inside a text are not doubled. -/
def shown : Token → String
  | keyword k => k.text
  | integer n => toString n
  | float x => x.text
  | text s => "'" ++ s ++ "'"
  | name s => s
  | comparison op => op.text
  | asterisk => "*"
  | leftParen => "("
  | rightParen => ")"
  | comma => ","
  | semicolon => ";"

def isKeyword : Token → Bool
  | keyword _ => true
  | _ => false

end Token

end Rowbase.Language
