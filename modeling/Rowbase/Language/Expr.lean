import Rowbase.Language.Token

/-! # Expressions

The conditions and values of statements. Parentheses are kept in the tree, and a binary operator
is written between its operands without any of its own, so the text of an expression has exactly
the tokens it was read from. -/
namespace Rowbase.Language

/-- A value written in a statement. -/
inductive Literal where
  | null
  | boolean (b : Bool)
  | integer (n : Int)
  | float (x : Decimal.Binary64)
  | text (s : String)
deriving DecidableEq

/-- The text in single quotes, with its own quotes doubled. -/
def quoted (s : String) : String :=
  "'" ++ String.ofList (s.toList.flatMap fun c => if c = '\'' then [c, c] else [c]) ++ "'"

/-- A literal as it is written. -/
def Literal.written : Literal → String
  | null => "NULL"
  | boolean b => if b then "TRUE" else "FALSE"
  | integer n => toString n
  | float x => x.text
  | text s => quoted s

/-- What combines two expressions. -/
inductive Operator where
  | comparison (op : Comparison)
  | and
  | or
deriving DecidableEq

namespace Operator

def written : Operator → String
  | comparison op => op.text
  | and => "AND"
  | or => "OR"

/-- How tightly an operator binds; the tighter one is applied first. -/
def precedence : Operator → Nat
  | or => 1
  | and => 2
  | comparison _ => 3

end Operator

/-- An expression. -/
inductive Expr where
  | column (name : String)
  | literal (l : Literal)
  | binary (op : Operator) (left right : Expr)
  | not (e : Expr)
  /-- An expression in parentheses. -/
  | nested (e : Expr)
deriving DecidableEq

/-- An expression as it is written; names are not quoted. -/
def Expr.written : Expr → String
  | column name => name
  | literal l => l.written
  | binary op left right => left.written ++ " " ++ op.written ++ " " ++ right.written
  | not e => "NOT " ++ e.written
  | nested e => "(" ++ e.written ++ ")"

end Rowbase.Language
