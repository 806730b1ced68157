import Rowbase.Language.Expr
import Rowbase.Row

/-! # Conditions

Of all expressions, a condition can be made only from equations of a column and a literal, joined
by AND. It asks each column for at most one value. -/
namespace Rowbase

/-- The value that a literal stands for. Only integers of 32 bits and texts are stored. -/
def Language.Literal.value : Language.Literal → Except Refusal Value
  | .integer n =>
    if Int32.minValue.toInt ≤ n ∧ n ≤ Int32.maxValue.toInt then .ok (.integer (Int32.ofInt n))
    else .error (.integerOutOfRange n)
  | .text s => .ok (.text s)
  | l => .error (.unsupportedLiteral l.written)

/-- The condition with that of an expression added to it. -/
def Row.demandExpr (condition : Row) : Language.Expr → Except Refusal Row
  | .nested e => condition.demandExpr e
  | .binary .and left right => do (← condition.demandExpr left).demandExpr right
  | .binary (.comparison .eq) (.column column) (.literal l) => do
    match condition.demand? column (← l.value) with
    | some condition => pure condition
    | none => .error (.conflictingPredicate column)
  | _ => .error .unrecognizedExpression

/-- The condition that an expression is. -/
def Row.ofExpr (e : Language.Expr) : Except Refusal Row := Row.demandExpr .empty e

end Rowbase
