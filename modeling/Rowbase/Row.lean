import Rowbase.Bindings
import Rowbase.Error

/-! # Rows

A row binds columns to values. A row also serves as a condition: the values that another row must
have in its columns. -/
namespace Rowbase

/-- The values of some columns, in the order in which they were given. -/
abbrev Row := Bindings String Value

/-- Whether two values are equal for a condition. NULL is equal to nothing, and values of two
kinds cannot be compared. -/
def Value.agrees (a b : Value) : Except StorageError Bool :=
  match a.kind?, b.kind? with
  | none, _ | _, none => .ok false
  | some k, some k' => if k = k' then .ok (a == b) else .error (.typeMismatch k k')

namespace Row

/-- The value of a column, which `owner` must have. -/
def value (row : Row) (owner column : String) : Except StorageError Value :=
  match row.get? column with
  | some v => .ok v
  | none => .error (.unknownColumn column owner)

/-- Whether the row has the wanted values, looked at in turn up to the first that differs. -/
def hasAll (row : Row) (owner : String) : List (String × Value) → Except StorageError Bool
  | [] => .ok true
  | (column, wanted) :: rest => do
    if ← (← row.value owner column).agrees wanted then row.hasAll owner rest else pure false

/-- Whether the row meets a condition. -/
def meets (row condition : Row) (owner : String) : Except StorageError Bool :=
  row.hasAll owner condition.entries

/-- The values of the columns, in their order. -/
def valuesOf (row : Row) (owner : String) (columns : List String) :
    Except StorageError (List Value) :=
  columns.mapM (row.value owner)

/-- The row cut down to some columns, in their order; none at all stands for every column. -/
def restrict (row : Row) (owner : String) : List String → Except StorageError Row
  | [] => .ok row
  | columns => do return .ofList (columns.zip (← row.valuesOf owner columns))

/-- The condition that also asks for `value` in a column, unless it asks for another there. -/
def demand? (condition : Row) (column : String) (value : Value) : Option Row :=
  match condition.get? column with
  | none => some (condition.insert column value)
  | some value' => if value' = value then some condition else none

/-- Both conditions in one, unless they ask for different values in a column. -/
def merge? (a b : Row) : Option Row := b.entries.foldlM (fun c e => c.demand? e.1 e.2) a

/-- Whether the row binds every one of the columns. -/
def bindsAll (row : Row) (columns : List String) : Bool :=
  columns.all fun column => (row.get? column).isSome

/-- The bindings of some columns, in their order. -/
def pick (row : Row) (columns : List String) : Row :=
  .ofList (columns.filterMap fun column => (row.get? column).map (column, ·))

/-- The bindings of the other columns. -/
def without (row : Row) (columns : List String) : Row := columns.foldl Bindings.erase row

end Row

end Rowbase
