import Rowbase.Value

/-! # Columns

A column has a name and a domain: the kind of its values and whether NULL is one of them. -/
namespace Rowbase

/-- Which values a column can hold. -/
structure Domain where
  kind : Kind
  nullable : Bool := true
deriving DecidableEq

/-- Whether a value lies in the domain. -/
def Domain.accepts (d : Domain) (v : Value) : Bool :=
  match v.kind? with
  | none => d.nullable
  | some kind => kind == d.kind

/-- A column of a relation or of an answer. -/
structure Column where
  name : String
  domain : Domain
deriving DecidableEq

end Rowbase
