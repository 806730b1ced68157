/-! # Values

What a row holds in a column: an integer of 32 bits, a text, a truth value, or NULL, which has no
kind. Values of all kinds stand in one total order, in which kinds come first and NULL least. -/
namespace Rowbase

/-- The kinds of value that a column can be declared for. -/
inductive Kind where
  | int
  | text
  | boolean
deriving DecidableEq

namespace Kind

/-- The name of the kind, as stored in the catalog. -/
def name : Kind → String
  | int => "INT"
  | text => "TEXT"
  | boolean => "BOOLEAN"

/-- The kind of a name, in exactly the catalog's spelling. -/
def ofName? (s : String) : Option Kind := [int, text, boolean].find? (·.name == s)

@[simp] theorem ofName?_name (k : Kind) : ofName? k.name = some k := by
  cases k <;> decide

/-- The name of a value's kind, where a value without one is NULL. -/
def nameOrNull : Option Kind → String
  | none => "NULL"
  | some k => k.name

end Kind

/-- A value stored in a row. -/
inductive Value where
  | null
  | integer (n : Int32)
  | text (s : String)
  | boolean (b : Bool)
deriving DecidableEq

namespace Value

instance : Inhabited Value := ⟨null⟩

/-- The kind of a value; NULL has none. -/
def kind? : Value → Option Kind
  | null => none
  | integer _ => some .int
  | text _ => some .text
  | boolean _ => some .boolean

/-- The name of the value's kind. -/
def typeName (v : Value) : String := Kind.nameOrNull v.kind?

def isNull (v : Value) : Bool := v == null

/-- The integer, if it is one. -/
def int? : Value → Option Int32
  | integer n => some n
  | _ => none

/-- The text, if it is one. -/
def text? : Value → Option String
  | text s => some s
  | _ => none

/-- The truth value, if it is one. -/
def bool? : Value → Option Bool
  | boolean b => some b
  | _ => none

/-- How a value is shown: integers in decimal, texts in double quotes with nothing escaped, truth
values as words, NULL as question marks. -/
def shown : Value → String
  | integer n => toString n.toInt
  | text s => "\"" ++ s ++ "\""
  | boolean b => if b then "true" else "false"
  | null => "???"

/-- The place of a value's kind in the order of values. -/
def rank : Value → Nat
  | null => 0
  | boolean _ => 1
  | integer _ => 2
  | text _ => 3

/-- The order of values of one kind. Texts are ordered by their characters. -/
def compareWithin : Value → Value → Ordering
  | integer a, integer b => Ord.compare a b
  | text a, text b => Ord.compare a b
  | boolean a, boolean b => Ord.compare a b
  | _, _ => .eq

/-- The order of values: by kind, then within the kind. -/
protected def compare (a b : Value) : Ordering :=
  (Ord.compare a.rank b.rank).then (compareWithin a b)

theorem compareWithin_swap : ∀ a b : Value, compareWithin a b = (compareWithin b a).swap
  | integer a, integer b => (Std.OrientedOrd.eq_swap : Ord.compare a b = _)
  | text a, text b => (Std.OrientedOrd.eq_swap : Ord.compare a b = _)
  | boolean a, boolean b => (Std.OrientedOrd.eq_swap : Ord.compare a b = _)
  | null, _ => by simp [compareWithin]
  | _, null => by simp [compareWithin]
  | integer _, text _ | integer _, boolean _ | text _, integer _ | text _, boolean _
  | boolean _, integer _ | boolean _, text _ => rfl

theorem compareWithin_trans : ∀ {a b c : Value}, a.rank = b.rank → b.rank = c.rank →
    (compareWithin a b).isLE → (compareWithin b c).isLE → (compareWithin a c).isLE
  | integer a, integer _, integer c, _, _, h₁, h₂ =>
    (Std.TransOrd.isLE_trans h₁ h₂ : (Ord.compare a c).isLE)
  | text a, text _, text c, _, _, h₁, h₂ =>
    (Std.TransOrd.isLE_trans h₁ h₂ : (Ord.compare a c).isLE)
  | boolean a, boolean _, boolean c, _, _, h₁, h₂ =>
    (Std.TransOrd.isLE_trans h₁ h₂ : (Ord.compare a c).isLE)
  | null, _, _, _, _, _, _ => rfl

theorem eq_of_compareWithin : ∀ {a b : Value}, a.rank = b.rank → compareWithin a b = .eq → a = b
  | integer _, integer _, _, h => congrArg integer (Std.LawfulEqOrd.eq_of_compare h)
  | text _, text _, _, h => congrArg text (Std.LawfulEqOrd.eq_of_compare h)
  | boolean _, boolean _, _, h => congrArg boolean (Std.LawfulEqOrd.eq_of_compare h)
  | null, null, _, _ => rfl

instance : Std.OrientedCmp Value.compare where
  eq_swap {a b} := by
    rw [Value.compare, Value.compare, Ordering.swap_then, ← compareWithin_swap,
      ← Std.OrientedOrd.eq_swap]

instance : Std.TransCmp Value.compare where
  isLE_trans {a b c} h₁ h₂ := by
    simp only [Value.compare, Ordering.isLE_then_iff_or, Nat.compare_eq_lt,
      Nat.compare_eq_eq] at h₁ h₂ ⊢
    rcases h₁ with h₁ | ⟨h₁, h₁'⟩ <;> rcases h₂ with h₂ | ⟨h₂, h₂'⟩
    · exact .inl (by omega)
    · exact .inl (by omega)
    · exact .inl (by omega)
    · exact .inr ⟨by omega, compareWithin_trans h₁ h₂ h₁' h₂'⟩

instance : Std.LawfulEqCmp Value.compare where
  eq_of_compare {a b} h := by
    simp only [Value.compare, Ordering.then_eq_eq, Nat.compare_eq_eq] at h
    exact eq_of_compareWithin h.1 h.2

end Value

end Rowbase
