import Rowbase.Proofs.Query.Optimize
import Rowbase.Query.Condition

/-! # Conditions as equations

An expression that joins equations by AND, in whatever parentheses, is the condition that asks for all of them,
as long as no column is to have two values. -/
namespace Rowbase

open Rowbase.Language

/-- What a literal stands for in a condition: a text itself, an integer the number of 32 bits that it is. -/
inductive Language.Literal.Denotes : Literal → Value → Prop
  | text (s : String) : Denotes (.text s) (.text s)
  | integer (n : Int32) : Denotes (.integer n.toInt) (.integer n)

/-- Whether an expression joins by AND some equations of a column and a value. -/
inductive Language.Expr.Equates : Expr → List (String × Value) → Prop
  | equation {name : String} {literal : Literal} {v : Value} (hv : literal.Denotes v) :
      Equates (.binary (.comparison .eq) (.column name) (.literal literal)) [(name, v)]
  | and {left right : Expr} {eqs eqs' : List (String × Value)} (hl : left.Equates eqs) (hr : right.Equates eqs') :
      Equates (.binary .and left right) (eqs ++ eqs')
  | nested {e : Expr} {eqs : List (String × Value)} (he : e.Equates eqs) : Equates (.nested e) eqs

/-- Whether the condition of a statement, if there is one, joins some equations. -/
def Language.Demands (condition : Option Expr) (eqs : List (String × Value)) : Prop :=
  condition.elim (eqs = []) (·.Equates eqs)

/-- Whether equations ask a column of some for a value of its kind, and no column for two. -/
structure Agreeable (columns : List Column) (eqs : List (String × Value)) : Prop where
  fits : ∀ e ∈ eqs, ∃ column ∈ columns, column.name = e.1 ∧ e.2.kind? = some column.domain.kind
  single : ∀ e ∈ eqs, ∀ e' ∈ eqs, e.1 = e'.1 → e.2 = e'.2

theorem agreeable_iff {columns : List Column} {eqs : List (String × Value)} : Agreeable columns eqs ↔
    (∀ e ∈ eqs, ∃ column ∈ columns, column.name = e.1 ∧ e.2.kind? = some column.domain.kind) ∧
      ∀ e ∈ eqs, ∀ e' ∈ eqs, e.1 = e'.1 → e.2 = e'.2 :=
  ⟨fun h => ⟨h.fits, h.single⟩, fun ⟨hf, hs⟩ => ⟨hf, hs⟩⟩

instance (columns : List Column) (eqs : List (String × Value)) : Decidable (Agreeable columns eqs) :=
  decidable_of_iff' _ agreeable_iff

/-- Whether all equations hold of a row. -/
def Row.solves (row : Row) (eqs : List (String × Value)) : Bool := eqs.all fun e => row.get? e.1 = some e.2

theorem Language.Literal.Denotes.value_eq {literal : Literal} {v : Value} (h : literal.Denotes v) :
    literal.value = .ok v := by
  cases h with
  | text s => rfl
  | integer n =>
    rw [Literal.value, if_pos ⟨Int32.minValue_le_toInt n, Int32.toInt_le n⟩, Int32.ofInt_toInt]

/-- Just texts and integers of 32 bits have a value. -/
theorem Language.Literal.value_eq_ok_iff {literal : Literal} {v : Value} :
    literal.value = .ok v ↔ literal.Denotes v := by
  refine ⟨fun h => ?_, Denotes.value_eq⟩
  cases literal with
  | integer n =>
    rw [Literal.value] at h
    split at h
    · rename_i hrange
      cases h
      have hn : (Int32.ofInt n).toInt = n := Int32.toInt_ofInt_of_le hrange.1 (Int.lt_add_one_of_le hrange.2)
      have hdenotes := Denotes.integer (Int32.ofInt n)
      rwa [hn] at hdenotes
    · cases h
  | text s =>
    cases h
    exact .text s
  | null | boolean b | float x => cases h

/-! ## The parts of a condition -/

/-- The parts of an expression that AND joins, in whatever parentheses, from left to right. -/
def Language.Expr.conjuncts : Expr → List Expr
  | .nested e => e.conjuncts
  | .binary .and left right => left.conjuncts ++ right.conjuncts
  | e => [e]

/-- Whether an expression is an equation of a column and a value. -/
inductive Language.Expr.States : Expr → String × Value → Prop
  | equation {name : String} {literal : Literal} {v : Value} (hv : literal.Denotes v) :
      States (.binary (.comparison .eq) (.column name) (.literal literal)) (name, v)

theorem Language.Expr.equates_of_states {part : Expr} {eqs : List (String × Value)}
    (h : List.Forall₂ States [part] eqs) : part.Equates eqs := by
  obtain ⟨eq, rest, hstates, hnil, rfl⟩ := List.forall₂_cons_left_iff.1 h
  cases hnil
  cases hstates with
  | equation hv => exact .equation hv

/-- An expression joins equations just if they are what its parts state. -/
theorem Language.Expr.equates_iff {e : Expr} {eqs : List (String × Value)} :
    e.Equates eqs ↔ List.Forall₂ States e.conjuncts eqs := by
  constructor
  · intro h
    induction h with
    | equation hv => exact .cons (.equation hv) .nil
    | and hl hr ihl ihr => exact forall₂_append_left_iff.2 ⟨_, _, ihl, ihr, rfl⟩
    | nested he ih => exact ih
  · intro h
    induction e generalizing eqs with
    | nested e ih => exact .nested (ih h)
    | binary op left right ihl ihr =>
      cases op with
      | and =>
        obtain ⟨front, back, hfront, hback, rfl⟩ := forall₂_append_left_iff.1 h
        exact .and (ihl hfront) (ihr hback)
      | _ => exact equates_of_states h
    | _ => exact equates_of_states h

/-- Whether no column is to have two values. -/
def Single (eqs : List (String × Value)) : Prop := ∀ e ∈ eqs, ∀ e' ∈ eqs, e.1 = e'.1 → e.2 = e'.2

theorem Single.of_append {eqs eqs' : List (String × Value)} (h : Single (eqs ++ eqs')) : Single eqs := by
  intro e he e' he'
  exact h e (List.mem_append_left _ he) e' (List.mem_append_left _ he')

namespace Row

variable {condition : Row} {e : Expr} {eqs eqs' : List (String × Value)} {columns : List Column}

/-- Whether a condition asks just for some equations, for each column where it first occurs in them. -/
structure AsksFor (condition : Row) (eqs : List (String × Value)) : Prop where
  entries : condition.entries = eqs.eraseDups
  single : Single eqs

theorem asksFor_nothing : AsksFor .empty [] := ⟨rfl, nofun⟩

theorem AsksFor.get?_iff (h : condition.AsksFor eqs) (name : String) (v : Value) :
    condition.get? name = some v ↔ (name, v) ∈ eqs := by
  rw [Bindings.get?_eq_some_iff, h.entries, List.mem_eraseDups]

theorem bindEntry_of_not_mem {name : String} {v : Value} {entries : List (String × Value)}
    (h : name ∉ entries.map Prod.fst) : bindEntry name v entries = entries ++ [(name, v)] := by
  induction entries with
  | nil => rfl
  | cons e entries ih =>
    simp only [List.map_cons, List.mem_cons, not_or] at h
    unfold bindEntry
    rw [if_neg (Ne.symm h.1), ih h.2]
    rfl

/-- A value that is demanded is asked for last, unless it was asked for before. -/
theorem AsksFor.demand? (h : condition.AsksFor eqs) {name : String} {v : Value} (hs : Single (eqs ++ [(name, v)])) :
    ∃ condition', condition.demand? name v = some condition' ∧ condition'.AsksFor (eqs ++ [(name, v)]) := by
  unfold Row.demand?
  cases hget : condition.get? name with
  | none =>
    have hnew : (name, v) ∉ eqs := by
      rw [← h.get?_iff, hget]
      exact nofun
    refine ⟨_, rfl, ?_, hs⟩
    have hfree : name ∉ condition.entries.map Prod.fst := (Bindings.get?_eq_none_iff _ _).1 hget
    rw [List.eraseDups_append, ← h.entries]
    simpa [Bindings.insert, List.removeAll, List.eraseDups_cons, hnew] using bindEntry_of_not_mem hfree
  | some w =>
    have hm : (name, w) ∈ eqs := (h.get?_iff name w).1 hget
    have hw : w = v := hs _ (List.mem_append_left _ hm) _ (List.mem_append_right _ (.head _)) rfl
    subst hw
    refine ⟨condition, if_pos rfl, ?_, hs⟩
    rw [List.eraseDups_append, ← h.entries]
    simp [List.removeAll, hm]

theorem demandExpr_equation (condition : Row) (name : String) {literal : Literal} {v : Value}
    (hv : literal.Denotes v) :
    condition.demandExpr (.binary (.comparison .eq) (.column name) (.literal literal)) =
      match condition.demand? name v with
      | some condition' => .ok condition'
      | none => .error (.conflictingPredicate name) := by
  unfold demandExpr
  rw [hv.value_eq]
  rfl

/-- An expression demands what its parts do, one after the other. -/
theorem demandExpr_eq_foldlM (condition : Row) (e : Expr) :
    condition.demandExpr e = e.conjuncts.foldlM demandExpr condition := by
  have hsingle : ∀ (condition : Row) (part : Expr),
      condition.demandExpr part = [part].foldlM demandExpr condition := by
    intro condition part
    rw [List.foldlM_cons]
    cases condition.demandExpr part <;> rfl
  induction e generalizing condition with
  | nested e ih =>
    unfold demandExpr Expr.conjuncts
    exact ih condition
  | binary op left right ihl ihr =>
    cases op with
    | and =>
      unfold demandExpr Expr.conjuncts
      simp only [List.foldlM_append, ihl, ihr]
    | _ => exact hsingle condition _
  | _ => exact hsingle condition _

/-- Equations are demanded in turn, as long as no column is to have two values. By induction on the parts; what is
asked for already grows by the equation of each. -/
theorem AsksFor.foldlM (h : condition.AsksFor eqs) {parts : List Expr} (hstates : List.Forall₂ Expr.States parts eqs')
    (hs : Single (eqs ++ eqs')) :
    ∃ condition', parts.foldlM demandExpr condition = .ok condition' ∧ condition'.AsksFor (eqs ++ eqs') := by
  induction hstates generalizing condition eqs with
  | nil =>
    rw [List.append_nil]
    exact ⟨condition, rfl, h⟩
  | @cons part eq parts others hpart _ ih =>
    have hassoc : eqs ++ eq :: others = eqs ++ [eq] ++ others := by simp
    rw [hassoc] at hs ⊢
    cases hpart with
    | equation hv =>
      obtain ⟨condition', hdemand, hasks⟩ := h.demand? hs.of_append
      rw [List.foldlM_cons, demandExpr_equation condition _ hv, hdemand]
      exact ih hasks hs

/-- An expression that joins equations is the condition that asks for them, if no column is to have two values. -/
theorem ofExpr_of_single (h : e.Equates eqs) (hs : Single eqs) :
    ∃ condition, ofExpr e = .ok condition ∧ condition.AsksFor eqs := by
  unfold ofExpr
  rw [demandExpr_eq_foldlM]
  exact asksFor_nothing.foldlM (Expr.equates_iff.1 h) hs

/-- The condition that equations make asks for just these. -/
theorem ofExpr_of_equates (h : e.Equates eqs) (ha : Agreeable columns eqs) :
    ∃ condition, ofExpr e = .ok condition ∧
      ∀ name v, condition.get? name = some v ↔ (name, v) ∈ eqs := by
  obtain ⟨condition, hof, hasks⟩ := ofExpr_of_single h ha.single
  exact ⟨condition, hof, hasks.get?_iff⟩

theorem fitsColumns_of_agreeable (ha : Agreeable columns eqs) (hnodup : (columns.map Column.name).Nodup)
    (hget : ∀ name v, condition.get? name = some v ↔ (name, v) ∈ eqs) : condition.FitsColumns columns := by
  intro name v hv
  obtain ⟨column, hm, hn, hkind⟩ := ha.fits _ ((hget name v).1 hv)
  refine ⟨List.mem_map.2 ⟨column, hm, hn⟩, fun other ho hname => .inr ?_⟩
  rw [List.inj_on_of_nodup_map hnodup ho hm (hname.trans hn.symm)]
  exact hkind

/-- A row satisfies the condition that equations make just if they hold of it. -/
theorem satisfies_eq_solves (ha : Agreeable columns eqs)
    (hget : ∀ name v, condition.get? name = some v ↔ (name, v) ∈ eqs) (row : Row) :
    row.satisfies condition = row.solves eqs := by
  rw [Bool.eq_iff_iff, satisfies_iff, solves, List.all_eq_true]
  constructor
  · rintro h ⟨name, v⟩ hm
    exact decide_eq_true (h name v ((hget name v).2 hm)).2
  · intro h name v hv
    have hm := (hget name v).1 hv
    obtain ⟨column, -, -, hkind⟩ := ha.fits _ hm
    refine ⟨?_, of_decide_eq_true (h (name, v) hm)⟩
    rintro rfl
    cases hkind

end Row

end Rowbase
