import Mathlib.Data.List.Induction
import Rowbase.Proofs.Query.Equations

/-! # Which expressions are no conditions

An expression is a condition just if its parts are equations of a column and a literal that stands for a value, and no
column is to have two values. Any other is refused for the first of its parts, from the left, that cannot be demanded
on top of those before it. -/
namespace Rowbase

open Rowbase.Language

/-- Why a literal stands for no value. -/
inductive Language.Literal.Unfit : Literal → Refusal → Prop
  /-- Integers have 32 bits. -/
  | outOfRange {n : Int} (h : n < -2147483648 ∨ 2147483647 < n) : Unfit (.integer n) (.integerOutOfRange n)
  /-- It is neither an integer nor a text. -/
  | unsupported {literal : Literal} (hn : ∀ n, literal ≠ .integer n) (hs : ∀ s, literal ≠ .text s) :
      Unfit literal (.unsupportedLiteral literal.written)

/-- Why a part of an expression cannot be demanded on top of some equations. -/
inductive Language.Expr.Offends (eqs : List (String × Value)) : Expr → Refusal → Prop
  /-- It is no equation of a column and a literal, with the column on the left. -/
  | unrecognized {part : Expr}
      (h : ∀ name literal, part ≠ .binary (.comparison .eq) (.column name) (.literal literal)) :
      Offends eqs part .unrecognizedExpression
  | unfit {name : String} {literal : Literal} {r : Refusal} (h : literal.Unfit r) :
      Offends eqs (.binary (.comparison .eq) (.column name) (.literal literal)) r
  /-- The column is to have another value already. -/
  | conflicting {name : String} {literal : Literal} {v w : Value} (hv : literal.Denotes v) (hm : (name, w) ∈ eqs)
      (hne : w ≠ v) :
      Offends eqs (.binary (.comparison .eq) (.column name) (.literal literal)) (.conflictingPredicate name)

/-- Why the first part of an expression that cannot be demanded cannot be. All parts before it are equations that go
together. -/
def Language.Expr.FirstOffends (e : Expr) (r : Refusal) : Prop :=
  ∃ before part behind eqs, e.conjuncts = before ++ part :: behind ∧ List.Forall₂ States before eqs ∧ Single eqs ∧
    part.Offends eqs r

theorem Single.append_one {eqs : List (String × Value)} {name : String} {v : Value} (hs : Single eqs)
    (h : ∀ w, (name, w) ∈ eqs → w = v) : Single (eqs ++ [(name, v)]) := by
  intro e he e' he' hname
  simp only [List.mem_append, List.mem_singleton] at he he'
  rcases he with he | rfl
  · rcases he' with he' | rfl
    · exact hs e he e' he' hname
    · cases hname
      exact h _ he
  · rcases he' with he' | rfl
    · cases hname
      exact (h _ he').symm
    · rfl

/-! ## Literals -/

theorem Language.Literal.value_eq_error_iff {literal : Literal} {r : Refusal} :
    literal.value = .error r ↔ literal.Unfit r := by
  have hbounds : Int32.minValue.toInt = -2147483648 ∧ Int32.maxValue.toInt = 2147483647 := by decide
  constructor
  · intro h
    unfold value at h
    split at h
    · rename_i n
      split at h
      · cases h
      · rename_i hrange
        cases h
        rw [hbounds.1, hbounds.2] at hrange
        exact .outOfRange (by omega)
    · cases h
    · rename_i hn hs
      cases h
      exact .unsupported hn hs
  · intro h
    unfold value
    cases h with
    | @outOfRange n h =>
      have hrange : ¬ (Int32.minValue.toInt ≤ n ∧ n ≤ Int32.maxValue.toInt) := by
        rw [hbounds.1, hbounds.2]
        omega
      exact if_neg hrange
    | unsupported hn hs =>
      split
      · exact absurd rfl (hn _)
      · exact absurd rfl (hs _)
      · rfl

/-! ## Parts -/

/-- The parts of an expression have no parentheses around them and no AND between others. -/
theorem Language.Expr.atomic_of_mem_conjuncts {e part : Expr} (h : part ∈ e.conjuncts) :
    (∀ inner, part ≠ .nested inner) ∧ ∀ left right, part ≠ .binary .and left right := by
  induction e with
  | nested e ih => exact ih h
  | binary op left right ihl ihr =>
    cases op with
    | and => exact (List.mem_append.1 h).elim ihl ihr
    | _ =>
      cases List.mem_singleton.1 h
      exact ⟨nofun, nofun⟩
  | _ =>
    cases List.mem_singleton.1 h
    exact ⟨nofun, nofun⟩

/-- A part offends some equations, or is one that goes together with them. -/
theorem Language.Expr.offends_or_states (part : Expr) {eqs : List (String × Value)} (hs : Single eqs) :
    (∃ r, part.Offends eqs r) ∨ ∃ eq, part.States eq ∧ Single (eqs ++ [eq]) := by
  by_cases hshape : ∃ name literal, part = .binary (.comparison .eq) (.column name) (.literal literal)
  · obtain ⟨name, literal, rfl⟩ := hshape
    cases hvalue : literal.value with
    | error r => exact .inl ⟨r, .unfit (Literal.value_eq_error_iff.1 hvalue)⟩
    | ok v =>
      have hv := Literal.value_eq_ok_iff.1 hvalue
      by_cases hconflict : ∃ w, (name, w) ∈ eqs ∧ w ≠ v
      · obtain ⟨w, hm, hne⟩ := hconflict
        exact .inl ⟨_, .conflicting hv hm hne⟩
      · refine .inr ⟨(name, v), .equation hv, hs.append_one ?_⟩
        intro w hm
        by_contra hne
        exact hconflict ⟨w, hm, hne⟩
  · refine .inl ⟨_, .unrecognized fun name literal h => hshape ⟨name, literal, h⟩⟩

/-- Some part offends, or all are equations that go together. By induction on the parts from the left, as each is
demanded on top of all before it. -/
theorem Language.Expr.firstOffends_or_equates (e : Expr) :
    (∃ r, e.FirstOffends r) ∨ ∃ eqs, e.Equates eqs ∧ Single eqs := by
  simp only [equates_iff, FirstOffends]
  induction e.conjuncts using List.reverseRecOn with
  | nil => exact .inr ⟨[], .nil, nofun⟩
  | append_singleton parts part ih =>
    rcases ih with ⟨r, before, first, behind, eqs, rfl, hstates, hs, hoffends⟩ | ⟨eqs, hstates, hs⟩
    · exact .inl ⟨r, before, first, behind ++ [part], eqs, by simp, hstates, hs, hoffends⟩
    · rcases part.offends_or_states hs with ⟨r, hoffends⟩ | ⟨eq, hstates', hs'⟩
      · exact .inl ⟨r, parts, part, [], eqs, rfl, hstates, hs, hoffends⟩
      · exact .inr ⟨eqs ++ [eq], List.rel_append hstates (.cons hstates' .nil), hs'⟩

namespace Row

variable {condition : Row} {e part : Expr} {eqs : List (String × Value)} {r : Refusal}

theorem AsksFor.demandExpr_of_offends (h : condition.AsksFor eqs) (hm : part ∈ e.conjuncts)
    (ho : part.Offends eqs r) : condition.demandExpr part = .error r := by
  cases ho with
  | unrecognized hshape =>
    obtain ⟨hnested, hand⟩ := Expr.atomic_of_mem_conjuncts hm
    unfold demandExpr
    split
    · exact absurd rfl (hnested _)
    · exact absurd rfl (hand _ _)
    · exact absurd rfl (hshape _ _)
    · rfl
  | unfit hunfit =>
    unfold demandExpr
    rw [Literal.value_eq_error_iff.2 hunfit]
    rfl
  | @conflicting name literal v w hv hm' hne =>
    have hnone : condition.demand? name v = none :=
      demand?_eq_none_iff (e := (name, v)) |>.2 ⟨w, (h.get?_iff name w).2 hm', hne⟩
    rw [demandExpr_equation condition name hv, hnone]

theorem ofExpr_of_firstOffends (h : e.FirstOffends r) : ofExpr e = .error r := by
  obtain ⟨before, part, behind, eqs, hparts, hstates, hs, hoffends⟩ := h
  obtain ⟨condition, hfold, hasks⟩ := asksFor_nothing.foldlM hstates hs
  have hm : part ∈ e.conjuncts := by
    rw [hparts]
    simp
  unfold ofExpr
  rw [demandExpr_eq_foldlM, hparts, List.foldlM_append, hfold]
  change (part :: behind).foldlM demandExpr condition = .error r
  rw [List.foldlM_cons, hasks.demandExpr_of_offends hm hoffends]
  rfl

/-- An expression is a condition just if it joins equations that go together. -/
theorem ofExpr_eq_ok_iff :
    ofExpr e = .ok condition ↔ ∃ eqs, e.Equates eqs ∧ Single eqs ∧ condition.entries = eqs.eraseDups := by
  constructor
  · intro h
    rcases e.firstOffends_or_equates with ⟨r, hoffends⟩ | ⟨eqs, hequates, hs⟩
    · rw [ofExpr_of_firstOffends hoffends] at h
      cases h
    · obtain ⟨condition', hok, hasks⟩ := ofExpr_of_single hequates hs
      rw [h] at hok
      cases hok
      exact ⟨eqs, hequates, hs, hasks.entries⟩
  · rintro ⟨eqs, hequates, hs, hentries⟩
    obtain ⟨condition', hok, hasks⟩ := ofExpr_of_single hequates hs
    rw [hok, Bindings.eq_of_entries (hasks.entries.trans hentries.symm)]

/-- Any other expression is refused for the first of its parts that cannot be demanded. -/
theorem ofExpr_eq_error_iff : ofExpr e = .error r ↔ e.FirstOffends r := by
  refine ⟨fun h => ?_, ofExpr_of_firstOffends⟩
  rcases e.firstOffends_or_equates with ⟨r', hoffends⟩ | ⟨eqs, hequates, hs⟩
  · rw [ofExpr_of_firstOffends hoffends] at h
    cases h
    exact hoffends
  · obtain ⟨condition, hok, -⟩ := ofExpr_of_single hequates hs
    rw [h] at hok
    cases hok

/-- The expressions that are conditions, each with what it asks for, and what each other is refused for. -/
theorem ofExpr_exact (e : Expr) :
    ((∃ condition, ofExpr e = .ok condition) ↔ ∃ eqs, e.Equates eqs ∧ Single eqs) ∧
      (∀ condition, ofExpr e = .ok condition ↔
        ∃ eqs, e.Equates eqs ∧ Single eqs ∧ condition.entries = eqs.eraseDups) ∧
      ∀ r, ofExpr e = .error r ↔ e.FirstOffends r := by
  refine ⟨⟨?_, ?_⟩, fun condition => ofExpr_eq_ok_iff, fun r => ofExpr_eq_error_iff⟩
  · rintro ⟨condition, hok⟩
    obtain ⟨eqs, hequates, hs, -⟩ := ofExpr_eq_ok_iff.1 hok
    exact ⟨eqs, hequates, hs⟩
  · rintro ⟨eqs, hequates, hs⟩
    obtain ⟨condition, hok, -⟩ := ofExpr_of_single hequates hs
    exact ⟨condition, hok⟩

/-- The expression `a = 1 AND (a = 2 AND b)` has two parts that offend, of which the first counts. -/
example : ofExpr (.binary .and (.binary (.comparison .eq) (.column "a") (.literal (.integer 1)))
    (.nested (.binary .and (.binary (.comparison .eq) (.column "a") (.literal (.integer 2))) (.column "b")))) =
      .error (.conflictingPredicate "a") := rfl

end Row

end Rowbase
