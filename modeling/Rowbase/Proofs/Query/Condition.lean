import Mathlib.Tactic.Common
import Rowbase.Heap.Relation
import Rowbase.Proofs.Walks
import Rowbase.Query.Plan

/-! # What a condition asks for

A condition that fits the columns of a table is met by a row just if the row has all its values, none
of them NULL. Joining two conditions asks for both; cutting one in two and putting it together again
asks for the same. -/
namespace Rowbase

/-- Whether an error says that values of two kinds cannot be compared. -/
def StorageError.IsMismatch : StorageError → Prop
  | .typeMismatch _ _ => True
  | _ => False

namespace Row

variable {row condition : Row} {columns : List Column} {owner : String}

/-- Whether a row has the values of a condition, none of which is NULL. -/
def satisfies (row condition : Row) : Bool :=
  condition.entries.all fun e => decide (e.2 ≠ .null ∧ row.get? e.1 = some e.2)

theorem satisfies_iff : row.satisfies condition = true ↔
    ∀ column v, condition.get? column = some v → v ≠ .null ∧ row.get? column = some v := by
  rw [satisfies, List.all_eq_true]
  constructor
  · intro h column v hv
    exact of_decide_eq_true (h (column, v) ((Bindings.get?_eq_some_iff _ _ _).1 hv))
  · intro h e he
    exact decide_eq_true (h e.1 e.2 ((Bindings.get?_eq_some_iff _ _ _).2 he))

/-- Two conditions that bind the same columns to the same values are satisfied by the same rows. -/
theorem satisfies_congr {condition' : Row}
    (h : ∀ column, condition.get? column = condition'.get? column) :
    row.satisfies condition = row.satisfies condition' := by
  refine Bool.eq_iff_iff.2 ?_
  rw [satisfies_iff, satisfies_iff]
  simp only [h]

/-- Whether all that a condition asks for is of a sort. -/
def Binds (B : String → Value → Prop) (condition : Row) : Prop :=
  ∀ name v, condition.get? name = some v → B name v

/-- Whether a value is for a column of a table: NULL, or one of the column's kind. -/
def Fitting (columns : List Column) (name : String) (v : Value) : Prop :=
  name ∈ columns.map Column.name ∧
    ∀ c ∈ columns, c.name = name → v.kind? = none ∨ v.kind? = some c.domain.kind

/-- Whether a condition binds only columns of a table, each to NULL or a value of the column's
kind. -/
def FitsColumns (condition : Row) (columns : List Column) : Prop :=
  ∀ name v, condition.get? name = some v → name ∈ columns.map Column.name ∧
    ∀ c ∈ columns, c.name = name → v.kind? = none ∨ v.kind? = some c.domain.kind

theorem FitsColumns.binds {condition : Row} {columns : List Column} (h : condition.FitsColumns columns) :
    condition.Binds (Fitting columns) := h

theorem fitsColumns_iff {condition : Row} {columns : List Column} : condition.FitsColumns columns ↔
    ∀ e ∈ condition.entries, e.1 ∈ columns.map Column.name ∧
      ∀ c ∈ columns, c.name = e.1 → e.2.kind? = none ∨ e.2.kind? = some c.domain.kind :=
  ⟨fun h e he => h e.1 e.2 ((Bindings.get?_eq_some_iff _ _ _).2 he),
    fun h name v hv => h (name, v) ((Bindings.get?_eq_some_iff _ _ _).1 hv)⟩

instance (condition : Row) (columns : List Column) : Decidable (condition.FitsColumns columns) :=
  decidable_of_iff' _ fitsColumns_iff

/-- Whether a row has a value for each column of a table, of the column's kind if it is not NULL. -/
def Stored (row : Row) (columns : List Column) : Prop :=
  ∀ name ∈ columns.map Column.name, ∃ v, row.get? name = some v ∧
    ∃ c ∈ columns, c.name = name ∧ (v.kind? = none ∨ v.kind? = some c.domain.kind)

theorem agrees_of_kinds {v wanted : Value} {k : Kind} (hv : v.kind? = none ∨ v.kind? = some k)
    (hw : wanted.kind? = none ∨ wanted.kind? = some k) :
    v.agrees wanted = .ok (decide (wanted ≠ .null ∧ v = wanted)) := by
  have hnull : ∀ u : Value, u.kind? = none ↔ u = .null := by
    intro u
    cases u <;> simp [Value.kind?]
  rw [Value.agrees]
  rcases hw with hw | hw
  · rw [hw]
    have hnot : ¬ (wanted ≠ .null ∧ v = wanted) := fun h => h.1 ((hnull wanted).1 hw)
    rw [decide_eq_false hnot]
    split <;> simp_all
  · have hne : wanted ≠ .null := by
      intro h
      rw [(hnull wanted).2 h] at hw
      cases hw
    rcases hv with hv | hv
    · rw [hv]
      have hnot : ¬ (wanted ≠ .null ∧ v = wanted) := by
        rintro ⟨-, rfl⟩
        rw [hv] at hw
        cases hw
      rw [decide_eq_false hnot]
    · rw [hv, hw]
      dsimp only
      rw [if_pos rfl]
      refine congrArg Except.ok (Bool.eq_iff_iff.2 ?_)
      rw [beq_iff_eq, decide_eq_true_iff]
      exact (and_iff_right hne).symm

/-- Values of two kinds are not compared. All others are equal or not. -/
theorem agrees_yields (v wanted : Value) :
    Yields StorageError.IsMismatch (v.agrees wanted) (decide (wanted ≠ .null ∧ v = wanted)) := by
  by_cases hk : v.kind? = none ∨ wanted.kind? = none ∨ v.kind? = wanted.kind?
  · refine .ok ?_
    rcases hk with hv | hw | hk
    · cases hw : wanted.kind? with
      | none => exact agrees_of_kinds (k := .int) (.inl hv) (.inl hw)
      | some k => exact agrees_of_kinds (.inl hv) (.inr hw)
    · cases hv : v.kind? with
      | none => exact agrees_of_kinds (k := .int) (.inl hv) (.inl hw)
      | some k => exact agrees_of_kinds (.inr hv) (.inl hw)
    · cases hw : wanted.kind? with
      | none => exact agrees_of_kinds (k := .int) (.inl (hk.trans hw)) (.inl hw)
      | some k => exact agrees_of_kinds (.inr (hk.trans hw)) (.inr hw)
  · rw [not_or, not_or] at hk
    obtain ⟨hv, hw, hk⟩ := hk
    obtain ⟨k, hv⟩ := Option.ne_none_iff_exists'.1 hv
    obtain ⟨k', hw⟩ := Option.ne_none_iff_exists'.1 hw
    refine .error (e := .typeMismatch (some k) (some k')) trivial ?_
    rw [hv, hw, Option.some_inj] at hk
    rw [Value.agrees, hv, hw]
    exact if_neg hk

/-- A row meets a condition just if it has its values, as far as its values can be compared with these. -/
theorem meets_yields {E : StorageError → Prop} (h : ∀ e ∈ condition.entries, ∃ v, row.get? e.1 = some v ∧
    Yields E (v.agrees e.2) (decide (e.2 ≠ .null ∧ v = e.2))) :
    Yields E (row.meets condition owner) (row.satisfies condition) := by
  rw [meets, satisfies]
  generalize condition.entries = entries at h
  induction entries with
  | nil => exact .ok rfl
  | cons e entries ih =>
    obtain ⟨v, hv, ha⟩ := h e (.head _)
    have hvalue : row.value owner e.1 = .ok v := by rw [value, hv]
    have hdec : decide (e.2 ≠ .null ∧ row.get? e.1 = some e.2) = decide (e.2 ≠ .null ∧ v = e.2) :=
      decide_eq_decide.2 (by rw [hv, Option.some_inj])
    rw [hasAll, List.all_cons, hvalue, hdec]
    refine (Yields.ok rfl).bind (ha.bind ?_)
    split
    · rename_i heq
      rw [heq, Bool.true_and]
      exact ih fun e' he' => h e' (.tail _ he')
    · rename_i hne
      rw [Bool.eq_false_iff.2 hne, Bool.false_and]
      exact .ok rfl

/-- A stored row meets a fitting condition just if it has its values. -/
theorem meets_eq (hs : row.Stored columns) (hc : condition.FitsColumns columns) :
    row.meets condition owner = .ok (row.satisfies condition) := by
  refine yields_false_iff.1 (meets_yields fun e he => ?_)
  obtain ⟨hname, hkind⟩ := hc e.1 e.2 ((Bindings.get?_eq_some_iff _ _ _).2 he)
  obtain ⟨v, hv, c, hcm, hcn, hck⟩ := hs e.1 hname
  exact ⟨v, hv, .ok (agrees_of_kinds hck (hkind c hcm hcn))⟩

/-- A stored row meets a condition on its columns just if it has its values, unless values of two kinds are
compared. -/
theorem meets_yields_of_named (hs : row.Stored columns)
    (hc : condition.Binds fun name _ => name ∈ columns.map Column.name) :
    Yields StorageError.IsMismatch (row.meets condition owner) (row.satisfies condition) := by
  refine meets_yields fun e he => ?_
  obtain ⟨v, hv, -⟩ := hs e.1 (hc e.1 e.2 ((Bindings.get?_eq_some_iff _ _ _).2 he))
  exact ⟨v, hv, agrees_yields v e.2⟩

/-! ## Joining conditions -/

/-- What is asked for once something more is demanded. -/
theorem get?_demand {c c' : Row} {e : String × Value} (h : c.demand? e.1 e.2 = some c') (column : String)
    (v : Value) : c'.get? column = some v ↔ c.get? column = some v ∨ (column, v) = e := by
  obtain ⟨name, w⟩ := e
  rw [demand?] at h
  split at h
  · rename_i hg
    cases h
    rw [Bindings.get?_insert]
    by_cases he : column = name
    · subst he
      rw [if_pos rfl, hg]
      simp [eq_comm]
    · rw [if_neg he]
      simp [he]
  · rename_i w' hg
    split at h
    · rename_i hw
      cases h
      dsimp only at hg hw
      subst hw
      refine ⟨.inl, ?_⟩
      rintro (h | h)
      · exact h
      · cases h
        exact hg
    · cases h

theorem get?_foldlM_demand : ∀ (entries : List (String × Value)) {c m : Row},
    entries.foldlM (fun c e => c.demand? e.1 e.2) c = some m →
      ∀ column v, m.get? column = some v ↔ c.get? column = some v ∨ (column, v) ∈ entries
  | [], c, m, h => by
    cases h
    simp
  | e :: entries, c, m, h => by
    rw [List.foldlM_cons] at h
    obtain ⟨c', hd, h⟩ := Option.bind_eq_some_iff.1 h
    intro column v
    rw [get?_foldlM_demand entries h, List.mem_cons, get?_demand hd, or_assoc]

/-- Whether two conditions ask a column for different values. -/
def Clashes (a b : Row) : Prop :=
  ∃ column v w, a.get? column = some v ∧ b.get? column = some w ∧ v ≠ w

theorem demand?_eq_none_iff {e : String × Value} :
    condition.demand? e.1 e.2 = none ↔ ∃ v, condition.get? e.1 = some v ∧ v ≠ e.2 := by
  unfold demand?
  cases hv : condition.get? e.1 with
  | none => simp
  | some v => simp

/-- Demands are refused just if one of them is for another value than was asked for before them all: each is for a
column of its own, so that they do not contradict each other. -/
theorem foldlM_demand_eq_none_iff {entries : List (String × Value)} (hnodup : (entries.map Prod.fst).Nodup) :
    entries.foldlM (fun c e => c.demand? e.1 e.2) condition = none ↔
      ∃ e ∈ entries, ∃ v, condition.get? e.1 = some v ∧ v ≠ e.2 := by
  induction entries generalizing condition with
  | nil => simp
  | cons e entries ih =>
    obtain ⟨hnew, hnodup⟩ := List.nodup_cons.1 hnodup
    rw [List.foldlM_cons, List.exists_mem_cons_iff, ← demand?_eq_none_iff]
    cases hdemand : condition.demand? e.1 e.2 with
    | none => simp
    | some joined =>
      have hkept : ∀ e' ∈ entries, ∀ v, joined.get? e'.1 = some v ↔ condition.get? e'.1 = some v := by
        intro e' hm v
        have hother : e'.1 ∈ entries.map Prod.fst := List.mem_map_of_mem hm
        rw [get?_demand hdemand]
        refine or_iff_left ?_
        rintro rfl
        exact hnew hother
      change entries.foldlM (fun c e => c.demand? e.1 e.2) joined = none ↔ _
      simp only [ih hnodup, reduceCtorEq, false_or]
      constructor
      · rintro ⟨e', hm, v, hv, hne⟩
        exact ⟨e', hm, v, (hkept e' hm v).1 hv, hne⟩
      · rintro ⟨e', hm, v, hv, hne⟩
        exact ⟨e', hm, v, (hkept e' hm v).2 hv, hne⟩

/-- Two conditions cannot be joined just if they clash. -/
theorem merge?_eq_none_iff {a b : Row} : a.merge? b = none ↔ a.Clashes b := by
  unfold merge? Clashes
  rw [foldlM_demand_eq_none_iff b.distinct]
  constructor
  · rintro ⟨e, hm, v, hv, hne⟩
    exact ⟨e.1, v, e.2, hv, (Bindings.get?_eq_some_iff _ _ _).2 hm, hne⟩
  · rintro ⟨column, v, w, hv, hw, hne⟩
    exact ⟨(column, w), (Bindings.get?_eq_some_iff _ _ _).1 hw, v, hv, hne⟩

/-- A joined condition is satisfied just if both are. -/
theorem satisfies_merge {a b m : Row} (h : a.merge? b = some m) :
    row.satisfies m = (row.satisfies a && row.satisfies b) := by
  have hm := get?_foldlM_demand b.entries h
  refine Bool.eq_iff_iff.2 ?_
  rw [Bool.and_eq_true, satisfies_iff, satisfies_iff, satisfies_iff]
  constructor
  · intro hs
    exact ⟨fun column v hv => hs column v ((hm column v).2 (.inl hv)),
      fun column v hv => hs column v ((hm column v).2 (.inr ((Bindings.get?_eq_some_iff _ _ _).1 hv)))⟩
  · rintro ⟨ha, hb⟩ column v hv
    rcases (hm column v).1 hv with hv | hv
    · exact ha column v hv
    · exact hb column v ((Bindings.get?_eq_some_iff _ _ _).2 hv)

theorem Binds.merge {B : String → Value → Prop} {a b m : Row} (ha : a.Binds B) (hb : b.Binds B)
    (h : a.merge? b = some m) : m.Binds B := by
  intro name v hv
  rcases (get?_foldlM_demand b.entries h name v).1 hv with hv | hv
  · exact ha name v hv
  · exact hb name v ((Bindings.get?_eq_some_iff _ _ _).2 hv)

/-! ## Cutting conditions -/

theorem get?_foldl_insert_entries (column : String) :
    ∀ (entries : List (String × Value)) (b : Row),
      (entries.foldl (fun b e => b.insert e.1 e.2) b).get? column =
        (entries.reverse.lookup column).or (b.get? column)
  | [], b => by simp
  | e :: entries, b => by
    rw [List.foldl_cons, get?_foldl_insert_entries column entries, Bindings.get?_insert,
      List.reverse_cons, List.lookup_append]
    obtain ⟨name, v⟩ := e
    rw [lookup_cons_ite]
    by_cases h : column = name
    · rw [if_pos h, if_pos h]
      cases entries.reverse.lookup column <;> rfl
    · rw [if_neg h, if_neg h]
      cases entries.reverse.lookup column <;> rfl

theorem get?_extend (a b : Row) (column : String) :
    (a.extend b).get? column = (b.get? column).or (a.get? column) := by
  rw [Bindings.extend, get?_foldl_insert_entries]
  congr 1
  refine Option.ext fun v => ?_
  have hn : (b.entries.reverse.map Prod.fst).Nodup := by
    rw [List.map_reverse]
    exact (List.reverse_perm _).nodup_iff.2 b.distinct
  have hr : (⟨b.entries.reverse, hn⟩ : Row).get? column = some v ↔ b.get? column = some v := by
    rw [Bindings.get?_eq_some_iff, Bindings.get?_eq_some_iff, List.mem_reverse]
  exact hr

/-- Conditions on different columns are satisfied together just if each is. -/
theorem satisfies_extend {a b : Row} (h : ∀ column v, a.get? column = some v → b.get? column = none) :
    row.satisfies (a.extend b) = (row.satisfies a && row.satisfies b) := by
  refine Bool.eq_iff_iff.2 ?_
  rw [Bool.and_eq_true, satisfies_iff, satisfies_iff, satisfies_iff]
  constructor
  · intro hs
    refine ⟨fun column v hv => hs column v ?_, fun column v hv => hs column v ?_⟩
    · rw [get?_extend, h column v hv, hv]
      rfl
    · rw [get?_extend, hv]
      rfl
  · rintro ⟨ha, hb⟩ column v hv
    rw [get?_extend, Option.or_eq_some_iff] at hv
    rcases hv with hv | ⟨-, hv⟩
    · exact hb column v hv
    · exact ha column v hv

theorem get?_without (condition : Row) (columns : List String) (column : String) :
    (condition.without columns).get? column =
      if column ∈ columns then none else condition.get? column := by
  rw [without]
  induction columns generalizing condition with
  | nil => simp
  | cons name columns ih =>
    rw [List.foldl_cons, ih, Bindings.get?_erase]
    by_cases hm : column ∈ columns
    · simp [hm]
    · by_cases he : column = name <;> simp [hm, he]

theorem get?_pick (condition : Row) (columns : List String) (column : String) :
    (condition.pick columns).get? column =
      if column ∈ columns then condition.get? column else none := by
  rw [pick, Bindings.ofList, get?_foldl_insert_entries, Bindings.get?_empty, Option.or_none]
  induction columns with
  | nil => rfl
  | cons name columns ih =>
    cases hg : condition.get? name with
    | none =>
      rw [List.filterMap_cons_none (by rw [hg]; rfl), ih]
      by_cases he : column = name
      · subst he
        simp [hg]
      · simp [he]
    | some v =>
      rw [List.filterMap_cons_some (by rw [hg]; rfl), List.reverse_cons, List.lookup_append, ih,
        lookup_cons_ite]
      by_cases he : column = name
      · subst he
        by_cases hm : column ∈ columns <;> simp [hm, hg]
      · by_cases hm : column ∈ columns
        · simp only [hm, he, if_true, if_false, List.mem_cons, or_true]
          cases condition.get? column <;> rfl
        · simp [hm, he]

/-- A condition that was cut in two asks for the same as before. -/
theorem get?_pick_extend_without (condition : Row) (columns : List String) (column : String) :
    ((condition.pick columns).extend (condition.without columns)).get? column =
      condition.get? column := by
  rw [get?_extend, get?_pick, get?_without]
  by_cases h : column ∈ columns <;> simp [h]

end Row

end Rowbase
