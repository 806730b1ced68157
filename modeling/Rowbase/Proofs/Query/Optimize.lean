import Rowbase.Proofs.Index
import Rowbase.Proofs.Query.Table
import Rowbase.Query.Run

/-! # Optimising keeps what a plan finds

A plan over a table finds the rows that it admits, in the order of the table, whichever way it takes
to them. Optimising changes the way and not what is admitted. -/
namespace Rowbase

namespace Plan

variable {row condition : Row} {indices : List IndexOutline} {columns : List Column}
  {table : String} {B : String → Value → Prop} {p : Plan}

/-- Whether a plan finds a row of its table. -/
def admits : Plan → Row → Bool
  | scan _, _ => true
  | filter condition input, row => input.admits row && row.satisfies condition
  | project _ input, row => input.admits row
  | filteredScan _ condition, row => row.satisfies condition
  | indexLookup _ _ key residual, row => row.satisfies (lookupCondition key residual)

/-- Whether a plan is made of filters and projections over a table, and its conditions fit. -/
def WellTyped (table : String) (columns : List Column) : Plan → Prop
  | scan t => t = table
  | filter condition input => condition.FitsColumns columns ∧ input.WellTyped table columns
  | project _ input => input.WellTyped table columns
  | _ => False

/-- Whether a plan can be run on a table with some indices, with conditions that ask for things of a sort. An index
lookup binds just the columns of its index. -/
def Runnable (table : String) (B : String → Value → Prop) (indices : List IndexOutline) : Plan → Prop
  | scan t => t = table
  | filter condition input => condition.Binds B ∧ input.Runnable table B indices
  | project _ input => input.Runnable table B indices
  | filteredScan t condition => t = table ∧ condition.Binds B
  | indexLookup t name key residual => t = table ∧ key.Binds B ∧
    (∀ r, residual = some r → r.Binds B ∧ ∀ column v, key.get? column = some v → r.get? column = none) ∧
    (lookupCondition key residual).Binds B ∧
    ∃ o ∈ indices, o.name = name ∧ ∀ column, (key.get? column).isSome = true ↔ column ∈ o.columns

/-! ## Choosing a way -/

theorem foldl_longer_mem (rest : List IndexOutline) :
    ∀ index, rest.foldl longer index = index ∨ rest.foldl longer index ∈ rest := by
  induction rest with
  | nil => exact fun _ => .inl rfl
  | cons next rest ih =>
    intro index
    rw [List.foldl_cons]
    rcases ih (longer index next) with h | h
    · rw [h, longer]
      split
      · exact .inr (.head _)
      · exact .inl rfl
    · exact .inr (.tail _ h)

theorem mem_of_longest? {list : List IndexOutline} {index : IndexOutline}
    (h : longest? list = some index) : index ∈ list := by
  cases list with
  | nil => cases h
  | cons first rest =>
    cases h
    rcases foldl_longer_mem rest first with h | h
    · rw [h]
      exact .head _
    · exact .tail _ h

/-- The ways to a table: a scan, or a lookup with the bindings of an index and the rest. -/
theorem access_cases (indices : List IndexOutline) (table : String) (condition : Row) :
    access indices table condition = filteredScan table condition ∨
      ∃ o ∈ indices, condition.bindsAll o.columns = true ∧ ∃ residual,
        access indices table condition =
          indexLookup table o.name (condition.pick o.columns) residual ∧
        (residual = none ∧ (condition.without o.columns).size = 0 ∨
          residual = some (condition.without o.columns)) := by
  rw [access]
  split
  · rename_i o ho
    obtain ⟨hm, hb⟩ := List.mem_filter.1 (mem_of_longest? ho)
    refine .inr ⟨o, hm, (Bool.and_eq_true_iff.1 hb).2, _, rfl, ?_⟩
    split
    · rename_i hsize
      exact .inl ⟨rfl, hsize⟩
    · exact .inr rfl
  · exact .inl rfl

theorem get?_of_size_eq_zero {r : Row} (h : r.size = 0) (column : String) : r.get? column = none := by
  have he : r.entries = [] := List.length_eq_zero_iff.1 h
  rw [Bindings.get?, he]
  rfl

/-- Cut in two, a condition asks for the same as in one piece. -/
theorem get?_lookupCondition {residual : Option Row} {names : List String}
    (h : residual = none ∧ (condition.without names).size = 0 ∨
      residual = some (condition.without names)) (column : String) :
    (lookupCondition (condition.pick names) residual).get? column = condition.get? column := by
  rcases h with ⟨rfl, hsize⟩ | rfl
  · have hw := get?_of_size_eq_zero hsize column
    rw [Row.get?_without] at hw
    change (condition.pick names).get? column = _
    rw [Row.get?_pick]
    split
    · rfl
    · rename_i hm
      rw [if_neg hm] at hw
      exact hw.symm
  · exact Row.get?_pick_extend_without condition names column

theorem admits_access (indices : List IndexOutline) (table : String) (condition row : Row) :
    (access indices table condition).admits row = row.satisfies condition := by
  rcases access_cases indices table condition with h | ⟨o, -, -, residual, h, hr⟩
  · rw [h]
    rfl
  · rw [h]
    exact Row.satisfies_congr (get?_lookupCondition hr)

theorem runnable_access (hc : condition.Binds B) :
    (access indices table condition).Runnable table B indices := by
  rcases access_cases indices table condition with h | ⟨o, ho, hb, residual, h, hr⟩
  · rw [h]
    exact ⟨rfl, hc⟩
  · rw [h]
    refine ⟨rfl, fun name v hv => ?_, fun r hres => ?_, fun name v hv => ?_, o, ho, rfl, fun column => ?_⟩
    · rw [Row.get?_pick] at hv
      split at hv
      · exact hc name v hv
      · cases hv
    · rcases hr with ⟨rfl, -⟩ | rfl
      · cases hres
      · cases hres
        refine ⟨fun name v hv => ?_, fun name v hv => ?_⟩
        · rw [Row.get?_without] at hv
          split at hv
          · cases hv
          · exact hc name v hv
        · rw [Row.get?_pick] at hv
          split at hv
          · rename_i hm
            rw [Row.get?_without, if_pos hm]
          · cases hv
    · rw [get?_lookupCondition hr] at hv
      exact hc name v hv
    · rw [Row.get?_pick]
      split
      · rename_i hm
        exact iff_of_true (List.all_eq_true.1 hb column hm) hm
      · rename_i hm
        exact iff_of_false (by simp) hm

/-! ## Optimising -/

/-- A condition that is joined to a plan is asked for on top of what the plan asks for. -/
theorem admits_restrict (indices : List IndexOutline) (condition row : Row) (p : Plan) :
    (p.restrict indices condition).admits row = (p.admits row && row.satisfies condition) := by
  cases p with
  | scan t =>
    rw [restrict, admits_access]
    exact (Bool.true_and _).symm
  | filteredScan t own =>
    rw [restrict]
    split
    · rename_i hm
      rw [admits_access, Row.satisfies_merge hm]
      rfl
    · rfl
  | indexLookup t name key residual =>
    rw [restrict]
    split
    · rename_i hm
      rw [admits_access, Row.satisfies_merge hm]
      rfl
    · rfl
  | filter own input => rfl
  | project names input => rfl

theorem admits_optimize (indices : List IndexOutline) (row : Row) :
    ∀ p : Plan, (p.optimize indices).admits row = p.admits row
  | scan _ | filteredScan _ _ | indexLookup _ _ _ _ => rfl
  | project _ input => admits_optimize indices row input
  | filter condition input => by
    rw [optimize, admits_restrict, admits_optimize indices row input]
    rfl

theorem Runnable.restrict (hc : condition.Binds B) (hp : p.Runnable table B indices) :
    (p.restrict indices condition).Runnable table B indices := by
  cases p with
  | scan t =>
    cases hp
    exact runnable_access hc
  | filteredScan t own =>
    obtain ⟨rfl, ho⟩ := hp
    rw [Plan.restrict]
    split
    · rename_i hm
      exact runnable_access (ho.merge hc hm)
    · exact ⟨hc, rfl, ho⟩
  | indexLookup t name key residual =>
    obtain ⟨rfl, hk, hr, hl, hx⟩ := hp
    rw [Plan.restrict]
    split
    · rename_i hm
      exact runnable_access (hl.merge hc hm)
    · exact ⟨hc, rfl, hk, hr, hl, hx⟩
  | filter own input => exact ⟨hc, hp⟩
  | project names input => exact ⟨hc, hp⟩

/-- A plan that can be run is optimised to one that can be run. -/
theorem Runnable.optimize (hp : p.Runnable table B indices) :
    (p.optimize indices).Runnable table B indices := by
  induction p with
  | scan t => exact hp
  | filter condition input ih => exact (ih hp.2).restrict hp.1
  | project names input ih => exact ih hp
  | filteredScan t condition => exact hp
  | indexLookup t name key residual => exact hp

theorem WellTyped.runnable (indices : List IndexOutline) (hp : p.WellTyped table columns) :
    p.Runnable table (Row.Fitting columns) indices := by
  induction p with
  | scan t => exact hp
  | filter condition input ih => exact ⟨hp.1.binds, ih hp.2⟩
  | project names input ih => exact ih hp
  | filteredScan t condition => exact hp.elim
  | indexLookup t name key residual => exact hp.elim

theorem Runnable.table_eq (hp : p.Runnable table B indices) : p.table = table := by
  induction p with
  | scan t => exact hp
  | filter condition input ih => exact ih hp.2
  | project names input ih => exact ih hp
  | filteredScan t condition => exact hp.1
  | indexLookup t name key residual => exact hp.1

/-- Whether a condition has to stay above a plan: it could be joined to the plan, were it not that the two clash.
Nothing is joined to a plan that is no way to a table. -/
def Blocks (condition : Row) : Plan → Prop
  | scan _ => False
  | filteredScan _ own => own.Clashes condition
  | indexLookup _ _ key residual => (lookupCondition key residual).Clashes condition
  | _ => True

/-- The columns that the projections of a plan cut down to, the outermost first. -/
def projections : Plan → List (List String)
  | project columns input => columns :: input.projections
  | filter _ input => input.projections
  | _ => []

/-- A condition stays above a plan where it has to. Otherwise the two become one way to the table. -/
theorem restrict_cases (indices : List IndexOutline) (condition : Row) (p : Plan) :
    p.Blocks condition ∧ p.restrict indices condition = filter condition p ∨
      ¬ p.Blocks condition ∧ p.projections = [] ∧
        ∃ joined, p.restrict indices condition = access indices p.table joined := by
  cases p with
  | scan t => exact .inr ⟨id, rfl, condition, rfl⟩
  | filteredScan t own =>
    simp only [restrict, Blocks, ← Row.merge?_eq_none_iff]
    cases own.merge? condition with
    | none => exact .inl ⟨rfl, rfl⟩
    | some joined => exact .inr ⟨Option.some_ne_none _, rfl, joined, rfl⟩
  | indexLookup t name key residual =>
    simp only [restrict, Blocks, ← Row.merge?_eq_none_iff]
    cases (lookupCondition key residual).merge? condition with
    | none => exact .inl ⟨rfl, rfl⟩
    | some joined => exact .inr ⟨Option.some_ne_none _, rfl, joined, rfl⟩
  | filter own input => exact .inl ⟨trivial, rfl⟩
  | project columns input => exact .inl ⟨trivial, rfl⟩

/-- A restricted plan returns all columns, as a filter does. -/
theorem outputColumns_restrict (indices : List IndexOutline) (condition : Row) (p : Plan) (r : Relation) :
    (p.restrict indices condition).outputColumns r = r.columnNames := by
  rcases restrict_cases indices condition p with ⟨-, h⟩ | ⟨-, -, joined, h⟩
  · rw [h]
    rfl
  · rw [h]
    rcases access_cases indices p.table joined with h | ⟨o, -, -, residual, h, -⟩ <;> rw [h] <;> rfl

theorem outputColumns_optimize (indices : List IndexOutline) (r : Relation) :
    ∀ p : Plan, (p.optimize indices).outputColumns r = p.outputColumns r
  | scan _ | filteredScan _ _ | indexLookup _ _ _ _ | project _ _ => rfl
  | filter condition input => outputColumns_restrict indices condition (input.optimize indices) r

/-- A plan is optimised to another on the same table. -/
theorem table_restrict (indices : List IndexOutline) (condition : Row) (p : Plan) :
    (p.restrict indices condition).table = p.table := by
  rcases restrict_cases indices condition p with ⟨-, h⟩ | ⟨-, -, joined, h⟩
  · rw [h]
    rfl
  · rw [h]
    rcases access_cases indices p.table joined with h | ⟨o, -, -, residual, h, -⟩ <;> rw [h] <;> rfl

theorem table_optimize (indices : List IndexOutline) : ∀ p : Plan, (p.optimize indices).table = p.table
  | scan _ | filteredScan _ _ | indexLookup _ _ _ _ => rfl
  | project _ input => table_optimize indices input
  | filter condition input => (table_restrict indices condition _).trans (table_optimize indices input)

end Plan

/-! ## Running -/

/-- What an index has under the key of a condition that binds just its columns. -/
theorem Index.Groups.lookup_eq {ix : Index} {rows : List (Handle × Row)} (hg : ix.Groups rows)
    (hr : (rows.map Prod.fst).Pairwise Handle.Before) {key : Row}
    (hk : ∀ column, (key.get? column).isSome = true ↔ column ∈ ix.columns) :
    (do
      let k ← ix.keyOf key
      return if k.hasNull then [] else ix.handles k) =
      (.ok ((rows.filter fun e => e.2.satisfies key).map Prod.fst) : Except StorageError _) := by
  have hget : ∀ column ∈ ix.columns, key.get? column = some ((key.get? column).getD .null) := by
    intro column hm
    obtain ⟨v, hv⟩ := Option.isSome_iff_exists.1 ((hk column).2 hm)
    rw [hv]
    rfl
  have hkey : ix.keyOf key = .ok (ix.columns.map fun column => (key.get? column).getD .null) := by
    refine mapM_ok fun column hm => ?_
    rw [Row.value, hget column hm]
    rfl
  rw [hkey]
  refine congrArg Except.ok ?_
  by_cases hnull : Key.hasNull (ix.columns.map fun column => (key.get? column).getD .null) = true
  · rw [if_pos hnull]
    obtain ⟨v, hv, hvnull⟩ := List.any_eq_true.1 hnull
    obtain ⟨column, hm, rfl⟩ := List.mem_map.1 hv
    have hnone : (rows.filter fun e => e.2.satisfies key) = [] := by
      refine List.filter_eq_nil_iff.2 fun e _ hs => ?_
      exact (Row.satisfies_iff.1 hs column _ (hget column hm)).1 (eq_of_beq hvnull)
    rw [hnone]
    rfl
  · rw [if_neg hnull, hg.handles_eq hr]
    refine congrArg _ (List.filter_congr fun e _ => Bool.eq_iff_iff.2 ?_)
    rw [Index.hasKey_iff, Row.satisfies_iff]
    refine mapM_eq_ok_map_iff.trans ⟨fun h column v hv => ?_, fun h column hm => ?_⟩
    · have hm := (hk column).1 (by rw [hv]; rfl)
      have hrow := h column hm
      rw [hv] at hrow
      refine ⟨?_, ?_⟩
      · rintro rfl
        refine hnull (List.any_eq_true.2 ⟨.null, List.mem_map.2 ⟨column, hm, ?_⟩, rfl⟩)
        rw [hv]
        rfl
      · rw [Row.value] at hrow
        split at hrow
        · rename_i w hw
          cases hrow
          exact hw
        · cases hrow
    · rw [Row.value, (h column _ (hget column hm)).2]

namespace Catalog

open Act

/-- Whether a table is a relation that has just these rows, and every index that is listed of it
groups them. -/
structure Indexed (c : Catalog) (fs : Files) (table : String) (r : Relation)
    (rows : List (Handle × Row)) (indices : List IndexOutline) : Prop where
  relation : ((onRelation table Act.thing).apply c fs).1 = .ok r
  select : ((onRelation table (Relation.select none)).apply c fs).1 = .ok (rows.map Prod.fst)
  project : ∀ h row, (h, row) ∈ rows →
    ((onRelation table (Relation.project h [])).apply c fs).1 = .ok row
  outlines : ((indexOutlines table).apply c fs).1 = .ok indices
  groups : ∀ o ∈ indices, ∃ ix : Index,
    ((onIndex table o.name (do Index.load; Act.thing)).apply c fs).1 = .ok ix ∧
      ix.columns = o.columns ∧ ix.Groups rows

variable {c : Catalog} {fs : Files} {table : String} {r : Relation} {rows : List (Handle × Row)}
  {indices : List IndexOutline}

theorem Indexed.relation_eq (h : c.Indexed fs table r rows indices) :
    c.relation fs table = .ok r := by
  have hr := h.relation
  change (onRelation table Act.thing).value c fs = _ at hr
  rw [value_onRelation] at hr
  obtain ⟨r', hr', hr⟩ := bind_eq_ok.1 hr
  cases hr
  exact hr'

theorem Indexed.value_onRelation (h : c.Indexed fs table r rows indices) {α : Type}
    (x : Act StorageError Relation α) : (onRelation table x).value c fs = x.value r fs := by
  rw [Catalog.value_onRelation, h.relation_eq]
  rfl

theorem Indexed.lists (h : c.Indexed fs table r rows indices) : r.Lists fs rows where
  select := by
    rw [← h.value_onRelation]
    exact h.select
  project handle row hm := by
    rw [← h.value_onRelation]
    exact h.project handle row hm

theorem Indexed.value_lookup (h : c.Indexed fs table r rows indices) {o : IndexOutline}
    (ho : o ∈ indices) {key : Row}
    (hk : ∀ column, (key.get? column).isSome = true ↔ column ∈ o.columns) :
    (onIndex table o.name (Index.lookup key)).value c fs =
      .ok ((rows.filter fun e => e.2.satisfies key).map Prod.fst) := by
  obtain ⟨ix, hix, hcols, hg⟩ := h.groups o ho
  change (onIndex table o.name (do Index.load; Act.look fun ix _ => .ok ix)).value c fs = _ at hix
  rw [value_onIndex] at hix ⊢
  obtain ⟨stored, hs, hix⟩ := bind_eq_ok.1 hix
  rw [Index.value_load_look] at hix
  obtain ⟨map, hmap, hix⟩ := bind_eq_ok.1 hix
  cases hix
  rw [hs]
  change (Index.lookup key).value stored fs = _
  rw [Index.lookup, Index.value_load_look, hmap]
  exact hg.lookup_eq h.lists.ascending (by rw [hcols]; exact hk)

end Catalog

namespace Relation

variable {r : Relation}

theorem exists_column {name : String} (h : name ∈ r.columns.map Column.name) :
    ∃ column, r.column name = .ok column := by
  obtain ⟨column, hm, hn⟩ := List.mem_map.1 h
  rw [Relation.column]
  split
  · exact ⟨_, rfl⟩
  · rename_i hnone
    exact absurd (decide_eq_true hn) (List.find?_eq_none.1 hnone column hm)

/-- Columns of a relation can be picked by their names. -/
theorem exists_pickColumns : ∀ {names : List String}, (∀ name ∈ names, name ∈ r.columns.map Column.name) →
    ∃ columns, r.pickColumns names = .ok columns
  | [], _ => ⟨[], rfl⟩
  | name :: names, h => by
    obtain ⟨column, hc⟩ := exists_column (h name (.head _))
    obtain ⟨columns, hcs⟩ := exists_pickColumns fun n hn => h n (.tail _ hn)
    exact ⟨column :: columns, mapM_cons_eq_ok.2 ⟨column, columns, hc, hcs, rfl⟩⟩

end Relation

namespace Plan

open Act Catalog

variable {c : Catalog} {fs : Files} {table : String} {r : Relation} {rows : List (Handle × Row)}
  {indices : List IndexOutline} {p : Plan} {condition : Row}

/-- Whether a key fits columns of a relation that are described so. -/
def keyFitsIn (key : Row) (name : String) (columns : List Column) : Except StorageError Bool := do
  let columns ← (Relation.describe name columns "").pickColumns key.keys
  return (columns.zip key.values).all fun (column, v) => column.domain.accepts v

theorem reads_keyFits (key : Row) : Reads Relation.view (keyFits key) :=
  Relation.reads_look_description (keyFitsIn key)

theorem value_keyFits {key : Row} (hk : key.Binds fun name _ => name ∈ r.columns.map Column.name) :
    ∃ b, (keyFits key).value r fs = .ok b := by
  have hpick : ∃ columns, r.pickColumns key.keys = .ok columns := Relation.exists_pickColumns fun name hm => by
    have hbound : key.get? name ≠ none := fun h => (Bindings.get?_eq_none_iff key name).1 h hm
    obtain ⟨v, hv⟩ := Option.ne_none_iff_exists'.1 hbound
    exact hk name v hv
  obtain ⟨columns, hpick⟩ := hpick
  cases hv : (keyFits key).value r fs with
  | ok fits => exact ⟨fits, rfl⟩
  | error e =>
    change (r.pickColumns key.keys >>= _) = _ at hv
    rw [hpick] at hv
    cases hv

/-- Those of some handles whose rows meet what is left of a condition. -/
def narrow (t : String) (residual : Option Row) (handles : List Handle) :
    Act StorageError Catalog (List Handle) :=
  match residual with
  | some residual => onRelation t (Relation.keep residual handles)
  | none => pure handles

theorem reads_narrow (table : String) (residual : Option Row) (handles : List Handle) :
    Reads Catalog.view (narrow table residual handles) := by
  cases residual with
  | some residual => exact reads_onRelation table (Relation.reads_keep residual handles)
  | none => exact reads_pure handles

theorem reads_lookup (table index : String) (key : Row) (residual : Option Row) :
    Reads Catalog.view (do narrow table residual (← onIndex table index (Index.lookup key))) :=
  (reads_onIndex table index (Index.reads_lookup key)).bind (reads_narrow table residual)

/-- Finding rows changes nothing. -/
theorem reads_find : ∀ p : Plan, Reads Catalog.view p.find
  | scan table => reads_onRelation table (Relation.reads_select none)
  | filteredScan table condition => reads_onRelation table (Relation.reads_select (some condition))
  | filter condition input => (reads_find input).bind fun handles =>
    reads_onRelation input.table (Relation.reads_keep condition handles)
  | project _ input => reads_find input
  | indexLookup table index key residual => by
    rw [find]
    refine (reads_onRelation table (reads_keyFits key)).bind fun fits => ?_
    split
    · exact reads_lookup table index key residual
    · exact reads_onRelation table (Relation.reads_select _)

theorem value_filter (condition : Row) (input : Plan) :
    (filter condition input).find.value c fs = input.find.value c fs >>= fun handles =>
      (onRelation input.table (Relation.keep condition handles)).value c fs := by
  rw [find, (reads_find input).value_bind fun handles =>
    reads_onRelation _ (Relation.reads_keep condition handles)]

theorem value_indexLookup (t i : String) (key : Row) (residual : Option Row) :
    (indexLookup t i key residual).find.value c fs =
      (onRelation t (keyFits key)).value c fs >>= fun fits =>
        if fits then (onIndex t i (Index.lookup key)).value c fs >>= fun handles =>
          (narrow t residual handles).value c fs
        else (onRelation t (Relation.select (some (lookupCondition key residual)))).value c fs := by
  rw [find, (reads_onRelation t (reads_keyFits key)).value_bind fun fits => ?_]
  · congr 1
    funext fits
    cases fits with
    | false => rfl
    | true =>
      exact (reads_onIndex t i (Index.reads_lookup key)).value_bind (reads_narrow t residual) c fs
  · split
    · exact reads_lookup t i key residual
    · exact reads_onRelation _ (Relation.reads_select _)

/-- A plan finds the rows that it admits, in the order of the table, as far as all rows can be held against its
conditions. -/
theorem find_yields {B : String → Value → Prop} {E : StorageError → Prop} (h : c.Indexed fs table r rows indices)
    (hnamed : ∀ name v, B name v → name ∈ r.columns.map Column.name)
    (hmeets : ∀ {condition : Row}, condition.Binds B → ∀ e ∈ rows,
      Yields E (e.2.meets condition r.name) (e.2.satisfies condition)) :
    ∀ {p : Plan}, p.Runnable table B indices →
      Yields E (p.find.value c fs) ((rows.filter fun e => p.admits e.2).map Prod.fst)
  | scan _, hp => by
    cases hp
    rw [find, h.value_onRelation, h.lists.select]
    exact .ok (congrArg (fun l => Except.ok (List.map Prod.fst l)) (List.filter_true rows).symm)
  | filteredScan _ condition, ⟨ht, hc⟩ => by
    subst ht
    rw [find, h.value_onRelation]
    exact h.lists.select_yields (hmeets hc)
  | filter condition input, ⟨hc, hp⟩ => by
    rw [value_filter]
    refine (find_yields h hnamed hmeets hp).bind ?_
    rw [hp.table_eq, h.value_onRelation]
    exact h.lists.keep_yields (hmeets hc) _
  | project _ input, hp => find_yields h hnamed hmeets (p := input) hp
  | indexLookup _ _ key residual, ⟨ht, hk, hr, hl, o, ho, hn, hcols⟩ => by
    subst ht hn
    obtain ⟨fits, hfits⟩ : ∃ b, (keyFits key).value r fs = .ok b :=
      value_keyFits fun name v hv => hnamed name v (hk name v hv)
    rw [value_indexLookup, h.value_onRelation, hfits, h.value_lookup ho hcols]
    refine (Yields.ok rfl).bind ?_
    cases fits with
    | true =>
      rw [if_pos rfl]
      refine (Yields.ok rfl).bind ?_
      cases residual with
      | none => exact .ok rfl
      | some residual =>
        obtain ⟨hres, hdisjoint⟩ := hr residual rfl
        rw [narrow, h.value_onRelation]
        simp only [admits, lookupCondition, Row.satisfies_extend hdisjoint]
        exact h.lists.keep_yields (hmeets hres) _
    | false =>
      rw [if_neg (by decide), h.value_onRelation]
      exact h.lists.select_yields (hmeets hl)

/-- A plan finds the rows that it admits if its conditions fit the columns of the table. -/
theorem value_find (h : c.Indexed fs table r rows indices)
    (hp : p.Runnable table (Row.Fitting r.columns) indices) :
    p.find.value c fs = .ok ((rows.filter fun e => p.admits e.2).map Prod.fst) :=
  yields_false_iff.1 (find_yields h (fun _ _ hb => hb.1)
    (fun hc _ he => .ok (Row.meets_eq (h.lists.stored he) hc)) hp)

theorem reads_output (p : Plan) (handles : List Handle) : Reads Relation.view (do
    let columns ← Act.look fun r _ => .ok (p.outputColumns r)
    return (columns, ← handles.mapM fun h => Relation.project h columns)) := by
  refine Reads.bind ?_ fun columns =>
    (reads_mapM (fun h => Relation.reads_project h columns) handles).bind fun _ => reads_pure _
  have hshow : ∀ r, p.outputColumns r = p.outputColumns (Relation.describe r.name r.columns "") := by
    intro r
    cases p <;> rfl
  refine reads_look fun {r r' fs} h => ?_
  obtain ⟨hn, hd⟩ := Prod.mk.inj (Prod.mk.inj h).1
  rw [hshow r, hshow r', hn, (Prod.mk.inj hd).1]

theorem reads_evaluate (p : Plan) : Reads Catalog.view p.evaluate :=
  (reads_find p).bind fun handles => reads_onRelation p.table (reads_output p handles)

section
variable (h : c.Indexed fs table r rows indices) {p : Plan} (hp : p.WellTyped table r.columns)
include h hp

theorem value_find_optimize : (p.optimize indices).find.value c fs = p.find.value c fs := by
  have hadmits : (fun e : Handle × Row => (p.optimize indices).admits e.2) = fun e => p.admits e.2 :=
    funext fun e => admits_optimize indices e.2 p
  rw [value_find h (hp.runnable indices).optimize, value_find h (hp.runnable indices), hadmits]

theorem value_evaluate_optimize : (p.optimize indices).evaluate.value c fs = p.evaluate.value c fs := by
  have hshow : (p.optimize indices).outputColumns = p.outputColumns :=
    funext fun r => outputColumns_optimize indices r p
  rw [evaluate, evaluate, hshow, (hp.runnable indices).optimize.table_eq,
    (hp.runnable indices).table_eq,
    (reads_find _).value_bind fun handles => reads_onRelation table (reads_output p handles),
    value_find_optimize h hp,
    (reads_find p).value_bind fun handles => reads_onRelation table (reads_output p handles)]

end

end Plan

end Rowbase
