import Rowbase.Proofs.Database.Listing

/-! # What the catalog says

The entries about tables, columns and indices form a description. A statement changes it in one of a few
ways, and none of them leaves an entry about something that is not there: a description that is coherent
stays coherent. -/
namespace Rowbase

/-- The entries about tables, columns and indices, in their order. -/
structure Description where
  tables : List String
  columns : List ColumnEntry
  indices : List IndexEntry

namespace Description

variable {D D' : Description} {t t' i i' : String} {columns : List Column} {names : List String}
  {kind : Language.IndexKind}

/-- The entries about the columns of a table. -/
def columnsOf (D : Description) (t : String) : List ColumnEntry := D.columns.filter fun e => e.table = t

/-- The entries about an index. -/
def partsOf (D : Description) (t i : String) : List IndexEntry :=
  D.indices.filter fun e => e.table = t ∧ e.index = i

/-- Whether a description is about what is there and says it once: every entry about a column names a table
and every table has columns, of different names; the entries about an index name a table that is not the
catalog's own and number some of its columns from 1, all of one kind. -/
structure Coherent (D : Description) : Prop where
  tables_nodup : D.tables.Nodup
  own : ∀ name ∈ Schema.names, name ∈ D.tables
  column_table : ∀ e ∈ D.columns, e.table ∈ D.tables
  columns_ne_nil : ∀ t ∈ D.tables, D.columnsOf t ≠ []
  columns_nodup : ∀ t, ((D.columnsOf t).map ColumnEntry.name).Nodup
  index_table : ∀ e ∈ D.indices, e.table ∈ D.tables ∧ e.table ∉ Schema.names
  index_column : ∀ e ∈ D.indices, e.column ∈ (D.columnsOf e.table).map ColumnEntry.name
  parts : ∀ t i, ∃ (columns : List String) (kind : Language.IndexKind), columns.Nodup ∧
    D.partsOf t i = (columns.zipIdx 1).map (IndexEntry.atPlace t i kind)

/-- Whether a description says of the catalog's own tables which columns they have. -/
def DescribesItself (D : Description) : Prop :=
  ∀ name ∈ Schema.names, (D.columnsOf name).map ColumnEntry.column = Schema.columnsOf name

/-! ## The ways in which a description changes -/

/-- The description with a table. -/
def addTable (D : Description) (t : String) (columns : List Column) : Description :=
  { D with tables := D.tables ++ [t], columns := D.columns ++ columns.map (ColumnEntry.about t) }

/-- The description without a table and all that belongs to it. -/
def dropTable (D : Description) (t : String) : Description where
  tables := D.tables.filter (· ≠ t)
  columns := D.columns.filter fun e => e.table ≠ t
  indices := D.indices.filter fun e => e.table ≠ t

/-- The description with an index. -/
def addIndex (D : Description) (t i : String) (names : List String) (kind : Language.IndexKind) : Description :=
  { D with indices := D.indices ++ (names.zipIdx 1).map (IndexEntry.atPlace t i kind) }

/-- The description without an index. -/
def dropIndex (D : Description) (t i : String) : Description :=
  { D with indices := D.indices.filter fun e => ¬ (e.table = t ∧ e.index = i) }

/-- How a statement changes what the catalog says. -/
inductive Step (D : Description) : Description → Prop
  | same : Step D D
  | addTable {t : String} {columns : List Column} (hnew : t ∉ D.tables) (hne : columns ≠ [])
      (hnodup : (columns.map Column.name).Nodup) : Step D (D.addTable t columns)
  | dropTable {t : String} (hown : t ∉ Schema.names) : Step D (D.dropTable t)
  | addIndex {t i : String} {names : List String} {kind : Language.IndexKind} (ht : t ∈ D.tables)
      (hown : t ∉ Schema.names) (hnew : D.partsOf t i = [])
      (hcolumns : ∀ name ∈ names, name ∈ (D.columnsOf t).map ColumnEntry.name) (hnodup : names.Nodup) :
      Step D (D.addIndex t i names kind)
  | dropIndex {t i : String} : Step D (D.dropIndex t i)

/-! ## Coherent descriptions stay coherent -/

theorem columnsOf_addTable (D : Description) (t : String) (columns : List Column) (t' : String) :
    (D.addTable t columns).columnsOf t' =
      if t' = t then D.columnsOf t' ++ columns.map (ColumnEntry.about t) else D.columnsOf t' := by
  rw [columnsOf, addTable, List.filter_append]
  split
  · rename_i he
    congr 1
    refine List.filter_eq_self.2 fun e hm => decide_eq_true ?_
    obtain ⟨column, -, rfl⟩ := List.mem_map.1 hm
    exact he.symm
  · rename_i he
    have hnil : (columns.map (ColumnEntry.about t)).filter (fun e => decide (e.table = t')) = [] := by
      refine List.filter_eq_nil_iff.2 fun e hm hc => he ?_
      obtain ⟨column, -, rfl⟩ := List.mem_map.1 hm
      exact (of_decide_eq_true hc).symm
    rw [hnil, List.append_nil]
    rfl

theorem columnsOf_dropTable (h : t' ≠ t) : (D.dropTable t).columnsOf t' = D.columnsOf t' := by
  rw [columnsOf, dropTable, List.filter_filter, columnsOf]
  refine List.filter_congr fun e _ => ?_
  rw [Bool.eq_iff_iff, Bool.and_eq_true, decide_eq_true_iff, decide_eq_true_iff, and_iff_left_iff_imp]
  rintro rfl
  exact h

theorem partsOf_addIndex (D : Description) (t i : String) (names : List String) (kind : Language.IndexKind)
    (t' i' : String) : (D.addIndex t i names kind).partsOf t' i' = if t' = t ∧ i' = i then
      D.partsOf t' i' ++ (names.zipIdx 1).map (IndexEntry.atPlace t i kind) else D.partsOf t' i' := by
  rw [partsOf, addIndex, List.filter_append]
  split
  · rename_i he
    congr 1
    refine List.filter_eq_self.2 fun e hm => decide_eq_true ?_
    obtain ⟨part, -, rfl⟩ := List.mem_map.1 hm
    exact ⟨he.1.symm, he.2.symm⟩
  · rename_i he
    have hnil : ((names.zipIdx 1).map (IndexEntry.atPlace t i kind)).filter
        (fun e => decide (e.table = t' ∧ e.index = i')) = [] := by
      refine List.filter_eq_nil_iff.2 fun e hm hc => he ?_
      obtain ⟨part, -, rfl⟩ := List.mem_map.1 hm
      obtain ⟨ht, hi⟩ := of_decide_eq_true hc
      exact ⟨ht.symm, hi.symm⟩
    rw [hnil, List.append_nil]
    rfl

/-- What is left of the entries about an index is nothing or all. -/
theorem partsOf_filter (D : Description) (keep : String → String → Bool) (t i : String) :
    (D.indices.filter fun e => keep e.table e.index).filter (fun e => decide (e.table = t ∧ e.index = i)) =
      if keep t i then D.partsOf t i else [] := by
  rw [List.filter_filter, partsOf]
  split
  · rename_i hk
    refine List.filter_congr fun e _ => ?_
    rw [Bool.eq_iff_iff, Bool.and_eq_true, and_iff_left_iff_imp]
    intro he
    obtain ⟨rfl, rfl⟩ := of_decide_eq_true he
    exact hk
  · rename_i hk
    refine List.filter_eq_nil_iff.2 fun e _ hc => hk ?_
    rw [Bool.and_eq_true] at hc
    obtain ⟨he, hc⟩ := hc
    obtain ⟨rfl, rfl⟩ := of_decide_eq_true he
    exact hc

namespace Coherent

theorem addTable (h : D.Coherent) (hnew : t ∉ D.tables) (hne : columns ≠ [])
    (hnodup : (columns.map Column.name).Nodup) : (D.addTable t columns).Coherent where
  tables_nodup := by
    refine List.nodup_append.2 ⟨h.tables_nodup, List.nodup_singleton t, fun a ha b hb he => hnew ?_⟩
    rw [← List.mem_singleton.1 hb, ← he]
    exact ha
  own name hn := List.mem_append_left _ (h.own name hn)
  column_table e he := by
    rcases List.mem_append.1 he with he | he
    · exact List.mem_append_left _ (h.column_table e he)
    · obtain ⟨column, -, rfl⟩ := List.mem_map.1 he
      exact List.mem_append_right _ (.head _)
  columns_ne_nil t' ht := by
    rw [columnsOf_addTable]
    split
    · intro hnil
      exact hne (List.map_eq_nil_iff.1 (List.append_eq_nil_iff.1 hnil).2)
    · rename_i hne
      rcases List.mem_append.1 ht with ht | ht
      · exact h.columns_ne_nil t' ht
      · exact absurd (List.mem_singleton.1 ht) hne
  columns_nodup t' := by
    rw [columnsOf_addTable]
    split
    · rename_i he
      -- nothing was said of the columns of the new table before
      have hnil : D.columnsOf t' = [] := by
        refine List.filter_eq_nil_iff.2 fun e hm hc => hnew ?_
        rw [← he, ← of_decide_eq_true hc]
        exact h.column_table e hm
      rw [hnil, List.nil_append, List.map_map]
      exact hnodup
    · exact h.columns_nodup t'
  index_table e he :=
    have ⟨ht, hown⟩ := h.index_table e he
    ⟨List.mem_append_left _ ht, hown⟩
  index_column e he := by
    rw [columnsOf_addTable, if_neg]
    · exact h.index_column e he
    · intro heq
      exact hnew (heq ▸ (h.index_table e he).1)
  parts := h.parts

theorem dropTable (h : D.Coherent) (hown : t ∉ Schema.names) : (D.dropTable t).Coherent where
  tables_nodup := h.tables_nodup.filter _
  own name hn := by
    refine List.mem_filter.2 ⟨h.own name hn, decide_eq_true ?_⟩
    rintro rfl
    exact hown hn
  column_table e he :=
    have ⟨hm, hne⟩ := List.mem_filter.1 he
    List.mem_filter.2 ⟨h.column_table e hm, hne⟩
  columns_ne_nil t' ht := by
    obtain ⟨ht, hne⟩ := List.mem_filter.1 ht
    rw [columnsOf_dropTable (of_decide_eq_true hne)]
    exact h.columns_ne_nil t' ht
  columns_nodup t' := by
    by_cases he : t' = t
    · have hnil : (D.dropTable t).columnsOf t' = [] := by
        refine List.filter_eq_nil_iff.2 fun e hm hc => ?_
        exact of_decide_eq_true (List.mem_filter.1 hm).2 ((of_decide_eq_true hc).trans he)
      rw [hnil]
      exact List.nodup_nil
    · rw [columnsOf_dropTable he]
      exact h.columns_nodup t'
  index_table e he :=
    have ⟨hm, hne⟩ := List.mem_filter.1 he
    have ⟨ht, hown⟩ := h.index_table e hm
    ⟨List.mem_filter.2 ⟨ht, hne⟩, hown⟩
  index_column e he := by
    obtain ⟨hm, hne⟩ := List.mem_filter.1 he
    rw [columnsOf_dropTable (of_decide_eq_true hne)]
    exact h.index_column e hm
  parts t' i' := by
    rw [partsOf, Description.dropTable, D.partsOf_filter fun table _ => decide (table ≠ t)]
    split
    · exact h.parts t' i'
    · exact ⟨[], .btree, List.nodup_nil, rfl⟩

theorem addIndex (h : D.Coherent) (ht : t ∈ D.tables) (hown : t ∉ Schema.names) (hnew : D.partsOf t i = [])
    (hcolumns : ∀ name ∈ names, name ∈ (D.columnsOf t).map ColumnEntry.name) (hnodup : names.Nodup) :
    (D.addIndex t i names kind).Coherent where
  tables_nodup := h.tables_nodup
  own := h.own
  column_table := h.column_table
  columns_ne_nil := h.columns_ne_nil
  columns_nodup := h.columns_nodup
  index_table e he := by
    rcases List.mem_append.1 he with he | he
    · exact h.index_table e he
    · obtain ⟨part, -, rfl⟩ := List.mem_map.1 he
      exact ⟨ht, hown⟩
  index_column e he := by
    rcases List.mem_append.1 he with he | he
    · exact h.index_column e he
    · obtain ⟨part, hm, rfl⟩ := List.mem_map.1 he
      exact hcolumns part.1 (List.fst_mem_of_mem_zipIdx hm)
  parts t' i' := by
    rw [partsOf_addIndex]
    split
    · rename_i he
      rw [he.1, he.2, hnew, List.nil_append]
      exact ⟨names, kind, hnodup, rfl⟩
    · exact h.parts t' i'

theorem dropIndex (h : D.Coherent) (t i : String) : (D.dropIndex t i).Coherent where
  tables_nodup := h.tables_nodup
  own := h.own
  column_table := h.column_table
  columns_ne_nil := h.columns_ne_nil
  columns_nodup := h.columns_nodup
  index_table e he := h.index_table e (List.mem_filter.1 he).1
  index_column e he := h.index_column e (List.mem_filter.1 he).1
  parts t' i' := by
    rw [partsOf, Description.dropIndex, D.partsOf_filter fun table index => decide ¬ (table = t ∧ index = i)]
    split
    · exact h.parts t' i'
    · exact ⟨[], .btree, List.nodup_nil, rfl⟩

/-- No statement leaves an entry about something that is not there. -/
theorem step (h : D.Coherent) (hs : D.Step D') : D'.Coherent := by
  cases hs with
  | same => exact h
  | addTable hnew hne hnodup => exact h.addTable hnew hne hnodup
  | dropTable hown => exact h.dropTable hown
  | addIndex ht hown hnew hcolumns hnodup => exact h.addIndex ht hown hnew hcolumns hnodup
  | dropIndex => exact h.dropIndex _ _

end Coherent

/-- No statement changes what the catalog says of its own tables. -/
theorem DescribesItself.step (h : D.DescribesItself) (hc : D.Coherent) (hs : D.Step D') : D'.DescribesItself := by
  intro name hn
  rw [← h name hn]
  cases hs with
  | same | addIndex | dropIndex => rfl
  | @addTable t columns hnew =>
    rw [columnsOf_addTable, if_neg]
    rintro rfl
    exact hnew (hc.own _ hn)
  | @dropTable t hown =>
    rw [columnsOf_dropTable]
    rintro rfl
    exact hown hn

end Description

end Rowbase
