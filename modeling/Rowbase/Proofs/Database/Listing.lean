import Rowbase.Proofs.Database.Sound

/-! # Listing tables and indices

When the entries about an index or a table come or go together with it, a database in order stays in
order. -/
namespace Rowbase

variable {l : Location} {sites : Sites} {d d' : Database} {t i t' i' : String} {ct : Content}
  {ix : Index} {new : List (Handle × IndexEntry)}

/-- An index stands as long as its entries do. -/
theorem Index.Stands.congr (hs : ix.Stands l sites d t i ct) (he : d'.indexEntries t i = d.indexEntries t i) :
    ix.Stands l sites d' t i ct where
  table_eq := hs.table_eq
  name_eq := hs.name_eq
  definition := by
    rw [← hs.definition, Database.definition, Database.definition, he]
  path_eq := hs.path_eq
  loaded := hs.loaded
  site := hs.site
  covered := hs.covered

namespace Database

/-- Databases with the same entries and the same tables and indices cannot be told from each other. -/
theorem Sound.of_lists (hd : d.Sound l sites) (ht : d'.tables.live = d.tables.live)
    (hc : d'.columns.live = d.columns.live) (hi : d'.indices.live = d.indices.live)
    (htable : d'.table = d.table) (hindex : d'.index = d.index) : d'.Sound l sites ∧ d.Same d' := by
  have hlike : d.Like d' := ⟨ht, hc, hi, fun _ => by rw [htable], fun t i => by
    rw [hindex]
    exact (Like.refl d).index t i⟩
  have hlive : ∀ t, d'.live t = d.live t := fun t => by rw [live, live, htable]
  refine ⟨⟨hd.regular.like hlike, fun t i ix hx => ?_⟩, hlike, hlive⟩
  dsimp only
  rw [hlive]
  exact hd.exact t i ix (hindex ▸ hx)

/-! ## Indices -/

/-- The database without an index and the entries about it. -/
def withoutIndex (d : Database) (t i : String) : Database :=
  { d with indices := d.indices.clearAll ((d.indexEntries t i).map Prod.fst) }.setIndex t i none

theorem live_withoutIndex (ha : d.indices.Ascending) (t i : String) :
    (d.withoutIndex t i).indices.live =
      d.indices.live.filter fun e => !decide (e.2.table = t ∧ e.2.index = i) :=
  ha.live_clearAll_filter _

theorem indexEntries_withoutIndex (ha : d.indices.Ascending) (t i t' i' : String) :
    (d.withoutIndex t i).indexEntries t' i' = if t' = t ∧ i' = i then [] else d.indexEntries t' i' := by
  rw [indexEntries, live_withoutIndex ha, List.filter_filter, indexEntries]
  split
  · rename_i he
    rw [he.1, he.2, List.filter_eq_nil_iff]
    intro e _ hc
    rw [Bool.and_eq_true, decide_eq_true_iff, Bool.not_eq_true', decide_eq_false_iff_not] at hc
    exact hc.2 hc.1
  · rename_i he
    refine List.filter_congr fun e _ => ?_
    rw [Bool.eq_iff_iff, Bool.and_eq_true, decide_eq_true_iff, Bool.not_eq_true', decide_eq_false_iff_not,
      and_iff_left_iff_imp]
    rintro ⟨rfl, rfl⟩ hc
    exact he hc

theorem index_withoutIndex (d : Database) (t i t' i' : String) :
    (d.withoutIndex t i).index t' i' = if t' = t ∧ i' = i then none else d.index t' i' := rfl

theorem Sound.withoutIndex (hd : d.Sound l sites) (ha : d.indices.Ascending) (t i : String) :
    (d.withoutIndex t i).Sound l sites where
  regular := {
    columns := hd.regular.columns
    nonempty := hd.regular.nonempty
    own := hd.regular.own
    listed := hd.regular.listed
    indexed := fun t' i' => by
      rw [indexEntries_withoutIndex ha, index_withoutIndex]
      split
      · exact iff_of_false (fun h => h rfl) fun h => h rfl
      · exact hd.regular.indexed t' i'
    stands := fun t' i' ix hx => by
      rw [index_withoutIndex] at hx
      split at hx
      · cases hx
      · rename_i he
        obtain ⟨ct, hc, hs⟩ := hd.regular.stands t' i' ix hx
        exact ⟨ct, hc, hs.congr (by rw [indexEntries_withoutIndex ha, if_neg he])⟩ }
  exact t' i' ix hx := by
    rw [index_withoutIndex] at hx
    split at hx
    · cases hx
    · exact hd.exact t' i' ix hx

/-- The database with an index and entries about it. -/
def withIndex (d : Database) (t i : String) (new : List (Handle × IndexEntry)) (ix : Option Index) : Database :=
  { d with indices := d.indices ++ Tape.ofLive new }.setIndex t i ix

theorem indexEntries_withIndex (hnew : ∀ e ∈ new, e.2.table = t ∧ e.2.index = i) (o : Option Index)
    (t' i' : String) : (d.withIndex t i new o).indexEntries t' i' =
      if t' = t ∧ i' = i then d.indexEntries t i ++ new else d.indexEntries t' i' := by
  change List.filter _ (Tape.live (d.indices ++ Tape.ofLive new)) = _
  rw [Tape.live_append, Tape.live_ofLive, List.filter_append]
  split
  · rename_i he
    rw [he.1, he.2, List.filter_eq_self.2 fun e hm => decide_eq_true (hnew e hm)]
    rfl
  · rename_i he
    have hnil : new.filter (fun e => decide (e.2.table = t' ∧ e.2.index = i')) = [] := by
      refine List.filter_eq_nil_iff.2 fun e hm hc => ?_
      obtain ⟨h1, h2⟩ := of_decide_eq_true hc
      obtain ⟨h3, h4⟩ := hnew e hm
      exact he ⟨h1.symm.trans h3, h2.symm.trans h4⟩
    rw [hnil, List.append_nil]
    rfl

theorem index_withIndex (d : Database) (t i : String) (new : List (Handle × IndexEntry)) (o : Option Index)
    (t' i' : String) :
    (d.withIndex t i new o).index t' i' = if t' = t ∧ i' = i then o else d.index t' i' := rfl

theorem compare_places {k k' : Nat} (h : k < k') (hk : k' < 2147483648) :
    compare (Int32.ofNat k) (Int32.ofNat k') = .lt := by
  refine compareOfLessAndEq_eq_lt.2 ?_
  rw [Int32.lt_iff_toInt_lt, Int32.toInt_ofNat_of_lt (by omega), Int32.toInt_ofNat_of_lt (by omega)]
  omega

theorem pairwise_places : ∀ (columns : List String) (n : Nat), n + columns.length ≤ 2147483648 →
    (columns.zipIdx n).Pairwise fun a b => compare (Int32.ofNat a.2) (Int32.ofNat b.2) = .lt
  | [], _, _ => .nil
  | _ :: columns, n, h => by
    rw [List.length_cons] at h
    refine .cons (fun b hb => ?_) (pairwise_places columns (n + 1) (by omega))
    obtain ⟨hle, hlt, -⟩ := List.mem_zipIdx hb
    exact compare_places hle (by omega)

theorem about_of_atPlace {columns : List (String × Nat)} {kind : Language.IndexKind}
    (hnew : new.map Prod.snd = columns.map (IndexEntry.atPlace t i kind)) :
    ∀ e ∈ new, e.2.table = t ∧ e.2.index = i := by
  intro e he
  have hm := List.mem_map_of_mem (f := Prod.snd) he
  rw [hnew] at hm
  obtain ⟨b, -, hb⟩ := List.mem_map.1 hm
  rw [← hb]
  exact ⟨rfl, rfl⟩

/-- What the catalog says of a new index is what the entries about it were made of, as long as their places can
be told apart. -/
theorem definition_withIndex {columns : List String} {kind : Language.IndexKind}
    (hnil : d.indexEntries t i = []) (hne : columns ≠ []) (hlen : columns.length < 2147483648)
    (hnew : new.map Prod.snd = (columns.zipIdx 1).map (IndexEntry.atPlace t i kind)) (o : Option Index) :
    (d.withIndex t i new o).definition t i = (columns, kind.isUnique) := by
  have hparts : ((d.withIndex t i new o).indexEntries t i).map (fun e => e.2.part) =
      (columns.zipIdx 1).map fun b => (Int32.ofNat b.2, b.1, kind.isUnique) := by
    rw [indexEntries_withIndex (about_of_atPlace hnew), if_pos ⟨rfl, rfl⟩, hnil, List.nil_append]
    change new.map (IndexEntry.part ∘ Prod.snd) = _
    rw [← List.map_map, hnew, List.map_map]
    rfl
  rw [definition, hparts]
  refine Prod.ext ?_ ?_
  · -- the entries stand in the order of their places
    have hsorted : ((columns.zipIdx 1).map fun b => (Int32.ofNat b.2, b.1, kind.isUnique)).Pairwise
        fun a b => ((compare a.1 b.1).then (compare a.2.1 b.2.1)).isLE = true := by
      rw [List.pairwise_map]
      refine (pairwise_places columns 1 (by omega)).imp fun {a b} h => ?_
      rw [h]
      rfl
    dsimp only
    rw [List.mergeSort_of_pairwise hsorted, List.map_map]
    exact List.zipIdx_map_fst 1 columns
  · have hlast : columns.zipIdx 1 ≠ [] := by simpa using hne
    dsimp only
    rw [List.getLast?_map, List.getLast?_eq_some_getLast hlast]
    rfl

/-- An index that is made of the rows of its table and described comes to a database in order. -/
theorem Sound.withIndex (hd : d.Sound l sites) (hnew : ∀ e ∈ new, e.2.table = t ∧ e.2.index = i)
    (hne : new ≠ []) (hc : d.table t = some ct)
    (hs : ix.Stands l sites (d.withIndex t i new (some ix)) t i ct) (he : ix.Exact ct.rows.live) :
    (d.withIndex t i new (some ix)).Sound l sites where
  regular := {
    columns := hd.regular.columns
    nonempty := hd.regular.nonempty
    own := hd.regular.own
    listed := hd.regular.listed
    indexed := fun t' i' => by
      rw [indexEntries_withIndex hnew, index_withIndex]
      split
      · refine iff_of_true (fun h => hne (List.append_eq_nil_iff.1 h).2) nofun
      · exact hd.regular.indexed t' i'
    stands := fun t' i' ix' hx => by
      rw [index_withIndex] at hx
      split at hx
      · rename_i heq
        cases hx
        rw [heq.1, heq.2]
        exact ⟨ct, hc, hs⟩
      · rename_i hneq
        obtain ⟨ct', hc', hs'⟩ := hd.regular.stands t' i' ix' hx
        exact ⟨ct', hc', hs'.congr (by rw [indexEntries_withIndex hnew, if_neg hneq])⟩ }
  exact t' i' ix' hx := by
    rw [index_withIndex] at hx
    split at hx
    · rename_i heq
      cases hx
      dsimp only
      rw [heq.1]
      have : (d.withIndex t i new (some ix)).live t = ct.rows.live := live_of_table hc
      rw [this]
      exact he
    · exact hd.exact t' i' ix' hx

/-- What was described of an index and is taken away again leaves nothing behind. -/
theorem Sound.withoutIndex_withIndex (hd : d.Sound l sites) (ha : (d.indices ++ Tape.ofLive new).Ascending)
    (hnew : ∀ e ∈ new, e.2.table = t ∧ e.2.index = i) (hnil : d.indexEntries t i = []) (o : Option Index) :
    ((d.withIndex t i new o).withoutIndex t i).Sound l sites ∧
      d.Same ((d.withIndex t i new o).withoutIndex t i) := by
  have hnone : d.index t i = none := hd.regular.index_eq_none hnil
  refine hd.of_lists rfl rfl ?_ rfl ?_
  · rw [live_withoutIndex ha]
    change List.filter _ (Tape.live (d.indices ++ Tape.ofLive new)) = _
    rw [Tape.live_append, Tape.live_ofLive, List.filter_append, List.filter_eq_self.2, List.filter_eq_nil_iff.2,
      List.append_nil]
    · intro e he hc
      rw [Bool.not_eq_true', decide_eq_false_iff_not] at hc
      exact hc (hnew e he)
    · intro e he
      rw [Bool.not_eq_true', decide_eq_false_iff_not]
      intro hc
      exact (List.filter_eq_nil_iff.1 hnil) e he (decide_eq_true hc)
  · funext t' i'
    rw [index_withoutIndex, index_withIndex]
    split
    · rename_i he
      rw [he.1, he.2, hnone]
    · rfl

/-! ## Tables -/

section
variable {columns : List Column} {handle : Handle} {added : List (Handle × ColumnEntry)}

theorem index_of_no_table (hd : d.Regular l sites) (hc : d.table t = none) (i : String) :
    d.index t i = none := by
  cases hx : d.index t i with
  | none => rfl
  | some ix =>
    obtain ⟨ct, hc', -⟩ := hd.stands t i ix hx
    rw [hc] at hc'
    cases hc'

/-- The database with a new table and entries about it. -/
def withTable (d : Database) (t : String) (columns : List Column) (handle : Handle)
    (added : List (Handle × ColumnEntry)) : Database :=
  { d with
    tables := d.tables ++ [(handle, some t)]
    columns := d.columns ++ Tape.ofLive added }.setTable t (some ⟨columns, []⟩)

theorem table_withTable (t' : String) : (d.withTable t columns handle added).table t' =
    if t' = t then some ⟨columns, []⟩ else d.table t' := rfl

theorem columnsOf_append (hadded : ∀ e ∈ added, e.2.table = t) (hd' : d'.columns = d.columns ++ Tape.ofLive added)
    (t' : String) : d'.columnsOf t' =
      if t' = t then d.columnsOf t ++ added.map fun e => e.2.column else d.columnsOf t' := by
  rw [columnsOf, columnEntries, hd', Tape.live_append, Tape.live_ofLive, List.filter_append, List.map_append]
  split
  · rename_i he
    rw [he, List.filter_eq_self.2 fun e hm => decide_eq_true (hadded e hm)]
    rfl
  · rename_i he
    have hnil : added.filter (fun e => decide (e.2.table = t')) = [] := by
      refine List.filter_eq_nil_iff.2 fun e hm hc => he ?_
      exact (of_decide_eq_true hc).symm.trans (hadded e hm)
    rw [hnil, List.map_nil, List.append_nil]
    rfl

theorem tableHandles_append (hd' : d'.tables = d.tables ++ [(handle, some t)]) (t' : String) :
    d'.tableHandles t' = if t' = t then d.tableHandles t ++ [handle] else d.tableHandles t' := by
  rw [tableHandles, hd', Tape.live_append, List.filter_append, List.map_append]
  change _ ++ List.map Prod.fst ([(handle, t)].filter fun e => decide (e.2 = t')) = _
  split
  · rename_i he
    rw [he, List.filter_cons_of_pos (by simp)]
    rfl
  · rename_i he
    rw [List.filter_cons_of_neg (by simpa using fun h => he h.symm)]
    exact List.append_nil _

/-- A table that is described and made comes to a database in order. -/
theorem Sound.withTable (hd : d.Sound l sites) (hn : t ∉ Schema.names) (hc : d.table t = none)
    (hne : columns ≠ []) (hadded : ∀ e ∈ added, e.2.table = t)
    (hcols : added.map (fun e => e.2.column) = columns) :
    (d.withTable t columns handle added).Sound l sites where
  regular := {
    columns := fun t' hn' => by
      rw [columnsOf_append hadded rfl, table_withTable]
      split
      · rw [hd.regular.columns t hn, hc, hcols]
        rfl
      · exact hd.regular.columns t' hn'
    nonempty := fun t' ct hc' => by
      rw [table_withTable] at hc'
      split at hc'
      · cases hc'
        exact hne
      · exact hd.regular.nonempty t' ct hc'
    own := fun t' hn' => by
      rw [table_withTable, if_neg]
      · exact hd.regular.own t' hn'
      · rintro rfl
        exact hn hn'
    listed := fun t' => by
      rw [tableHandles_append rfl, table_withTable]
      split
      · exact iff_of_true (by simp) (.inr nofun)
      · exact hd.regular.listed t'
    indexed := hd.regular.indexed
    stands := fun t' i ix hx => by
      obtain ⟨ct, hc', hs⟩ := hd.regular.stands t' i ix hx
      refine ⟨ct, ?_, hs.congr rfl⟩
      rw [table_withTable, if_neg]
      · exact hc'
      · rintro rfl
        rw [hc] at hc'
        cases hc' }
  exact t' i ix hx := by
    have hne : t' ≠ t := by
      rintro rfl
      exact nomatch (index_of_no_table hd.regular hc i).symm.trans hx
    have hlive : (d.withTable t columns handle added).live t' = d.live t' := by
      rw [live, live, table_withTable, if_neg hne]
    dsimp only
    rw [hlive]
    exact hd.exact t' i ix hx

/-- The database without a table and the entries about it. -/
def withoutTable (d : Database) (t : String) : Database :=
  { d with
    tables := d.tables.clearAll (d.tableHandles t)
    columns := d.columns.clearAll ((d.columnEntries t).map Prod.fst) }.setTable t none

theorem table_withoutTable (d : Database) (t t' : String) :
    (d.withoutTable t).table t' = if t' = t then none else d.table t' := rfl

theorem tableHandles_withoutTable (ha : d.tables.Ascending) (t t' : String) :
    (d.withoutTable t).tableHandles t' = if t' = t then [] else d.tableHandles t' := by
  change List.map Prod.fst ((d.tables.clearAll (d.tableHandles t)).live.filter _) = _
  rw [tableHandles, ha.live_clearAll_filter, List.filter_filter]
  split
  · rename_i he
    rw [he, List.filter_eq_nil_iff.2 fun e _ => by simp]
    rfl
  · rename_i he
    rw [tableHandles]
    refine congrArg _ (List.filter_congr fun e _ => ?_)
    rw [Bool.eq_iff_iff, Bool.and_eq_true, decide_eq_true_iff, Bool.not_eq_true', decide_eq_false_iff_not,
      and_iff_left_iff_imp]
    rintro rfl
    exact he

theorem columnsOf_withoutTable (ha : d.columns.Ascending) (t t' : String) :
    (d.withoutTable t).columnsOf t' = if t' = t then [] else d.columnsOf t' := by
  change List.map _ ((d.columns.clearAll ((d.columnEntries t).map Prod.fst)).live.filter _) = _
  rw [columnEntries, ha.live_clearAll_filter, List.filter_filter]
  split
  · rename_i he
    rw [he, List.filter_eq_nil_iff.2 fun e _ => by simp]
    rfl
  · rename_i he
    rw [columnsOf, columnEntries]
    refine congrArg _ (List.filter_congr fun e _ => ?_)
    rw [Bool.eq_iff_iff, Bool.and_eq_true, decide_eq_true_iff, Bool.not_eq_true', decide_eq_false_iff_not,
      and_iff_left_iff_imp]
    rintro rfl
    exact he

/-- A table without indices goes from a database in order with the entries about it. -/
theorem Sound.withoutTable (hd : d.Sound l sites) (ht : d.tables.Ascending) (hc : d.columns.Ascending)
    (hn : t ∉ Schema.names) (hindices : ∀ i, d.index t i = none) : (d.withoutTable t).Sound l sites := by
  have hother : ∀ {t' i ix}, d.index t' i = some ix → t' ≠ t := by
    rintro t' i ix hx rfl
    rw [hindices] at hx
    cases hx
  exact {
    regular := {
      columns := fun t' hn' => by
        rw [columnsOf_withoutTable hc, table_withoutTable]
        split
        · rfl
        · exact hd.regular.columns t' hn'
      nonempty := fun t' ct hc' => by
        rw [table_withoutTable] at hc'
        split at hc'
        · cases hc'
        · exact hd.regular.nonempty t' ct hc'
      own := fun t' hn' => by
        rw [table_withoutTable]
        split
        · rfl
        · exact hd.regular.own t' hn'
      listed := fun t' => by
        rw [tableHandles_withoutTable ht, table_withoutTable]
        split
        · rename_i he
          refine iff_of_false (fun h => h rfl) (not_or.2 ⟨he ▸ hn, fun h => h rfl⟩)
        · exact hd.regular.listed t'
      indexed := hd.regular.indexed
      stands := fun t' i ix hx => by
        obtain ⟨ct, hc', hs⟩ := hd.regular.stands t' i ix hx
        refine ⟨ct, ?_, hs.congr rfl⟩
        rw [table_withoutTable, if_neg (hother hx)]
        exact hc' }
    exact := fun t' i ix hx => by
      dsimp only
      have hlive : (d.withoutTable t).live t' = d.live t' := by
        rw [live, live, table_withoutTable, if_neg (hother hx)]
      rw [hlive]
      exact hd.exact t' i ix hx }

end

end Database

end Rowbase
