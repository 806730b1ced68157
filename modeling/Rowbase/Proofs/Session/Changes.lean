import Rowbase.Proofs.Database.Description
import Rowbase.Proofs.Session.Insert
import Rowbase.Proofs.Session.Opening
import Rowbase.Proofs.Session.Queries

/-! # What statements do

Each statement that succeeds does one thing to a database, and one that fails does nothing that can be
seen. What the catalog says changes in a few ways only. -/
namespace Rowbase

open Act Database

/-- The relations and indices for which a statement may make files. -/
def Language.Statement.sites : Language.Statement → List Site
  | .createTable t _ _ => [.relation t]
  | .createIndex i t _ _ => [.index t i]
  | _ => []

/-- What a statement that succeeds does to a database. -/
def Database.Changes (d : Database) : Language.Statement → Database → Prop
  | .insert t names values, d' => ∃ row, d.Takes t names values row ∧ d.Gains t row d'
  | .delete t condition, d' => ∃ l sites hs, d.Finds l sites t condition hs ∧ d.Loses t hs d'
  | .createTable t declared _, d' => d.tableHandles t ≠ [] ∧ d' = d ∨
      d.tableHandles t = [] ∧ ∃ columns, Catalog.storableColumns [] declared = .ok columns ∧ d.Adds t columns d'
  | .dropTable t, d' => d.table t ≠ none ∧ d' = (d.withoutIndices t (d.indexNames t)).withoutTable t
  | .createIndex i t columns kind, d' => d.Begins i t columns kind ∧ d.Gets t i columns kind d'
  | .dropIndex i t, d' => d.index t i ≠ none ∧ d' = d.withoutIndex t i
  | _, d' => d.Same d'

section
variable {l : Location} {sites : Sites} {c : Catalog} {fs : Files} {d d' : Database}
  {s : Language.Statement}

theorem Settles.succeeds {ε α : Type} {x : Act ε Catalog α} {P : Prop} {Q Q' : Database → Prop}
    (h : Settles l sites d x c fs P Q) (hq : ∀ d', P → Q d' → Q' d') :
    Settles l sites d x c fs (x.Succeeds c fs) Q' := by
  cases h with
  | refused hp ha hm hd hs =>
    refine .refused ?_ ha hm hd hs
    rintro ⟨a, c', fs', hok⟩
    rw [ha] at hok
    cases hok
  | done hp ha hm hd hd' => exact .done ⟨_, _, _, ha⟩ ha hm hd (hq _ hp hd')

/-- Every statement settles: it does what it is for, or leaves the database as it was. -/
theorem settles_carryOut (h : Models l sites c fs d) (hd : d.Sound l sites)
    (hs : ∀ site ∈ s.sites, site ∈ sites) :
    Settles l sites d (Session.carryOut s) c fs ((Session.carryOut s).Succeeds c fs) (d.Changes s) := by
  cases s with
  | select what t condition =>
    exact ((looks_select hd.regular what t condition).settles h hd).succeeds fun _ _ hq => hq
  | insert t names values => exact (settles_insert h hd).succeeds fun _ _ hq => hq
  | update t assignments condition => exact settles_pure ⟨_, _, _, rfl⟩ (.refl d) h hd _
  | delete t condition =>
    refine (settles_delete h hd).succeeds fun d' _ hq => ?_
    obtain ⟨hs, hfinds, hloses⟩ := hq
    exact ⟨l, sites, hs, hfinds, hloses⟩
  | createTable t declared ifNotExists =>
    exact (settles_createTable h hd (hs _ (.head _)) declared ifNotExists).succeeds fun _ _ hq => hq
  | dropTable t => exact (settles_dropTable h hd t).succeeds fun _ hp hq => ⟨hp, hq⟩
  | createIndex i t columns kind => exact settles_createIndex h hd (hs _ (.head _)) columns kind
  | dropIndex i t => exact (settles_dropIndex h hd).succeeds fun _ hp hq => ⟨hp, hq⟩
  | showTables => exact (looks_showTables.settles h hd).succeeds fun _ _ hq => hq
  | showColumns t => exact ((looks_showColumns t).settles h hd).succeeds fun _ _ hq => hq
  | showIndex t => exact ((looks_showIndex t).settles h hd).succeeds fun _ _ hq => hq

end

/-! ## What the catalog says afterwards -/

/-- What the entries of a database say. -/
def Database.description (d : Database) : Description where
  tables := d.tables.live.map Prod.snd
  columns := d.columns.live.map Prod.snd
  indices := d.indices.live.map Prod.snd

section
variable {l : Location} {sites : Sites} {c : Catalog} {fs : Files} {d d' : Database} {t i : String}

theorem Database.Like.description (h : d.Like d') : d'.description = d.description := by
  rw [Database.description, Database.description, h.tables, h.columns, h.indices]

theorem Database.columnsOf_description (d : Database) (t : String) :
    d.description.columnsOf t = (d.columnEntries t).map Prod.snd := by
  rw [Description.columnsOf, Database.description, List.filter_map, columnEntries]
  rfl

theorem Database.partsOf_description (d : Database) (t i : String) :
    d.description.partsOf t i = (d.indexEntries t i).map Prod.snd := by
  rw [Description.partsOf, Database.description, List.filter_map, indexEntries]
  rfl

theorem Database.indexNames_description (d : Database) (t : String) : d.indexNames t =
    ((d.description.indices.filter fun e => e.table = t).map IndexEntry.index).eraseDups.mergeSort
      fun a b => decide (a ≤ b) := by
  rw [indexNames, Database.description, List.filter_map, List.map_map]
  rfl

theorem Database.mem_tables_description : t ∈ d.description.tables ↔ d.tableHandles t ≠ [] := by
  rw [Database.description, List.mem_map, ne_eq, tableHandles, List.map_eq_nil_iff, List.filter_eq_nil_iff]
  push Not
  constructor
  · rintro ⟨e, he, rfl⟩
    exact ⟨e, he, decide_eq_true rfl⟩
  · rintro ⟨e, he, hc⟩
    exact ⟨e, he, of_decide_eq_true hc⟩

theorem Database.names_columnsOf (d : Database) (t : String) :
    (d.columnsOf t).map Column.name = (d.description.columnsOf t).map ColumnEntry.name := by
  rw [columnsOf_description, columnsOf, List.map_map, List.map_map]
  rfl

theorem Catalog.nodup_of_storableColumns :
    ∀ {declared : List Language.ColumnDeclaration} {known columns : List Column},
      storableColumns known declared = .ok columns → (known.map Column.name).Nodup →
      (columns.map Column.name).Nodup
  | [], known, columns, h, hk => by
    cases h
    exact hk
  | declaration :: rest, known, columns, h, hk => by
    rw [storableColumns] at h
    split at h
    · cases h
    · split at h
      · cases h
      · rename_i hknown
        refine nodup_of_storableColumns h ?_
        rw [List.map_append]
        refine List.nodup_append.2 ⟨hk, List.nodup_singleton _, fun name hn other ho he => hknown ?_⟩
        obtain ⟨column, hc, rfl⟩ := List.mem_map.1 hn
        exact List.any_eq_true.2 ⟨column, hc, beq_iff_eq.2 (he.trans (List.mem_singleton.1 ho))⟩

theorem Catalog.nodup_of_checkIndexColumns {known : List String} :
    ∀ {columns checked : List String}, checkIndexColumns i t known checked columns = .ok () →
      columns.Nodup ∧ ∀ column ∈ columns, column ∉ checked
  | [], _, _ => ⟨List.nodup_nil, nofun⟩
  | first :: rest, checked, h => by
    rw [checkIndexColumns] at h
    split at h
    · cases h
    · split at h
      · cases h
      · rename_i hchecked
        obtain ⟨hnodup, hrest⟩ := nodup_of_checkIndexColumns h
        refine ⟨List.nodup_cons.2 ⟨fun hm => ?_, hnodup⟩, fun column hm => ?_⟩
        · exact hrest first hm (List.mem_append_right _ (.head _))
        · rcases List.mem_cons.1 hm with rfl | hm
          · exact hchecked
          · exact fun hc => hrest column hm (List.mem_append_left _ hc)

theorem Database.description_withTable {columns : List Column} {handle : Handle}
    {added : List (Handle × ColumnEntry)} (hadded : added.map Prod.snd = columns.map (ColumnEntry.about t)) :
    (d.withTable t columns handle added).description = d.description.addTable t columns := by
  have htables : (d.withTable t columns handle added).tables.live = d.tables.live ++ [(handle, t)] :=
    Tape.live_append _ _
  have hcolumns : (d.withTable t columns handle added).columns.live = d.columns.live ++ added := by
    change Tape.live (d.columns ++ Tape.ofLive added) = _
    rw [Tape.live_append, Tape.live_ofLive]
  rw [description, htables, hcolumns, List.map_append, List.map_append, hadded]
  rfl

theorem Database.description_withIndex {new : List (Handle × IndexEntry)} {o : Option Index}
    {columns : List String} {kind : Language.IndexKind}
    (hnew : new.map Prod.snd = (columns.zipIdx 1).map (IndexEntry.atPlace t i kind)) :
    (d.withIndex t i new o).description = d.description.addIndex t i columns kind := by
  have hindices : (d.withIndex t i new o).indices.live = d.indices.live ++ new := by
    change Tape.live (d.indices ++ Tape.ofLive new) = _
    rw [Tape.live_append, Tape.live_ofLive]
  rw [description, hindices, List.map_append, hnew]
  rfl

theorem Database.description_withoutIndex (ha : d.indices.Ascending) (t i : String) :
    (d.withoutIndex t i).description = d.description.dropIndex t i := by
  rw [description, live_withoutIndex ha, Description.dropIndex, description, List.filter_map]
  congr 2
  refine List.filter_congr fun e _ => ?_
  rw [Function.comp_apply, decide_not]

theorem Database.handles_withoutIndex (d : Database) (t i : String) :
    (d.withoutIndex t i).indices.handles = d.indices.handles := Tape.handles_clearAll _ _

/-- Without its indices a table has no entries about any. -/
theorem Database.live_withoutIndices (t : String) : ∀ (names : List String) (d : Database),
    d.indices.Ascending → (d.withoutIndices t names).indices.live =
      d.indices.live.filter fun e => !decide (e.2.table = t ∧ e.2.index ∈ names)
  | [], d, _ => by
    refine (List.filter_eq_self.2 fun e _ => ?_).symm
    simp
  | i :: names, d, ha => by
    have hrest := live_withoutIndices t names (d.withoutIndex t i)
      ((Tape.ascending_iff_of_handles (d.handles_withoutIndex t i)).2 ha)
    rw [live_withoutIndex ha, List.filter_filter] at hrest
    refine hrest.trans (List.filter_congr fun e _ => ?_)
    by_cases ht : e.2.table = t <;> by_cases hi : e.2.index = i <;> simp [ht, hi]

theorem Database.description_withoutTable (ht : d.tables.Ascending) (hc : d.columns.Ascending)
    (hi : d.indices.Ascending) (t : String) :
    ((d.withoutIndices t (d.indexNames t)).withoutTable t).description = d.description.dropTable t := by
  obtain ⟨htables, hcolumns, -⟩ := table_withoutIndices t (d.indexNames t) d
  rw [description, Description.dropTable, description]
  congr 1
  · change List.map Prod.snd (Tape.live (Tape.clearAll (List.map Prod.fst (List.filter _ _)) _)) = _
    rw [htables, ht.live_clearAll_filter, List.filter_map]
    refine congrArg _ (List.filter_congr fun e _ => ?_)
    rw [Function.comp_apply, decide_not]
  · change List.map Prod.snd (Tape.live (Tape.clearAll (List.map Prod.fst (List.filter _ _)) _)) = _
    rw [hcolumns, hc.live_clearAll_filter, List.filter_map]
    refine congrArg _ (List.filter_congr fun e _ => ?_)
    rw [Function.comp_apply, decide_not]
  · change List.map Prod.snd (d.withoutIndices t (d.indexNames t)).indices.live = _
    rw [live_withoutIndices t _ d hi, List.filter_map]
    refine congrArg _ (List.filter_congr fun e he => ?_)
    -- every entry about the table is about one of its indices
    have hlisted : e.2.table = t → e.2.index ∈ d.indexNames t := fun ht =>
      mem_indexNames.2 (List.ne_nil_of_mem (List.mem_filter.2 ⟨he, decide_eq_true ⟨ht, rfl⟩⟩))
    rw [Function.comp_apply, decide_not]
    congr 1
    exact decide_eq_decide.2 ⟨And.left, fun ht => ⟨ht, hlisted ht⟩⟩

/-- What the catalog says changes only in the ways that keep it coherent. -/
theorem Database.Changes.step {s : Language.Statement} (hc : d.Changes s d') (h : Models l sites c fs d)
    (hd : d.Sound l sites) : d.description.Step d'.description := by
  have hlike : d.Like d' → d.description.Step d'.description := by
    intro hl
    rw [hl.description]
    exact .same
  cases s with
  | select | update | showTables | showColumns | showIndex => exact hlike hc.toLike
  | insert t names values =>
    obtain ⟨row, -, ct, handle, -, hl, -⟩ := hc
    exact hlike hl
  | delete t condition =>
    obtain ⟨-, -, hs, -, hl, -⟩ := hc
    exact hlike hl
  | createTable t declared ifNotExists =>
    rcases hc with ⟨-, rfl⟩ | ⟨hnil, columns, hcols, hne, handle, added, hadded, rfl⟩
    · exact .same
    · rw [description_withTable hadded]
      exact .addTable (fun hm => mem_tables_description.1 hm hnil) hne
        (Catalog.nodup_of_storableColumns hcols List.nodup_nil)
  | dropTable t =>
    obtain ⟨ht, rfl⟩ := hc
    rw [description_withoutTable (Models.ascending_roll (roll_tables d) h)
      (Models.ascending_roll (roll_columns d) h) h.ascending_indices]
    obtain ⟨ct, ht⟩ := Option.ne_none_iff_exists'.1 ht
    exact .dropTable (hd.regular.not_mem_of_table ht)
  | createIndex i t columns kind =>
    obtain ⟨⟨⟨ct, ht, hcheck⟩, hnil, -⟩, new, ix, rfl, -, hnew⟩ := hc
    have hown := hd.regular.not_mem_of_table ht
    have hlisted : t ∈ d.description.tables :=
      mem_tables_description.2 ((hd.regular.listed t).2 (.inr (by rw [ht]; exact nofun)))
    have hnames : (d.description.columnsOf t).map ColumnEntry.name = ct.columns.map Column.name := by
      rw [← names_columnsOf, hd.regular.columns t hown, ht]
      rfl
    rw [description_withIndex hnew]
    refine .addIndex hlisted hown ?_ ?_ (Catalog.nodup_of_checkIndexColumns hcheck).1
    · rw [partsOf_description, hnil]
      rfl
    · rw [hnames]
      exact Catalog.mem_of_checkIndexColumns hcheck
  | dropIndex i t =>
    obtain ⟨-, rfl⟩ := hc
    rw [description_withoutIndex h.ascending_indices]
    exact .dropIndex

end

end Rowbase
