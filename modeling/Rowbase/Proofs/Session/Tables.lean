import Rowbase.Proofs.Session.Indices

/-! # Making and dropping tables

A table is made after its entries, and if it cannot be made they are taken back. A table that is dropped goes
after its indices, and between the entries about its columns and the one about itself. -/
namespace Rowbase

open Database Act

/-! ## Making -/

theorem ColumnEntry.column_about {column : Column} (h : column.domain.nullable = true) (t : String) :
    (about t column).column = column := by
  obtain ⟨name, kind, nullable⟩ := column
  cases h
  rfl

/-- Entries about columns that may be NULL have the table and say what the columns are. -/
theorem ColumnEntry.of_about {added : List (Handle × ColumnEntry)} {columns : List Column} {t : String}
    (hadded : added.map Prod.snd = columns.map (about t)) (hcols : ∀ c ∈ columns, c.domain.nullable = true) :
    (∀ e ∈ added, e.2.table = t) ∧ added.map (fun e => e.2.column) = columns := by
  constructor
  · intro e he
    have hm := List.mem_map_of_mem (f := Prod.snd) he
    rw [hadded] at hm
    obtain ⟨c, -, heq⟩ := List.mem_map.1 hm
    rw [← heq]
    rfl
  · change added.map (ColumnEntry.column ∘ Prod.snd) = columns
    rw [← List.map_map, hadded, List.map_map]
    exact (List.map_congr_left fun c hm => column_about (hcols c hm) t).trans (List.map_id _)

theorem Catalog.nullable_of_storableColumns :
    ∀ {declared : List Language.ColumnDeclaration} {known columns : List Column},
      storableColumns known declared = .ok columns → (∀ c ∈ known, c.domain.nullable = true) →
      ∀ c ∈ columns, c.domain.nullable = true
  | [], known, columns, h, hk => by
    cases h
    exact hk
  | d :: rest, known, columns, h, hk => by
    rw [storableColumns] at h
    split at h
    · cases h
    · split at h
      · cases h
      · refine nullable_of_storableColumns h fun c hc => ?_
        rcases List.mem_append.1 hc with hc | hc
        · exact hk c hc
        · cases List.mem_singleton.1 hc
          rfl

/-- Whether the catalog can describe a table. -/
def Schema.Describes (t : String) (columns : List Column) : Prop :=
  Records tables (tableRow t) ∧ (∀ c ∈ columns, Records Schema.columns (columnRow t c.name c.domain.kind)) ∧
    columns ≠ []

/-- A table is made in one of two ways, of which one takes over a file that is there already. -/
theorem Catalog.makes_adopt (adopt : Bool) :
    (if adopt then Relation.createIfMissing else Relation.create) = Relation.create ∨
      (if adopt then Relation.createIfMissing else Relation.create) = Relation.createIfMissing := by
  cases adopt
  · exact .inl rfl
  · exact .inr rfl

/-- The database with the entries about a table that is still to be made. -/
def Database.announce (d : Database) (t : String) (handle : Handle) (added : List (Handle × ColumnEntry)) :
    Database :=
  { d with tables := d.tables ++ [(handle, some t)], columns := d.columns ++ Tape.ofLive added }

/-- Whether a database is another one with a table and the entries about it. -/
def Database.Adds (d : Database) (t : String) (columns : List Column) (d' : Database) : Prop :=
  columns ≠ [] ∧ ∃ handle added, added.map Prod.snd = columns.map (ColumnEntry.about t) ∧
    d' = d.withTable t columns handle added

/-- The log of the entries about a table. -/
def Catalog.announceLog (handle : Handle) (added : List (Handle × ColumnEntry)) : List Change :=
  (added.map Prod.fst).reverse.map (Change.inserted Schema.columns) ++ [.inserted Schema.tables handle]

theorem Catalog.announceLog_concat (handle : Handle) (added : List (Handle × ColumnEntry)) (h : Handle)
    (e : ColumnEntry) :
    announceLog handle (added ++ [(h, e)]) = .inserted Schema.columns h :: announceLog handle added := by
  rw [announceLog, announceLog, List.map_append, List.reverse_append, List.map_append]
  rfl

namespace Models

variable {l : Location} {sites : Sites} {c : Catalog} {fs : Files} {d : Database} {t : String}
  {columns : List Column} {handle : Handle} {added : List (Handle × ColumnEntry)}

/-- The entries about a table that is still to be made are taken back without a trace. -/
theorem rollBack_announced (h : Models l sites c fs (d.announce t handle added)) :
    ∃ c' fs' tables columns, (rollBack (Catalog.announceLog handle added)).apply c fs = (.ok (), c', fs') ∧
      tables.live = d.tables.live ∧ columns.live = d.columns.live ∧
      Models l sites c' fs' { d with tables := tables, columns := columns } := by
  have htables : (d.tables ++ [(handle, some t)]).Ascending :=
    ascending_roll (roll_tables (d.announce t handle added)) h
  have hcolumns : (d.columns ++ Tape.ofLive added).Ascending :=
    ascending_roll (roll_columns (d.announce t handle added)) h
  obtain ⟨c₂, fs₂, hroll, h₂⟩ := rollBack_entries (roll_columns (d.announce t handle added))
    [.inserted Schema.tables handle] (added.map Prod.fst).reverse _ c fs h
  obtain ⟨c₃, fs₃, hroll', h₃⟩ := rollBack_entries (roll_tables { d.announce t handle added with
    columns := (d.columns ++ Tape.ofLive added).clearAll (added.map Prod.fst).reverse }) []
    [handle] _ c₂ fs₂ h₂
  exact ⟨c₃, fs₃, _, _, hroll.trans hroll', htables.live_clearAll_append fun _ => Iff.rfl,
    hcolumns.live_clearAll_append fun _ => by rw [List.mem_reverse, Tape.handles_ofLive], h₃⟩

/-- A table that is still to be made is taken back without a trace. -/
theorem unmakeTable (h : Models l sites c fs (d.announce t handle added)) (hd : d.Sound l sites) :
    ∃ c' fs' d', (Catalog.unmakeTable t (Catalog.announceLog handle added)).apply c fs = (.ok (), c', fs') ∧
      Models l sites c' fs' d' ∧ d'.Sound l sites ∧ d.Same d' := by
  obtain ⟨c₁, h₁, -, hforget⟩ := h.forgetTable t
  obtain ⟨c₂, fs₂, tables, columns, hroll, htables, hcolumns, h₂⟩ := rollBack_announced h₁
  obtain ⟨hsound, hsame⟩ : Database.Sound l sites { d with tables := tables, columns := columns } ∧ d.Same _ :=
    hd.of_lists htables hcolumns rfl rfl rfl
  refine ⟨c₂, fs₂, _, ?_, h₂, hsound, hsame⟩
  rw [Catalog.unmakeTable, apply_bind_ok hforget]
  exact hroll

/-- The entries about the columns come one after the other, or the table is taken back. -/
theorem recordColumns (hd : d.Sound l sites) :
    ∀ (rest : List Column) (added : List (Handle × ColumnEntry)) (c : Catalog) (fs : Files),
      Models l sites c fs (d.announce t handle added) →
      (∃ e c' fs' d', (Catalog.recordColumns t (Catalog.announceLog handle added) rest).apply c fs =
          (.error e, c', fs') ∧ Models l sites c' fs' d' ∧ d'.Sound l sites ∧ d.Same d' ∧
        ∃ col ∈ rest, ¬ Schema.Records Schema.columns (Schema.columnRow t col.name col.domain.kind)) ∨
      ∃ c' fs' new, (Catalog.recordColumns t (Catalog.announceLog handle added) rest).apply c fs =
          (.ok (Catalog.announceLog handle (added ++ new)), c', fs') ∧
        Models l sites c' fs' (d.announce t handle (added ++ new)) ∧
        new.map Prod.snd = rest.map (ColumnEntry.about t) ∧
        ∀ col ∈ rest, Schema.Records Schema.columns (Schema.columnRow t col.name col.domain.kind)
  | [], added, c, fs, h => by
    refine .inr ⟨c, fs, [], ?_, ?_, rfl, nofun⟩ <;> rw [List.append_nil]
    · rfl
    · exact h
  | col :: rest, added, c, fs, h => by
    rw [Catalog.recordColumns]
    rcases h.insertEntry (roll_columns (d.announce t handle added)) (ColumnEntry.about t col) with
      ⟨e, c₁, hrec, hx, -, h₁⟩ | ⟨new, c₁, fs₁, hrec, hx, -, -, h₁⟩
    · obtain ⟨c', fs', d', hunmake, h', hd', hs⟩ := unmakeTable h₁ hd
      have hfailed := apply_onFailure_error hx (Catalog.unmakeTable t (Catalog.announceLog handle added))
      rw [hunmake] at hfailed
      exact .inl ⟨e, c', fs', d', apply_bind_error hfailed _, h', hd', hs, col, .head _, Schema.not_records hrec⟩
    · have hfirst := apply_onFailure_ok hx (Catalog.unmakeTable t (Catalog.announceLog handle added))
      rw [List.append_assoc, ← Tape.ofLive_concat] at h₁
      change Models l sites c₁ fs₁ (d.announce t handle (added ++ [(new, ColumnEntry.about t col)])) at h₁
      have hgo := apply_bind_ok hfirst fun new =>
        Catalog.recordColumns t (.inserted Schema.columns new :: Catalog.announceLog handle added) rest
      rw [← Catalog.announceLog_concat handle added new (ColumnEntry.about t col)] at hgo
      rcases recordColumns hd rest _ c₁ fs₁ h₁ with
        ⟨e, c', fs', d', hx', h', hd', hs, col', hm, hnot⟩ | ⟨c', fs', new', hx', h', hnew, hall⟩
      · exact .inl ⟨e, c', fs', d', hgo.trans hx', h', hd', hs, col', .tail _ hm, hnot⟩
      · rw [List.append_assoc] at hx' h'
        refine .inr ⟨c', fs', (new, ColumnEntry.about t col) :: new', hgo.trans hx', h', ?_, fun col' hm => ?_⟩
        · rw [List.map_cons, List.map_cons, hnew]
        · rcases List.mem_cons.1 hm with rfl | hm
          · exact hrec
          · exact hall col' hm

/-- A table that is announced is made if it has columns, and taken back otherwise. -/
theorem settles_raiseTable (h : Models l sites c fs (d.announce t handle added)) (hd : d.Sound l sites)
    (hs : .relation t ∈ sites) (hn : t ∉ Schema.names) (hc : d.table t = none)
    (hcols : ∀ col ∈ columns, col.domain.nullable = true)
    (hadded : added.map Prod.snd = columns.map (ColumnEntry.about t)) {make : Act StorageError Relation Unit}
    (hmake : make = Relation.create ∨ make = Relation.createIfMissing) :
    Settles l sites d ((Catalog.onRelation t make).onFailure
      (Catalog.unmakeTable t (Catalog.announceLog handle added))) c fs (columns ≠ []) (d.Adds t columns) := by
  obtain ⟨htable, hcolumns⟩ := ColumnEntry.of_about hadded hcols
  have hof : (d.announce t handle added).columnsOf t = columns := by
    rw [columnsOf_append htable rfl, if_pos rfl, hd.regular.columns t hn, hc, hcolumns]
    rfl
  have hmissing : (d.announce t handle added).content t = none := (content_of_not_mem hn).trans hc
  rcases h.makeTable hmake hs hmissing with ⟨hnil, e, c₁, h₁, hx⟩ | ⟨hne, c₁, fs₁, hx, h₁⟩
  · obtain ⟨c', fs', d', hunmake, h', hd', hsame⟩ := unmakeTable h₁ hd
    have hfailed := apply_onFailure_error hx (Catalog.unmakeTable t (Catalog.announceLog handle added))
    rw [hunmake] at hfailed
    exact .refused (fun hne => hne (hof.symm.trans hnil)) hfailed h' hd' hsame
  · rw [hof] at h₁ hne
    exact .done hne (apply_onFailure_ok hx _) h₁ (hd.withTable hn hc hne htable hcolumns)
      ⟨hne, handle, added, hadded, rfl⟩

/-- A table is made if it can be described. -/
theorem settles_makeTable (h : Models l sites c fs d) (hd : d.Sound l sites) (hs : .relation t ∈ sites)
    (hn : t ∉ Schema.names) (hc : d.table t = none) (hcols : ∀ col ∈ columns, col.domain.nullable = true)
    (adopt : Bool) :
    Settles l sites d (Catalog.makeTable t columns adopt) c fs (Schema.Describes t columns)
      (d.Adds t columns) := by
  rw [Catalog.makeTable]
  rcases h.insertEntry (roll_tables d) t with ⟨e, c₁, hrec, hx, -, h₁⟩ | ⟨handle, c₁, fs₁, hrec, hx, -, -, h₁⟩
  · obtain ⟨c₂, h₂, -, hforget⟩ := h₁.forgetTable t
    have hunmake : (Catalog.unmakeTable t []).apply c₁ fs = (.ok (), c₂, fs) := by
      rw [Catalog.unmakeTable, apply_bind_ok hforget]
      rfl
    have hfailed := apply_onFailure_error hx (Catalog.unmakeTable t [])
    rw [hunmake] at hfailed
    exact .refused (fun hdesc => Schema.not_records hrec hdesc.1) (apply_bind_error hfailed _) h₂ hd (.refl d)
  · have h₁ : Models l sites c₁ fs₁ (d.announce t handle []) := by
      rw [announce, Tape.append_ofLive_nil]
      exact h₁
    refine .of_apply (apply_bind_ok (apply_onFailure_ok hx _) _) ?_
    rcases recordColumns hd columns [] c₁ fs₁ h₁ with
      ⟨e, c', fs', d', hx', h', hd', hsame, col, hm, hnot⟩ | ⟨c₂, fs₂, added, hx', h₂, hadded, hall⟩
    · exact .refused (fun hdesc => hnot (hdesc.2.1 col hm)) (apply_bind_error hx' _) h' hd' hsame
    · rw [List.nil_append] at h₂ hx'
      refine .of_apply (apply_bind_ok hx' _) ((settles_raiseTable h₂ hd hs hn hc hcols hadded
        (Catalog.makes_adopt adopt)).mono ?_ fun _ _ hq => hq)
      rw [Schema.Describes, and_iff_right hrec, and_iff_right hall]

end Models

/-- CREATE TABLE, step by step. -/
theorem Catalog.createTable_eq (t : String) (declared : List Language.ColumnDeclaration)
    (ifNotExists : Bool) : createTable t declared ifNotExists = (do
      let columns ← .result (storableColumns [] declared)
      let listed ← (tableExists t).adapt Refusal.storage
      if listed then
        if ifNotExists then return .ofMessage (Refusal.tableExists t).message
        else throw (.tableExists t)
      else do
        (makeTable t columns ifNotExists).adapt Refusal.storage
        return .ofMessage s!"created {t}") := rfl

section
variable {l : Location} {sites : Sites} {c : Catalog} {fs : Files} {d d' : Database} {t : String}

/-- Whether CREATE TABLE does what it should: a table that is there may stay, and another must be described. -/
def Database.Creates (d : Database) (t : String) (declared : List Language.ColumnDeclaration)
    (ifNotExists : Bool) : Prop :=
  ∃ columns, Catalog.storableColumns [] declared = .ok columns ∧
    if d.tableHandles t = [] then Schema.Describes t columns else ifNotExists = true

/-- CREATE TABLE makes a table, or finds it there. -/
theorem settles_createTable (h : Models l sites c fs d) (hd : d.Sound l sites) (hs : .relation t ∈ sites)
    (declared : List Language.ColumnDeclaration) (ifNotExists : Bool) :
    Settles l sites d (Catalog.createTable t declared ifNotExists) c fs
      (d.Creates t declared ifNotExists) fun d' =>
        d.tableHandles t ≠ [] ∧ d' = d ∨ d.tableHandles t = [] ∧ ∃ columns,
          Catalog.storableColumns [] declared = .ok columns ∧ d.Adds t columns d' := by
  rw [Catalog.createTable_eq]
  refine (looks_result _).settles_bind h hd (fun e he => ?_) fun columns c₁ hcols h₁ => ?_
  · rintro ⟨columns, hok, -⟩
    rw [show Catalog.storableColumns [] declared = .error e from he] at hok
    cases hok
  · have hcols : Catalog.storableColumns [] declared = .ok columns := hcols
    have hcreates : d.Creates t declared ifNotExists ↔
        if d.tableHandles t = [] then Schema.Describes t columns else ifNotExists = true := by
      refine ⟨?_, fun h => ⟨columns, hcols, h⟩⟩
      rintro ⟨columns', hok, hrest⟩
      rw [hcols] at hok
      cases hok
      exact hrest
    obtain ⟨c₂, h₂, hlisted⟩ := (looks_tableExists t).known h₁ (value_tableExists h₁ t) Refusal.storage
    refine .of_apply (hlisted _) ?_
    by_cases hnil : d.tableHandles t = []
    · have hn : t ∉ Schema.names := fun hn => (hd.regular.listed t).2 (.inl hn) hnil
      have hc : d.table t = none := by
        by_contra hc
        exact (hd.regular.listed t).2 (.inr hc) hnil
      rw [if_neg (by rw [hnil]; decide)]
      refine Settles.mono (Settles.bind_pure ((h₂.settles_makeTable hd hs hn hc
        (Catalog.nullable_of_storableColumns hcols nofun) ifNotExists).adapt _) fun _ => _) ?_ ?_
      · rw [hcreates, if_pos hnil]
      · intro d' _ hadds
        exact .inr ⟨hnil, columns, hcols, hadds⟩
    · rw [if_pos (by simpa [List.isEmpty_iff] using hnil)]
      cases ifNotExists with
      | true =>
        refine settles_pure ?_ (.inl ⟨hnil, rfl⟩) h₂ hd _
        rw [hcreates, if_neg hnil]
      | false =>
        refine settles_throw ?_ h₂ hd _
        rw [hcreates, if_neg hnil]
        exact Bool.false_ne_true

end

/-! ## Dropping -/

/-- Drops an index of a table that is dropped, with the entries about it. -/
def Catalog.dropWithEntries (t i : String) : Act Refusal Catalog Unit := do
  (removeIndex t i).adapt Refusal.storage
  let handles ← (indexHandles t i).adapt Refusal.storage
  handles.forM fun h => (onIndices (Relation.delete h)).adapt Refusal.storage

/-- Clears the entries about the columns of a table. -/
def Catalog.clearColumns (t : String) : Act Refusal Catalog Unit := do
  let described ← (columnHandles t).adapt Refusal.storage
  described.forM fun h => (onColumns (Relation.delete h)).adapt Refusal.storage

/-- DROP TABLE, step by step. -/
theorem Catalog.dropTable_eq (t : String) : dropTable t =
    (if t ∈ Schema.names then throw .dropCatalogTable else do
      let handles ← (tableHandles t).adapt Refusal.storage
      if handles.isEmpty then throw (.tableMissing t) else do
        let names ← (indexNames t).adapt Refusal.storage
        names.forM (dropWithEntries t)
        let r ← (detach t).adapt Refusal.storage
        clearColumns t
        Act.adapt Refusal.storage (Relation.drop.within (fun _ => r) fun _ c => c)
        handles.forM fun h => (onTables (Relation.delete h)).adapt Refusal.storage
        return .ofMessage s!"dropped {t}") := by
  simp only [clearColumns, bind_assoc]
  rfl

/-- The database without some indices of a table. -/
def Database.withoutIndices (d : Database) (t : String) (names : List String) : Database :=
  names.foldl (·.withoutIndex t ·) d

theorem Database.table_withoutIndices (t : String) : ∀ (names : List String) (d : Database),
    (d.withoutIndices t names).tables = d.tables ∧ (d.withoutIndices t names).columns = d.columns ∧
      (d.withoutIndices t names).table = d.table
  | [], _ => ⟨rfl, rfl, rfl⟩
  | i :: names, d => table_withoutIndices t names (d.withoutIndex t i)

theorem Database.index_withoutIndices (t t' i : String) : ∀ (names : List String) (d : Database),
    (d.withoutIndices t names).index t' i = if t' = t ∧ i ∈ names then none else d.index t' i
  | [], d => by rw [if_neg fun h => nomatch h.2]; rfl
  | j :: names, d => by
    have hrest := index_withoutIndices t t' i names (d.withoutIndex t j)
    rw [index_withoutIndex] at hrest
    refine hrest.trans ?_
    by_cases ht : t' = t <;> by_cases hm : i ∈ names <;> by_cases hj : i = j <;> simp [ht, hm, hj]

/-- Without the indices that are listed a table has none. -/
theorem Database.Regular.index_withoutAll {l : Location} {sites : Sites} {d : Database} {t : String}
    (hd : d.Regular l sites) (i : String) : (d.withoutIndices t (d.indexNames t)).index t i = none := by
  rw [index_withoutIndices]
  split
  · rfl
  · rename_i he
    by_contra hx
    exact he ⟨rfl, mem_indexNames.2 ((hd.indexed t i).2 hx)⟩

namespace Models

variable {l : Location} {sites : Sites} {c : Catalog} {fs : Files} {d : Database} {t i : String}
  {ct : Content}

/-- An index that is listed goes with the entries about it. -/
theorem dropWithEntries (h : Models l sites c fs d) (hd : d.Sound l sites) (hx : d.index t i ≠ none) :
    ∃ c' fs', (Catalog.dropWithEntries t i).apply c fs = (.ok (), c', fs') ∧
      Models l sites c' fs' (d.withoutIndex t i) := by
  obtain ⟨ix, hx⟩ := Option.ne_none_iff_exists'.1 hx
  obtain ⟨ct, -, hs⟩ := hd.regular.stands t i ix hx
  rcases h.removeIndex (fun _ => hs.site) (.inl hx) hs.path_eq with
    ⟨fault, ix', c₁, hfault, hr, -⟩ | ⟨c₁, fs₁, -, hremove, h₁⟩
  · exact absurd (h.apart.remove_error hs.site hr) hfault
  · obtain ⟨c₂, h₂, hhandles⟩ := (looks_indexHandles t i).known h₁ (h₁.value_indexHandles t i) Refusal.storage
    obtain ⟨c', fs', hrows, -, h'⟩ := clearIndex h₂
    refine ⟨c', fs', ?_, h'⟩
    rw [Catalog.dropWithEntries, apply_bind_ok (by rw [apply_adapt, hremove]; rfl), hhandles]
    exact hrows

/-- The indices of a table go one after the other. -/
theorem dropIndices (t : String) : ∀ (names : List String) (c : Catalog) (fs : Files) (d : Database),
    Models l sites c fs d → d.Sound l sites → names.Nodup → (∀ i ∈ names, d.index t i ≠ none) →
    ∃ c' fs', (names.forM (Catalog.dropWithEntries t)).apply c fs = (.ok (), c', fs') ∧
      Models l sites c' fs' (d.withoutIndices t names) ∧ (d.withoutIndices t names).Sound l sites
  | [], c, fs, d, h, hd, _, _ => ⟨c, fs, rfl, h, hd⟩
  | i :: names, c, fs, d, h, hd, hn, hx => by
    obtain ⟨hi, hn⟩ := List.nodup_cons.1 hn
    obtain ⟨c₁, fs₁, hfirst, h₁⟩ := h.dropWithEntries hd (hx i (.head _))
    obtain ⟨c', fs', hrest, h', hd'⟩ := dropIndices t names c₁ fs₁ _ h₁
      (hd.withoutIndex h.ascending_indices t i) hn fun j hj => by
        rw [index_withoutIndex, if_neg fun (he : t = t ∧ j = i) => hi (he.2 ▸ hj)]
        exact hx j (.tail _ hj)
    refine ⟨c', fs', ?_, h', hd'⟩
    rw [List.forM_eq_forM, List.forM_cons, apply_bind_ok hfirst]
    exact hrest

/-- The entries about the columns of a table are cleared. -/
theorem clearColumns (h : Models l sites c fs d) (t : String) :
    ∃ c' fs', (Catalog.clearColumns t).apply c fs = (.ok (), c', fs') ∧ c.KeepsTables c' ∧
      Models l sites c' fs' { d with columns := d.columns.clearAll ((d.columnEntries t).map Prod.fst) } := by
  have hmem : Schema.columns ∈ Schema.names := by decide
  obtain ⟨r, hk⟩ := Catalog.exists_kept hmem c
  obtain ⟨r', hread, h₁⟩ := h.read (Relation.reads_select (some (Schema.tableRow t))) hk
  have hv := h.value_columnHandles t
  have hhandles : (Catalog.columnHandles t).apply c fs =
      (.ok ((d.columnEntries t).map Prod.fst), c.keep Schema.columns r', fs) := by
    rw [Catalog.columnHandles, Catalog.onColumns_eq, hread]
    rw [Catalog.columnHandles, Catalog.onColumns_eq, value, hread] at hv
    rw [show (Relation.select (some (Schema.tableRow t))).value r fs = _ from hv]
  obtain ⟨c', fs', hx, hk', h', -⟩ := h₁.deleteMeeting (roll_columns d) fun e => decide (e.2.table = t)
  refine ⟨c', fs', ?_, (Catalog.keepsTables_keep hmem c r').trans hk', h'⟩
  rw [Catalog.clearColumns, apply_bind_ok (by rw [apply_adapt, hhandles]; rfl), apply_forM_adapt, apply_adapt]
  exact congrArg (fun r => (r.1.mapError Refusal.storage, r.2)) hx

/-- The entries about a table itself are cleared. -/
theorem clearTable (h : Models l sites c fs d) (t : String) :
    ∃ c' fs', ((d.tableHandles t).forM fun handle =>
        (Catalog.onTables (Relation.delete handle)).adapt Refusal.storage).apply c fs = (.ok (), c', fs') ∧
      Models l sites c' fs' { d with tables := d.tables.clearAll (d.tableHandles t) } := by
  obtain ⟨c', fs', hx, -, h', -⟩ := h.deleteMeeting (roll_tables d) fun e => decide (e.2 = t)
  refine ⟨c', fs', ?_, h'⟩
  rw [apply_forM_adapt, apply_adapt]
  exact congrArg (fun r => (r.1.mapError Refusal.storage, r.2)) hx

end Models

section
variable {l : Location} {sites : Sites} {c : Catalog} {fs : Files} {d : Database} {t : String}

/-- DROP TABLE takes away a table that is there, with its indices and all entries about them. -/
theorem settles_dropTable (h : Models l sites c fs d) (hd : d.Sound l sites) (t : String) :
    Settles l sites d (Catalog.dropTable t) c fs (d.table t ≠ none)
      (· = (d.withoutIndices t (d.indexNames t)).withoutTable t) := by
  rw [Catalog.dropTable_eq]
  by_cases hn : t ∈ Schema.names
  · rw [if_pos hn]
    exact settles_throw (fun hc => hc (hd.regular.own t hn)) h hd _
  rw [if_neg hn]
  obtain ⟨c₁, h₁, hhandles⟩ := (looks_tableHandles t).known h (h.value_tableHandles t) Refusal.storage
  refine .of_apply (hhandles _) ?_
  by_cases hnil : d.tableHandles t = []
  · rw [if_pos (by rw [hnil]; rfl)]
    exact settles_throw (fun hc => (hd.regular.listed t).2 (.inr hc) hnil) h₁ hd _
  rw [if_neg (by rwa [List.isEmpty_iff])]
  obtain ⟨ct, hc⟩ := hd.regular.exists_table hn hnil
  obtain ⟨c₂, h₂, hnames⟩ := (looks_indexNames t).known h₁ (h₁.value_indexNames t) Refusal.storage
  refine .of_apply (hnames _) ?_
  -- first the indices go, then the entries about columns, the file, and the entries about the table
  obtain ⟨c₃, fs₃, hindices, h₃, hd₃⟩ := Models.dropIndices t (d.indexNames t) c₂ fs d h₂ hd
    (nodup_indexNames d t) fun i hi => (hd.regular.indexed t i).1 (mem_indexNames.1 hi)
  obtain ⟨htables, -, htable⟩ := table_withoutIndices t (d.indexNames t) d
  obtain ⟨r, c₄, hp, h₄, hk₄, hdetach⟩ := h₃.detach hd₃.regular.toDescribed hn ((congrFun htable t).trans hc)
  obtain ⟨c₅, fs₅, hcolumns, hk₅, h₅⟩ := h₄.clearColumns t
  obtain ⟨fs₆, hdrop, h₆⟩ := h₅.dropDetached hn ((congrFun htable t).trans hc) ((hk₅ t hn).trans hk₄) hp
  obtain ⟨c₇, fs₇, htables', h₇⟩ := h₆.clearTable t
  have hhandles₇ : (Database.setTable { d.withoutIndices t (d.indexNames t) with
      columns := (d.withoutIndices t (d.indexNames t)).columns.clearAll
        (((d.withoutIndices t (d.indexNames t)).columnEntries t).map Prod.fst) } t none).tableHandles t =
      d.tableHandles t := by
    change List.map Prod.fst ((d.withoutIndices t (d.indexNames t)).tables.live.filter _) = _
    rw [htables]
    rfl
  rw [hhandles₇] at htables'
  refine .done (a := .ofMessage s!"dropped {t}") (by rw [hc]; exact nofun) ?_ h₇
    (hd₃.withoutTable (Models.ascending_roll (roll_tables _) h₃) (Models.ascending_roll (roll_columns _) h₃)
      hn hd.regular.index_withoutAll) rfl
  rw [apply_bind_ok hindices, apply_bind_ok (by rw [apply_adapt, hdetach]; rfl), apply_bind_ok hcolumns,
    apply_bind_ok (by rw [apply_adapt, hdrop]; rfl), apply_bind_ok htables']
  rfl

end

end Rowbase
