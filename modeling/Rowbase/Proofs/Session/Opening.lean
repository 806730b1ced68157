import Rowbase.Proofs.Session.Tables

/-! # Setting a database up

Where nothing lies yet, the describing relations are made one after the other. The first of them lists no
table then, so they describe themselves. -/
namespace Rowbase

open Database Act Files

/-- Whether a database can begin at a place. Its directory can be made, a file can then be made for each of
some relations and indices, and the files are shared no more than is said. -/
structure Location.Suits (l : Location) (sites : Sites) (fs : Files) : Prop where
  directory : (fs.makeDirectories l.directory).1 = .ok ()
  free : ∀ s ∈ sites, ∃ id fs', (fs.makeDirectories l.directory).2.create (l.pathOf s) = .ok (id, fs')
  distinct : ∀ s ∈ sites, sites.Sole s → ∀ s' ∈ sites,
    (fs.makeDirectories l.directory).2.locate (l.pathOf s) =
      (fs.makeDirectories l.directory).2.locate (l.pathOf s') → s' = s

section
variable {l : Location} {sites : Sites} {fs : Files} {s : Site}

theorem Location.suits_iff : l.Suits sites fs ↔ (fs.makeDirectories l.directory).1 = .ok () ∧
    (∀ s ∈ sites.all, ((fs.makeDirectories l.directory).2.create (l.pathOf s)).isOk = true) ∧
    ∀ s ∈ sites.all, sites.Sole s → ∀ s' ∈ sites.all,
      (fs.makeDirectories l.directory).2.locate (l.pathOf s) =
        (fs.makeDirectories l.directory).2.locate (l.pathOf s') → s' = s := by
  have hok : ∀ {x : Except Fault (Nat × Files)}, x.isOk = true ↔ ∃ id fs', x = .ok (id, fs') := by
    intro x
    cases x with
    | error e => exact iff_of_false nofun fun ⟨_, _, h⟩ => nomatch h
    | ok made => exact iff_of_true rfl ⟨made.1, made.2, rfl⟩
  exact ⟨fun h => ⟨h.directory, fun s hs => hok.2 (h.free s hs), h.distinct⟩,
    fun ⟨hd, hf, hs⟩ => ⟨hd, fun s hm => hok.1 (hf s hm), hs⟩⟩

instance (l : Location) (sites : Sites) (fs : Files) : Decidable (l.Suits sites fs) :=
  decidable_of_iff' _ Location.suits_iff

theorem Location.Suits.missing (h : l.Suits sites fs) (hs : s ∈ sites) :
    (fs.makeDirectories l.directory).2.find (l.pathOf s) = .error .notFound := by
  obtain ⟨id, fs', hc⟩ := h.free s hs
  obtain ⟨names, hl, hn, -⟩ := create_eq_ok.1 hc
  exact find_of_node? (locateFile_eq_ok.1 hl).2 hn

theorem Location.Suits.apart (h : l.Suits sites fs) : Apart l sites (fs.makeDirectories l.directory).2 where
  located s hs := by
    obtain ⟨id, fs', hc⟩ := h.free s hs
    obtain ⟨names, hl, hn, -⟩ := create_eq_ok.1 hc
    exact ⟨names, hl, by rw [hn]; exact nofun⟩
  stored s hs id hf := by
    rw [h.missing hs] at hf
    cases hf
  alone s hs s' _ id hf _ := by
    rw [h.missing hs] at hf
    cases hf
  unshared := h.distinct

end

/-! ## The describing relations -/

/-- A database that has nothing but entries about tables and columns. -/
def Database.listing (tables : Tape String) (columns : Tape ColumnEntry) : Database :=
  ⟨tables, columns, [], fun _ => none, fun _ _ => none⟩

/-- Whether a catalog keeps nothing but the describing relations, of which some are made. -/
structure Catalog.Begun (l : Location) (sites : Sites) (made : List String) (c : Catalog) (fs : Files) :
    Prop where
  location : c.location = l
  directory : fs.makeDirectories l.directory = (.ok (), fs)
  apart : Apart l sites fs
  indexes : ∀ key, c.indexes.get? key = none
  kept : ∀ name r, c.kept name = some r → name ∈ Schema.names ∧
    if name ∈ made then r.Serves l fs name (Schema.columnsOf name) []
    else r = Relation.describe name (Schema.columnsOf name) (l.relationPath name)
  missing : ∀ name, .relation name ∈ sites → name ∉ made →
    fs.find (l.relationPath name) = .error .notFound
  unindexed : ∀ t i, .index t i ∈ sites → fs.find (l.indexPath t i) = .error .notFound

theorem Catalog.kept_blank {name : String} (hn : name ∈ Schema.names) (l : Location) : (blank l).kept name =
    some (Relation.describe name (Schema.columnsOf name) (l.relationPath name)) := by
  rcases Schema.mem_names.1 hn with rfl | rfl | rfl <;> rfl

namespace Models

variable {l : Location} {sites : Sites} {made : List String} {c : Catalog} {fs : Files}
  {name : String}

theorem begun_blank (h : l.Suits sites fs) :
    (Catalog.blank l).Begun l sites [] (fs.makeDirectories l.directory).2 where
  location := rfl
  directory := makeDirectories_of_keeps h.directory (.refl _)
  apart := h.apart
  indexes _ := rfl
  kept name r hk := by
    by_cases hn : name ∈ Schema.names
    · refine ⟨hn, ?_⟩
      rw [if_neg List.not_mem_nil]
      rcases Schema.mem_names.1 hn with rfl | rfl | rfl <;> exact (Option.some.inj hk).symm
    · rw [Catalog.kept_of_not_mem hn] at hk
      cases hk
  missing name hs _ := (h.missing hs :)
  unindexed t i hs := (h.missing hs :)

/-- One more describing relation is made. -/
theorem begin (h : c.Begun l sites made fs) (hs : ∀ name ∈ Schema.names, .relation name ∈ sites)
    (hn : name ∈ Schema.names) (hm : name ∉ made) : ∃ c' fs',
      (Catalog.onRelation name Relation.createIfMissing).apply c fs = (.ok (), c', fs') ∧
      c'.Begun l sites (name :: made) fs' := by
  obtain ⟨r, hk⟩ := Catalog.exists_kept hn c
  have hr := (h.kept name r hk).2
  rw [if_neg hm] at hr
  obtain ⟨r', fs', hx, hb, hserves⟩ := Relation.createIfMissing_serves h.apart (hs name hn)
    (h.missing name (hs name hn) hm)
    (show r.name = name by rw [hr]; rfl) (show r.columns = Schema.columnsOf name by rw [hr]; rfl)
    (show r.file.path = l.relationPath name by rw [hr]; rfl) (show r.file.relation = name by rw [hr]; rfl)
  refine ⟨c.keep name r', fs', by rw [Catalog.onRelation_of_kept hk, hx], ?_, hb.directory h.directory, hb.apart,
    ?_, ?_, ?_, ?_⟩
  · rw [Catalog.location_keep, h.location]
  · rw [Catalog.indexes_keep]
    exact h.indexes
  · intro other r₁ hk₁
    rw [Catalog.kept_keep] at hk₁
    by_cases he : other = name
    · subst he
      rw [if_pos rfl] at hk₁
      cases hk₁
      rw [if_pos (.head _)]
      exact ⟨hn, hserves⟩
    · rw [if_neg he] at hk₁
      obtain ⟨ho, hr₁⟩ := h.kept other r₁ hk₁
      refine ⟨ho, ?_⟩
      by_cases hom : other ∈ made
      · rw [if_pos hom] at hr₁
        rw [if_pos (.tail _ hom)]
        exact hr₁.frame hb (hs other ho) (locate_ne h.apart (hs name hn) (hs other ho) he)
      · rw [if_neg hom] at hr₁
        rwa [if_neg fun hc => (List.mem_cons.1 hc).elim he hom]
  · intro other ho hom
    obtain ⟨hne, hom⟩ := not_or.1 (mt List.mem_cons.2 hom)
    exact (hb.find _ ho (locate_ne h.apart (hs name hn) ho hne)).trans (h.missing other ho hom)
  · intro t i ho
    exact (hb.find _ ho (locate_index_ne h.apart (hs name hn) t i)).trans (h.unindexed t i ho)

/-- When all three are made, the catalog models a database that has nothing. -/
theorem of_begun (h : c.Begun l sites made fs) (hs : ∀ name ∈ Schema.names, .relation name ∈ sites)
    (hm : ∀ name, name ∈ made ↔ name ∈ Schema.names) : Models l sites c fs (.listing [] []) := by
  have hcontent : ∀ name, name ∈ Schema.names → (listing [] []).content name = some ⟨Schema.columnsOf name, []⟩ := by
    intro name hn
    rcases Schema.mem_names.1 hn with rfl | rfl | rfl <;> rfl
  have hserves : ∀ name r, c.kept name = some r → name ∈ Schema.names ∧
      r.Serves l fs name (Schema.columnsOf name) [] := by
    intro name r hk
    obtain ⟨hn, hr⟩ := h.kept name r hk
    rw [if_pos ((hm name).2 hn)] at hr
    exact ⟨hn, hr⟩
  have hnone : ∀ name, name ∉ Schema.names → (listing [] []).content name = none :=
    fun name hn => content_of_not_mem hn
  refine ⟨h.location, h.directory, h.apart, fun name r hk => ?_, fun name ct hc => ?_, fun name ho hc => ?_,
    fun t i => h.indexes (t, i), fun _ t i ho => h.unindexed t i ho⟩
  · obtain ⟨hn, hr⟩ := hserves name r hk
    exact ⟨_, hcontent name hn, hr⟩
  · by_cases hn : name ∈ Schema.names
    · rw [hcontent name hn] at hc
      cases hc
      obtain ⟨r, hk⟩ := Catalog.exists_kept hn c
      exact ⟨hs name hn, (hserves name r hk).2.described⟩
    · rw [hnone name hn] at hc
      cases hc
  · refine h.missing name ho fun hmade => ?_
    rw [hcontent name ((hm name).1 hmade)] at hc
    cases hc

/-! ## Describing what describes -/

/-- The entries about the columns of some describing relations. -/
def ownColumns (names : List String) : List ColumnEntry :=
  names.flatMap fun name => (Schema.columnsOf name).map (ColumnEntry.about name)

/-- What the describing relations say of themselves makes records. -/
theorem records_own : ∀ name ∈ Schema.names, Schema.Records Schema.tables (Schema.tableRow name) ∧
    ∀ column ∈ Schema.columnsOf name,
      Schema.Records Schema.columns (Schema.columnRow name column.name column.domain.kind) := by
  decide +kernel

/-- The describing relations are described one after the other. -/
theorem describe :
    ∀ (names : List String) (tables : Tape String) (columns : Tape ColumnEntry) (c : Catalog) (fs : Files),
      (∀ name ∈ names, name ∈ Schema.names) → Models l sites c fs (.listing tables columns) →
      ∃ c' fs' tables' columns', (names.forM fun name => do
            discard (Catalog.onTables (Relation.insert (Schema.tableRow name)))
            (Schema.columnsOf name).forM fun column => do
              discard (Catalog.onColumns (Relation.insert
                (Schema.columnRow name column.name column.domain.kind)))).apply c fs = (.ok (), c', fs') ∧
        Models l sites c' fs' (.listing tables' columns') ∧
        tables'.live.map Prod.snd = tables.live.map Prod.snd ++ names ∧
        columns'.live.map Prod.snd = columns.live.map Prod.snd ++ ownColumns names
  | [], tables, columns, c, fs, _, h =>
    ⟨c, fs, tables, columns, rfl, h, (List.append_nil _).symm, (List.append_nil _).symm⟩
  | name :: names, tables, columns, c, fs, hn, h => by
    obtain ⟨htable, hcolumns⟩ := records_own name (hn name (.head _))
    rcases h.insertEntry (roll_tables (.listing tables columns)) name with
      ⟨e, -, hrec, -⟩ | ⟨handle, c₁, fs₁, -, hx, -, -, h₁⟩
    · exact absurd htable (Schema.not_records hrec)
    obtain ⟨res, c₂, fs₂, new, hx₂, -, -, h₂, -, -, hres⟩ := insertEntries
      (roll_columns (.listing (tables ++ [(handle, some name)]) columns))
      (ColumnEntry.about name) (Schema.columnsOf name) columns c₁ fs₁ h₁
    rcases hres with ⟨-, column, hcol, hrec⟩ | ⟨rfl, -, hnew⟩
    · exact absurd (hcolumns column hcol) hrec
    obtain ⟨c', fs', tables', columns', hx', h', ht', hc'⟩ := describe names (tables ++ [(handle, some name)])
      (columns ++ Tape.ofLive new) c₂ fs₂ (fun other ho => hn other (.tail _ ho)) h₂
    refine ⟨c', fs', tables', columns', ?_, h', ?_, ?_⟩
    · have hdiscard : (discard (Catalog.onTables (Relation.insert (Schema.tableRow name)))).apply c fs =
          (.ok (), c₁, fs₁) := by
        rw [apply_discard, Catalog.onTables_eq, hx]
        rfl
      rw [List.forM_eq_forM, List.forM_cons, bind_assoc, apply_bind_ok hdiscard]
      exact (apply_bind_ok hx₂ _).trans hx'
    · rw [ht', Tape.live_append, List.map_append, List.append_assoc]
      rfl
    · rw [hc', Tape.live_append, Tape.live_ofLive, List.map_append, hnew, List.append_assoc]
      rfl

end Models

/-! ## Databases that are set up -/

/-- Whether a database has no tables but those that describe it, and describes these. -/
structure Database.Fresh (d : Database) : Prop where
  tables : d.tables.live.map Prod.snd = Schema.names
  columns : d.columns.live.map Prod.snd = Models.ownColumns Schema.names
  indices : d.indices.live = []
  table : ∀ t, d.table t = none
  index : ∀ t i, d.index t i = none

namespace Database.Fresh

variable {l : Location} {sites : Sites} {d : Database}

theorem indexEntries_eq_nil (h : d.Fresh) (t i : String) : d.indexEntries t i = [] := by
  rw [indexEntries, h.indices]
  rfl

theorem columnsOf_eq_nil (h : d.Fresh) {t : String} (hn : t ∉ Schema.names) : d.columnsOf t = [] := by
  rw [columnsOf, columnEntries, List.map_eq_nil_iff, List.filter_eq_nil_iff]
  intro e he hc
  have hm : e.2 ∈ Models.ownColumns Schema.names := h.columns ▸ List.mem_map_of_mem he
  obtain ⟨name, hname, hm⟩ := List.mem_flatMap.1 hm
  obtain ⟨column, -, heq⟩ := List.mem_map.1 hm
  refine hn ?_
  rw [← of_decide_eq_true hc, ← heq]
  exact hname

theorem tableHandles_ne_nil (h : d.Fresh) (t : String) : d.tableHandles t ≠ [] ↔ t ∈ Schema.names := by
  rw [ne_eq, tableHandles, List.map_eq_nil_iff, List.filter_eq_nil_iff, ← h.tables, List.mem_map]
  constructor
  · intro hne
    push Not at hne
    obtain ⟨e, he, hc⟩ := hne
    exact ⟨e, he, of_decide_eq_true hc⟩
  · rintro ⟨e, he, rfl⟩ hall
    exact hall e he (decide_eq_true rfl)

theorem sound (h : d.Fresh) : d.Sound l sites where
  regular := {
    columns := fun t hn => by
      rw [h.columnsOf_eq_nil hn, h.table]
      rfl
    nonempty := fun t ct hc => by
      rw [h.table] at hc
      cases hc
    own := fun t _ => h.table t
    listed := fun t => by
      rw [h.tableHandles_ne_nil, h.table]
      exact (or_iff_left fun hc => hc rfl).symm
    indexed := fun t i => by
      rw [indexEntries, h.indices, h.index]
      exact iff_of_false (fun hc => hc rfl) fun hc => hc rfl
    stands := fun t i ix hx => by
      rw [h.index] at hx
      cases hx }
  exact t i ix hx := by
    rw [h.index] at hx
    cases hx

end Database.Fresh

/-- Where a database can begin, setting it up makes one that has nothing but its own description. -/
theorem Models.setUp {l : Location} {sites : Sites} {fs : Files} (h : l.Suits sites fs)
    (hs : ∀ name ∈ Schema.names, .relation name ∈ sites) :
    ∃ c fs' d, Catalog.setUp.apply (.blank l) fs = (.ok (), c, fs') ∧ Models l sites c fs' d ∧ d.Fresh := by
  have hdirectory : Catalog.makeDirectory.apply (.blank l) fs =
      (.ok (), .blank l, (fs.makeDirectories l.directory).2) := by
    change (((fs.makeDirectories l.directory).1.mapError StorageError.file), _, _) = _
    rw [h.directory]
    rfl
  obtain ⟨c₁, fs₁, hx₁, h₁⟩ := begin (begun_blank h) hs (by decide : Schema.tables ∈ Schema.names) nofun
  obtain ⟨c₂, fs₂, hx₂, h₂⟩ := begin h₁ hs (by decide : Schema.columns ∈ Schema.names) (by decide)
  obtain ⟨c₃, fs₃, hx₃, h₃⟩ := begin h₂ hs (by decide : Schema.indices ∈ Schema.names) (by decide)
  have hbare := of_begun h₃ hs fun name => by
    simp only [Schema.mem_names, List.mem_cons, List.not_mem_nil, or_false]
    tauto
  -- no table is listed yet
  obtain ⟨c₄, hx₄, h₄⟩ := (looks_onTables (Relation.reads_select none)).apply hbare
  rw [show (Catalog.onTables (Relation.select none)).value c₃ fs₃ = .ok [] from
    hbare.serves_tables.lists.select] at hx₄
  obtain ⟨c', fs', tables, columns, hx', h', htables, hcolumns⟩ :=
    describe Schema.names [] [] c₄ fs₃ (fun _ hn => hn) h₄
  refine ⟨c', fs', _, ?_, h', htables, hcolumns, rfl, fun _ => rfl, fun _ _ => rfl⟩
  rw [Catalog.setUp, apply_bind_ok hdirectory, Catalog.onTables_eq, apply_bind_ok hx₁, Catalog.onColumns_eq,
    apply_bind_ok hx₂, Catalog.onIndices_eq, apply_bind_ok hx₃, apply_bind_ok hx₄]
  exact hx'

end Rowbase
