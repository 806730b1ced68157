import Rowbase.Catalog.Basic
import Rowbase.Proofs.Acts
import Rowbase.Proofs.Walks

/-! # Acts that only read

Reading opens files, loads indices and remembers descriptions, but none of this can be told by a later
act. A view of a thing is all that can be told of it; an act reads if it changes neither files nor
view and returns what they say. What such acts return can then be worked out as if each were done on
the same thing. -/
namespace Rowbase

namespace Act

variable {ε σ V α β : Type} {view : σ → Files → V} {s s' : σ} {fs : Files}

/-- What an act returns. -/
def value (x : Act ε σ α) (s : σ) (fs : Files) : Except ε α := (x.apply s fs).1

/-- Whether an act changes nothing that a view shows, and depends on nothing else. -/
structure Reads (view : σ → Files → V) (x : Act ε σ α) : Prop where
  value_congr : ∀ {s s' : σ} {fs : Files}, view s fs = view s' fs → x.value s fs = x.value s' fs
  files_eq : ∀ s fs, (x.apply s fs).2.2 = fs
  view_eq : ∀ s fs, view (x.apply s fs).2.1 fs = view s fs

theorem reads_pure (a : α) : Reads view (pure a : Act ε σ α) where
  value_congr _ := rfl
  files_eq _ _ := rfl
  view_eq _ _ := rfl

theorem reads_throw (e : ε) : Reads view (throw e : Act ε σ α) where
  value_congr _ := rfl
  files_eq _ _ := rfl
  view_eq _ _ := rfl

theorem reads_look {f : σ → Files → Except ε α}
    (h : ∀ {s s' fs}, view s fs = view s' fs → f s fs = f s' fs) : Reads view (look f) where
  value_congr := h
  files_eq _ _ := rfl
  view_eq _ _ := rfl

theorem reads_result (r : Except ε α) : Reads view (result r : Act ε σ α) := reads_look fun _ => rfl

theorem Reads.apply_eq {x : Act ε σ α} (hx : Reads view x) (s : σ) (fs : Files) :
    ∃ s', x.apply s fs = (x.value s fs, s', fs) ∧ view s' fs = view s fs := by
  refine ⟨_, Prod.ext rfl (Prod.ext rfl ?_), hx.view_eq s fs⟩
  exact hx.files_eq s fs

theorem Reads.value_bind {x : Act ε σ α} {f : α → Act ε σ β} (hx : Reads view x)
    (hf : ∀ a, Reads view (f a)) (s : σ) (fs : Files) :
    (x >>= f).value s fs = x.value s fs >>= fun a => (f a).value s fs := by
  obtain ⟨s', ha, hv⟩ := hx.apply_eq s fs
  rw [value, apply_bind, ha]
  cases x.value s fs with
  | error e => rfl
  | ok a => exact (hf a).value_congr hv

theorem Reads.bind {x : Act ε σ α} {f : α → Act ε σ β} (hx : Reads view x)
    (hf : ∀ a, Reads view (f a)) : Reads view (x >>= f) where
  value_congr h := by
    rw [hx.value_bind hf, hx.value_bind hf, hx.value_congr h]
    exact congrArg _ (funext fun a => (hf a).value_congr h)
  files_eq s fs := by
    obtain ⟨s', ha, -⟩ := hx.apply_eq s fs
    rw [apply_bind, ha]
    cases x.value s fs with
    | error e => rfl
    | ok a => exact (hf a).files_eq s' fs
  view_eq s fs := by
    obtain ⟨s', ha, hv⟩ := hx.apply_eq s fs
    rw [apply_bind, ha]
    cases x.value s fs with
    | error e => exact hv
    | ok a => exact ((hf a).view_eq s' fs).trans hv

theorem value_adapt {ε' : Type} (g : ε → ε') (x : Act ε σ α) (s : σ) (fs : Files) :
    (x.adapt g).value s fs = (x.value s fs).mapError g := rfl

theorem Reads.adapt {ε' : Type} {x : Act ε σ α} (hx : Reads view x) (g : ε → ε') :
    Reads view (x.adapt g) where
  value_congr h := congrArg (Except.mapError g) (hx.value_congr h)
  files_eq s fs := hx.files_eq s fs
  view_eq s fs := hx.view_eq s fs

theorem reads_mapM {f : α → Act ε σ β} (hf : ∀ a, Reads view (f a)) :
    ∀ items : List α, Reads view (items.mapM f)
  | [] => by
    rw [List.mapM_nil]
    exact reads_pure _
  | item :: items => by
    rw [List.mapM_cons]
    exact (hf item).bind fun _ => (reads_mapM hf items).bind fun _ => reads_pure _

theorem value_mapM {f : α → Act ε σ β} (hf : ∀ a, Reads view (f a)) (s : σ) (fs : Files) :
    ∀ items : List α, (items.mapM f).value s fs = items.mapM fun item => (f item).value s fs
  | [] => by
    rw [List.mapM_nil, List.mapM_nil]
    rfl
  | item :: items => by
    rw [List.mapM_cons, List.mapM_cons, (hf item).value_bind fun _ =>
      (reads_mapM hf items).bind fun _ => reads_pure _]
    refine congrArg _ (funext fun b => ?_)
    rw [(reads_mapM hf items).value_bind fun _ => reads_pure _, value_mapM hf s fs items]
    rfl

theorem reads_filterM {f : α → Act ε σ Bool} (hf : ∀ a, Reads view (f a)) :
    ∀ items : List α, Reads view (items.filterM f)
  | [] => by
    rw [filterM_nil]
    exact reads_pure _
  | item :: items => by
    rw [filterM_cons]
    exact (hf item).bind fun _ => (reads_filterM hf items).bind fun _ => reads_pure _

theorem value_filterM {f : α → Act ε σ Bool} (hf : ∀ a, Reads view (f a)) (s : σ) (fs : Files) :
    ∀ items : List α, (items.filterM f).value s fs = items.filterM fun item => (f item).value s fs
  | [] => by
    rw [filterM_nil, filterM_nil]
    rfl
  | item :: items => by
    rw [filterM_cons, filterM_cons, (hf item).value_bind fun _ =>
      (reads_filterM hf items).bind fun _ => reads_pure _]
    refine congrArg _ (funext fun b => ?_)
    rw [(reads_filterM hf items).value_bind fun _ => reads_pure _, value_filterM hf s fs items]
    rfl

end Act

/-! ## Relations -/

namespace Relation

open Act

variable {r : Relation} {fs : Files}

/-- What can be told of a relation: its description, and what comes of opening it. -/
def view (r : Relation) (fs : Files) :
    (String × List Column × String) × Except StorageError Heap.BlockFile :=
  ((r.name, r.columns, r.file.path), r.file.opened fs)

theorem opened_of_opened {b b' : Heap.BlockFile} (h : b.opened fs = .ok b') :
    b'.opened fs = .ok b' ∧ b'.path = b.path := by
  rw [Heap.BlockFile.opened] at h
  split at h
  · rename_i ho
    cases h
    rw [Heap.BlockFile.opened, if_pos ho]
    exact ⟨rfl, rfl⟩
  · split at h
    · cases h
    · cases h
    · cases h
      exact ⟨rfl, rfl⟩

theorem apply_opening (r : Relation) (fs : Files) :
    opening.apply r fs = match r.file.opened fs with
      | .error e => (.error e, r, fs)
      | .ok file => (.ok (), { r with file }, fs) := by
  cases h : r.file.opened fs with
  | error e => exact apply_change_error (by rw [h]; rfl)
  | ok file => exact apply_change_ok (by rw [h]; rfl)

/-- What is looked at in a relation is that of the open relation. -/
theorem value_opening_look {α : Type} (f : Relation → Files → Except StorageError α) :
    (do opening; Act.look f : Act StorageError Relation α).value r fs =
      r.file.opened fs >>= fun file => f { r with file } fs := by
  rw [value, apply_bind, apply_opening]
  cases r.file.opened fs <;> rfl

theorem reads_opening_look {α : Type} (f : Relation → Files → Except StorageError α) :
    Reads view (do opening; Act.look f : Act StorageError Relation α) where
  value_congr {r r' fs} h := by
    obtain ⟨hd, ho⟩ := Prod.mk.inj h
    obtain ⟨hn, hd⟩ := Prod.mk.inj hd
    obtain ⟨hc, -⟩ := Prod.mk.inj hd
    rw [value_opening_look, value_opening_look, ho]
    refine congrArg _ (funext fun file => ?_)
    rw [hn, hc]
  files_eq r fs := by
    rw [apply_bind, apply_opening]
    cases r.file.opened fs <;> rfl
  view_eq r fs := by
    rw [apply_bind, apply_opening]
    cases h : r.file.opened fs with
    | error e => rfl
    | ok file =>
      obtain ⟨ho, hp⟩ := opened_of_opened h
      rw [view, view, h]
      change ((r.name, r.columns, file.path), file.opened fs) = _
      rw [ho, hp]

theorem reads_select (condition : Option Row) : Reads view (select condition) :=
  reads_opening_look _

theorem reads_project (h : Handle) (columns : List String) : Reads view (project h columns) :=
  reads_opening_look _

/-- Looking at no more than the name and the columns of a relation. -/
theorem reads_look_description {α : Type} (f : String → List Column → Except StorageError α) :
    Reads view (Act.look fun r _ => f r.name r.columns) := by
  refine reads_look fun {r r' fs} h => ?_
  obtain ⟨hd, -⟩ := Prod.mk.inj h
  obtain ⟨hn, hd⟩ := Prod.mk.inj hd
  rw [hn, (Prod.mk.inj hd).1]

theorem reads_keep (condition : Row) (handles : List Handle) : Reads view (keep condition handles) :=
  reads_filterM (fun h => (reads_project h []).bind fun row =>
    reads_look_description fun name _ => row.meets condition name) handles

end Relation

/-! ## Indices -/

namespace Index

open Act

variable {ix : Index} {fs : Files}

/-- The map of an index once it is loaded. -/
def contents (ix : Index) (fs : Files) :
    Except StorageError (Std.TreeMap Key (List Handle) Key.compare) :=
  (load.value ix fs).map fun _ => (load.apply ix fs).2.1.map

/-- The index with its map loaded. -/
def withMap (ix : Index) (map : Std.TreeMap Key (List Handle) Key.compare) : Index :=
  { ix with map, loaded := true }

/-- What can be told of an index: its description, and what comes of loading it. -/
def view (ix : Index) (fs : Files) : (String × String × List String × Bool × String) ×
    Except StorageError (Std.TreeMap Key (List Handle) Key.compare) :=
  ((ix.table, ix.name, ix.columns, ix.unique, ix.path), ix.contents fs)

theorem contents_of_loaded (h : ix.loaded = true) : ix.contents fs = .ok ix.map := by
  have hx : load.apply ix fs = (.ok (), ix, fs) := apply_change_ok (if_pos h)
  rw [contents, value, hx]
  rfl

/-- An index that is not loaded has what its file has. -/
theorem contents_of_unloaded (hl : ix.loaded = false) : ix.contents fs = match fs.read ix.path with
    | .error .notFound => .error (.relation (.indexMissing ix.name ix.table))
    | .error .isDirectory => .error (.indexDocument (.unreadable .isDirectory))
    | .error e => .error (.file e)
    | .ok bytes => match Document.ofBytes? bytes with
      | none => .error (.indexDocument .malformed)
      | some d => .ok (.ofList d.entries _) := by
  rw [contents, value, load, apply_change, if_neg (by rw [hl]; nofun)]
  cases fs.read ix.path with
  | error e => cases e <;> rfl
  | ok bytes => dsimp only; cases Document.ofBytes? bytes <;> rfl

theorem contents_congr {fs' : Files} (hl : ix.loaded = false) (hr : fs'.read ix.path = fs.read ix.path) :
    ix.contents fs' = ix.contents fs := by
  rw [contents_of_unloaded hl, contents_of_unloaded hl, hr]

theorem apply_load (ix : Index) (fs : Files) :
    load.apply ix fs = match ix.contents fs with
      | .error e => (.error e, ix, fs)
      | .ok map => (.ok (), ix.withMap map, fs) := by
  by_cases h : ix.loaded = true
  · rw [contents_of_loaded h]
    refine apply_change_ok ?_
    rw [if_pos h, withMap, ← h]
  · have hx : (∃ e, load.apply ix fs = (.error e, ix, fs)) ∨
        ∃ map, load.apply ix fs = (.ok (), ix.withMap map, fs) := by
      rw [load, apply_change, if_neg h]
      split
      · exact .inl ⟨_, rfl⟩
      · rename_i hm
        split at hm
        · cases hm
        · cases hm
        · cases hm
        · split at hm
          · cases hm
          · cases hm
            exact .inr ⟨_, rfl⟩
    rcases hx with ⟨e, hx⟩ | ⟨map, hx⟩ <;> rw [contents, value, hx] <;> rfl

theorem value_load_look {α : Type} (f : Index → Files → Except StorageError α) :
    (do load; Act.look f : Act StorageError Index α).value ix fs =
      ix.contents fs >>= fun map => f (ix.withMap map) fs := by
  rw [value, apply_bind, apply_load]
  cases ix.contents fs <;> rfl

theorem reads_load_look {α : Type} (f : Index → Files → Except StorageError α) :
    Reads view (do load; Act.look f : Act StorageError Index α) where
  value_congr {ix ix' fs} h := by
    simp only [view, Prod.mk.injEq] at h
    obtain ⟨⟨ht, hn, hc, hu, hp⟩, hm⟩ := h
    rw [value_load_look, value_load_look, hm]
    refine congrArg _ (funext fun map => ?_)
    rw [withMap, withMap, ht, hn, hc, hu, hp]
  files_eq ix fs := by
    rw [apply_bind, apply_load]
    cases ix.contents fs <;> rfl
  view_eq ix fs := by
    rw [apply_bind, apply_load]
    cases h : ix.contents fs with
    | error e => rfl
    | ok map =>
      change (ix.withMap map).view fs = _
      rw [view, view, h, contents_of_loaded rfl]
      rfl

theorem reads_lookup (row : Row) : Reads view (lookup row) := reads_load_look _

end Index

/-! ## The catalog -/

/-- The catalog has three relations of its own. -/
theorem Schema.mem_names {name : String} : name ∈ names ↔ name = tables ∨ name = columns ∨ name = indices := by
  simp only [names, List.mem_cons, List.not_mem_nil, or_false]

namespace Catalog

open Act

variable {c c' : Catalog} {fs : Files} {V α : Type}

/-- What can be told of the relations that describe the others. -/
def core (c : Catalog) (fs : Files) :=
  (c.location, c.tables.view fs, c.columns.view fs, c.indices.view fs)

/-- The relation that a table is by its description. -/
def described (c : Catalog) (fs : Files) (table : String) : Except StorageError Relation := do
  let columns ← (columnsOf table).value c fs
  if columns.isEmpty then .error (.relation (.relationMissing table))
  else .ok (Relation.describe table columns (c.location.relationPath table))

/-- The relation that an act on a table is done on. -/
def relation (c : Catalog) (fs : Files) (table : String) : Except StorageError Relation :=
  if table = Schema.tables then .ok c.tables
  else if table = Schema.columns then .ok c.columns
  else if table = Schema.indices then .ok c.indices
  else match c.relations.get? table with
    | some r => .ok r
    | none => c.described fs table

/-- The index that an index is by its description, not yet loaded. -/
def describedIndex (c : Catalog) (fs : Files) (table index : String) : Except StorageError Index := do
  let definition ← (indexDefinition table index).value c fs
  if definition.1.isEmpty then .error (.relation (.indexMissing index table))
  else .ok { table, name := index, columns := definition.1, unique := definition.2,
             path := c.location.indexPath table index }

/-- The index that an act on an index is done on. -/
def index (c : Catalog) (fs : Files) (table index : String) : Except StorageError Index :=
  match c.indexes.get? (table, index) with
  | some ix => .ok ix
  | none => c.describedIndex fs table index

/-- What can be told of a catalog: its own relations, and those that its tables and indices are. -/
def view (c : Catalog) (fs : Files) :=
  (c.core fs, (fun table => (c.relation fs table).map (Relation.view · fs)),
    fun table index => (c.index fs table index).map (Index.view · fs))

/-- A view that shows at least the catalog's own relations and at most these and what was used. -/
structure Shows (v : Catalog → Files → V) : Prop where
  core_congr : ∀ {c c' fs}, v c fs = v c' fs → core c fs = core c' fs
  congr : ∀ {c c' : Catalog} {fs}, core c fs = core c' fs → c.relations = c'.relations →
    c.indexes = c'.indexes → v c fs = v c' fs

theorem shows_core : Shows core where
  core_congr h := h
  congr h _ _ := h

theorem reads_onTables {v : Catalog → Files → V} (hv : Shows v) {x : Act StorageError Relation α}
    (hx : Reads Relation.view x) : Reads v (onTables x) where
  value_congr h := hx.value_congr (Prod.mk.inj (Prod.mk.inj (hv.core_congr h)).2).1
  files_eq c fs := hx.files_eq c.tables fs
  view_eq c fs := by
    refine hv.congr ?_ rfl rfl
    change (_, (x.apply c.tables fs).2.1.view fs, _) = _
    rw [hx.view_eq]
    rfl

theorem reads_onColumns {v : Catalog → Files → V} (hv : Shows v) {x : Act StorageError Relation α}
    (hx : Reads Relation.view x) : Reads v (onColumns x) where
  value_congr h := hx.value_congr (Prod.mk.inj (Prod.mk.inj (Prod.mk.inj (hv.core_congr h)).2).2).1
  files_eq c fs := hx.files_eq c.columns fs
  view_eq c fs := by
    refine hv.congr ?_ rfl rfl
    change (_, _, (x.apply c.columns fs).2.1.view fs, _) = _
    rw [hx.view_eq]
    rfl

theorem reads_onIndices {v : Catalog → Files → V} (hv : Shows v) {x : Act StorageError Relation α}
    (hx : Reads Relation.view x) : Reads v (onIndices x) where
  value_congr h := hx.value_congr (Prod.mk.inj (Prod.mk.inj (Prod.mk.inj (hv.core_congr h)).2).2).2
  files_eq c fs := hx.files_eq c.indices fs
  view_eq c fs := by
    refine hv.congr ?_ rfl rfl
    change (_, _, _, (x.apply c.indices fs).2.1.view fs) = _
    rw [hx.view_eq]
    rfl

/-- Whether reading the catalog's own relations keeps what is said of a catalog. -/
def Withstands (P : Catalog → Files → Prop) : Prop :=
  ∀ (α : Type) (name : String) (x : Act StorageError Relation α), name ∈ Schema.names → Reads Relation.view x →
    Preserves P (onRelation name x)

/-- Whether an act does no more than read the catalog's own relations. -/
structure Surveys {ε α : Type} (x : Act ε Catalog α) : Prop where
  reads : ∀ {V : Type} {v : Catalog → Files → V}, Shows v → Reads v x
  preserves : ∀ {P : Catalog → Files → Prop}, Withstands P → Preserves P x

theorem surveys_pure {ε : Type} (a : α) : Surveys (pure a : Act ε Catalog α) :=
  ⟨fun _ => reads_pure a, fun _ => preserves_pure a⟩

theorem surveys_throw {ε : Type} (e : ε) : Surveys (throw e : Act ε Catalog α) :=
  ⟨fun _ => reads_throw e, fun _ => preserves_throw e⟩

theorem surveys_result {ε : Type} (r : Except ε α) : Surveys (result r : Act ε Catalog α) :=
  ⟨fun _ => reads_result r, fun _ => preserves_result r⟩

theorem Surveys.bind {ε β : Type} {x : Act ε Catalog α} {f : α → Act ε Catalog β} (hx : Surveys x)
    (hf : ∀ a, Surveys (f a)) : Surveys (x >>= f) :=
  ⟨fun hv => (hx.reads hv).bind fun a => (hf a).reads hv,
    fun hP => (hx.preserves hP).bind fun a => (hf a).preserves hP⟩

theorem Surveys.adapt {ε ε' : Type} {x : Act ε Catalog α} (hx : Surveys x) (g : ε → ε') : Surveys (x.adapt g) :=
  ⟨fun hv => (hx.reads hv).adapt g, fun hP => (hx.preserves hP).adapt⟩

theorem surveys_mapM {ε β : Type} {f : α → Act ε Catalog β} (hf : ∀ a, Surveys (f a)) (items : List α) :
    Surveys (items.mapM f) :=
  ⟨fun hv => reads_mapM (fun a => (hf a).reads hv) items, fun hP => preserves_mapM (fun a => (hf a).preserves hP) items⟩

theorem surveys_onTables {x : Act StorageError Relation α} (hx : Reads Relation.view x) : Surveys (onTables x) :=
  ⟨fun hv => reads_onTables hv hx, fun hP => hP α Schema.tables x (by decide) hx⟩

theorem surveys_onColumns {x : Act StorageError Relation α} (hx : Reads Relation.view x) : Surveys (onColumns x) :=
  ⟨fun hv => reads_onColumns hv hx, fun hP => hP α Schema.columns x (by decide) hx⟩

theorem surveys_onIndices {x : Act StorageError Relation α} (hx : Reads Relation.view x) : Surveys (onIndices x) :=
  ⟨fun hv => reads_onIndices hv hx, fun hP => hP α Schema.indices x (by decide) hx⟩

theorem surveys_tableHandles (table : String) : Surveys (tableHandles table) :=
  surveys_onTables (Relation.reads_select _)

theorem surveys_tableExists (table : String) : Surveys (tableExists table) :=
  (surveys_tableHandles table).bind fun _ => surveys_pure _

theorem surveys_columnHandles (table : String) : Surveys (columnHandles table) :=
  surveys_onColumns (Relation.reads_select _)

theorem surveys_tableIndexHandles (table : String) : Surveys (tableIndexHandles table) :=
  surveys_onIndices (Relation.reads_select _)

theorem surveys_indexHandles (table index : String) : Surveys (indexHandles table index) :=
  surveys_onIndices (Relation.reads_select _)

theorem surveys_columnsOf (table : String) : Surveys (columnsOf table) :=
  (surveys_columnHandles table).bind fun handles =>
    surveys_mapM (fun h => (surveys_onColumns (Relation.reads_project h [])).bind fun _ => surveys_result _) handles

theorem surveys_indexDefinition (table index : String) : Surveys (indexDefinition table index) :=
  (surveys_indexHandles table index).bind fun handles =>
    (surveys_mapM (fun h => (surveys_onIndices (Relation.reads_project h [])).bind fun _ => surveys_result _)
      handles).bind fun _ => surveys_pure _

theorem surveys_indexNames (table : String) : Surveys (indexNames table) :=
  (surveys_tableIndexHandles table).bind fun handles =>
    (surveys_mapM (fun h => (surveys_onIndices (Relation.reads_project h _)).bind fun _ => surveys_result _)
      handles).bind fun _ => surveys_pure _

theorem surveys_indexOutlines (table : String) : Surveys (indexOutlines table) :=
  (surveys_indexNames table).bind fun names =>
    surveys_mapM (fun name => (surveys_indexDefinition table name).bind fun _ => surveys_pure _) names

theorem described_congr (h : core c fs = core c' fs) (table : String) :
    c.described fs table = c'.described fs table := by
  have hloc : c.location = c'.location := (Prod.mk.inj h).1
  rw [described, described, hloc, ((surveys_columnsOf table).reads shows_core).value_congr h]

theorem describedIndex_congr (h : core c fs = core c' fs) (table index : String) :
    c.describedIndex fs table index = c'.describedIndex fs table index := by
  have hloc : c.location = c'.location := (Prod.mk.inj h).1
  rw [describedIndex, describedIndex, hloc,
    ((surveys_indexDefinition table index).reads shows_core).value_congr h]

theorem shows_view : Shows view where
  core_congr h := (Prod.mk.inj h).1
  congr {c c' fs} hcore hr hi := by
    have ht : ∀ table, (c.relation fs table).map (Relation.view · fs) =
        (c'.relation fs table).map (Relation.view · fs) := by
      intro table
      rw [relation, relation, hr, described_congr hcore]
      simp only [core, Prod.mk.injEq] at hcore
      obtain ⟨-, h1, h2, h3⟩ := hcore
      split
      · exact congrArg Except.ok h1
      · split
        · exact congrArg Except.ok h2
        · split
          · exact congrArg Except.ok h3
          · rfl
    have hx : ∀ table index, (c.index fs table index).map (Index.view · fs) =
        (c'.index fs table index).map (Index.view · fs) := by
      intro table index
      rw [Catalog.index, Catalog.index, hi, describedIndex_congr hcore]
    rw [view, view, hcore, funext ht, funext fun table => funext (hx table)]

theorem relation_of_view (h : view c fs = view c' fs) (table : String) :
    (c.relation fs table).map (Relation.view · fs) =
      (c'.relation fs table).map (Relation.view · fs) :=
  congrFun (congrArg (fun v => v.2.1) h) table

theorem index_of_view (h : view c fs = view c' fs) (table index : String) :
    (c.index fs table index).map (Index.view · fs) =
      (c'.index fs table index).map (Index.view · fs) :=
  congrFun (congrFun (congrArg (fun v => v.2.2) h) table) index

/-! ### Using a table -/

theorem relation_of_not_mem {table : String} (hn : table ∉ Schema.names) :
    c.relation fs table = match c.relations.get? table with
      | some r => .ok r
      | none => c.described fs table := by
  rw [Schema.mem_names, not_or, not_or] at hn
  rw [relation, if_neg hn.1, if_neg hn.2.1, if_neg hn.2.2]

theorem relation_insert {table : String} (hn : table ∉ Schema.names) (r : Relation) :
    relation { c with relations := c.relations.insert table r } fs table = .ok r := by
  rw [relation_of_not_mem hn, Bindings.get?_insert, if_pos rfl]

/-- Putting a relation back that looks as before changes nothing. -/
theorem view_insert_relation {table : String} {r : Relation} (hn : table ∉ Schema.names)
    (hr : (c.relation fs table).map (Relation.view · fs) = .ok (r.view fs)) :
    view { c with relations := c.relations.insert table r } fs = view c fs := by
  have ht : ∀ name, (relation { c with relations := c.relations.insert table r } fs name).map
      (Relation.view · fs) = (c.relation fs name).map (Relation.view · fs) := by
    intro name
    by_cases he : name = table
    · subst he
      rw [hr, relation_insert hn]
      rfl
    · have hd : described { c with relations := c.relations.insert table r } fs name =
          c.described fs name := by
        refine described_congr ?_ name
        rfl
      rw [relation, relation, Bindings.get?_insert, if_neg he, hd]
  have hx : ∀ name index, (Catalog.index { c with relations := c.relations.insert table r } fs name
      index).map (Index.view · fs) = (c.index fs name index).map (Index.view · fs) := by
    intro name index
    have hd : describedIndex { c with relations := c.relations.insert table r } fs name index =
        c.describedIndex fs name index := by
      refine describedIndex_congr ?_ name index
      rfl
    rw [Catalog.index, Catalog.index, hd]
  rw [view, view, funext ht, funext fun name => funext (hx name)]
  rfl

theorem apply_remember {table : String} (hn : table ∉ Schema.names) (c : Catalog) (fs : Files) :
    ∃ c', (remember table).apply c fs = (c.relation fs table, c', fs) ∧ view c' fs = view c fs ∧
      ∀ r, c.relation fs table = .ok r → c'.relation fs table = .ok r := by
  rw [remember, apply_bind_ok (apply_thing c fs)]
  cases hg : c.relations.get? table with
  | some r =>
    have hc : c.relation fs table = .ok r := by rw [relation_of_not_mem hn, hg]
    rw [hc]
    exact ⟨c, rfl, rfl, fun _ h => hc.trans h⟩
  | none =>
    obtain ⟨c₁, hx, hv⟩ := ((surveys_columnsOf table).reads shows_view).apply_eq c fs
    have hc : c.relation fs table = c.described fs table := by rw [relation_of_not_mem hn, hg]
    have hloc : c₁.location = c.location := congrArg (·.1.1) hv
    cases hcols : (columnsOf table).value c fs with
    | error e =>
      rw [hcols] at hx
      rw [apply_bind_error hx, hc, described, hcols]
      exact ⟨c₁, rfl, hv, nofun⟩
    | ok columns =>
      rw [hcols] at hx
      rw [apply_bind_ok hx, hc, described, hcols]
      change ∃ c', _ = (if columns.isEmpty then Except.error _ else _, c', fs) ∧ _ ∧
        ∀ r, (if columns.isEmpty then Except.error _ else _) = Except.ok r → _
      by_cases he : columns.isEmpty = true
      · rw [if_pos he, if_pos he]
        exact ⟨c₁, rfl, hv, nofun⟩
      · rw [if_neg he, if_neg he]
        have hr : (c₁.relation fs table).map (Relation.view · fs) =
            .ok ((Relation.describe table columns (c₁.location.relationPath table)).view fs) := by
          rw [relation_of_view hv, hc, described, hcols, hloc]
          change Except.map _ (if columns.isEmpty then Except.error _ else _) = _
          rw [if_neg he]
          rfl
        refine ⟨_, ?_, (view_insert_relation hn hr).trans hv, fun r h => ?_⟩
        · rw [← hloc]
          rfl
        · cases h
          rw [relation_insert hn, hloc]

theorem onRelation_of_not_mem {table : String} (hn : table ∉ Schema.names)
    (x : Act StorageError Relation α) : onRelation table x = (do
      let r ← remember table
      x.within (fun _ => r) fun r c => { c with relations := c.relations.insert table r }) := by
  rw [Schema.mem_names, not_or, not_or] at hn
  rw [onRelation, if_neg hn.1, if_neg hn.2.1, if_neg hn.2.2]

theorem value_onRelation (table : String) (x : Act StorageError Relation α) (c : Catalog) (fs : Files) :
    (onRelation table x).value c fs = c.relation fs table >>= fun r => x.value r fs := by
  by_cases hn : table ∈ Schema.names
  · rw [onRelation, relation]
    split
    · rfl
    · split
      · rfl
      · split
        · rfl
        · rename_i h1 h2 h3
          simp [Schema.names, h1, h2, h3] at hn
  · obtain ⟨c₁, hx, -⟩ := apply_remember hn c fs
    rw [onRelation_of_not_mem hn, value, apply_bind, hx]
    cases c.relation fs table <;> rfl

/-- Reading a table changes nothing that can be told of the catalog. -/
theorem reads_onRelation (table : String) {x : Act StorageError Relation α}
    (hx : Reads Relation.view x) : Reads view (onRelation table x) := by
  by_cases hn : table ∈ Schema.names
  · rw [onRelation]
    split
    · exact reads_onTables shows_view hx
    · split
      · exact reads_onColumns shows_view hx
      · split
        · exact reads_onIndices shows_view hx
        · rename_i h1 h2 h3
          simp [Schema.names, h1, h2, h3] at hn
  · refine ⟨fun {c c' fs} h => ?_, fun c fs => ?_, fun c fs => ?_⟩
    · rw [value_onRelation, value_onRelation]
      exact bind_congr_of_map (relation_of_view h table) fun _ _ h => hx.value_congr h
    · obtain ⟨c₁, ha, -⟩ := apply_remember hn c fs
      rw [onRelation_of_not_mem hn, apply_bind, ha]
      cases c.relation fs table with
      | error e => rfl
      | ok r => exact hx.files_eq r fs
    · obtain ⟨c₁, ha, hv, hr⟩ := apply_remember hn c fs
      rw [onRelation_of_not_mem hn, apply_bind, ha]
      cases hc : c.relation fs table with
      | error e => exact hv
      | ok r =>
        refine (view_insert_relation hn ?_).trans hv
        rw [hr r hc]
        exact congrArg Except.ok (hx.view_eq r fs).symm

/-! ### Using an index -/

theorem index_insert {table index : String} (ix : Index) :
    Catalog.index { c with indexes := c.indexes.insert (table, index) ix } fs table index = .ok ix := by
  rw [Catalog.index, Bindings.get?_insert, if_pos rfl]

/-- Putting an index back that looks as before changes nothing. -/
theorem view_insert_index {table index : String} {ix : Index}
    (hi : (c.index fs table index).map (Index.view · fs) = .ok (ix.view fs)) :
    view { c with indexes := c.indexes.insert (table, index) ix } fs = view c fs := by
  have ht : ∀ name, relation { c with indexes := c.indexes.insert (table, index) ix } fs name =
      c.relation fs name := by
    intro name
    have hd : described { c with indexes := c.indexes.insert (table, index) ix } fs name =
        c.described fs name := by
      refine described_congr ?_ name
      rfl
    rw [relation, relation, hd]
  have hx : ∀ name other, (Catalog.index { c with indexes := c.indexes.insert (table, index) ix } fs
      name other).map (Index.view · fs) = (c.index fs name other).map (Index.view · fs) := by
    intro name other
    by_cases he : (name, other) = (table, index)
    · cases he
      rw [hi, index_insert]
      rfl
    · have hd : describedIndex { c with indexes := c.indexes.insert (table, index) ix } fs name other =
          c.describedIndex fs name other := by
        refine describedIndex_congr ?_ name other
        rfl
      rw [Catalog.index, Catalog.index, hd, Bindings.get?_insert, if_neg he]
  rw [view, view, funext fun name => funext (hx name), funext fun name => congrArg _ (ht name)]
  rfl

theorem apply_rememberIndex (table index : String) (c : Catalog) (fs : Files) :
    ∃ c', (rememberIndex table index).apply c fs = (c.index fs table index, c', fs) ∧
      view c' fs = view c fs ∧
      ∀ ix, c.index fs table index = .ok ix → c'.index fs table index = .ok ix := by
  rw [rememberIndex, apply_bind_ok (apply_thing c fs)]
  cases hg : c.indexes.get? (table, index) with
  | some ix =>
    have hc : c.index fs table index = .ok ix := by rw [Catalog.index, hg]
    rw [hc]
    exact ⟨c, rfl, rfl, fun _ h => hc.trans h⟩
  | none =>
    obtain ⟨c₁, hx, hv⟩ := ((surveys_indexDefinition table index).reads shows_view).apply_eq c fs
    have hc : c.index fs table index = c.describedIndex fs table index := by rw [Catalog.index, hg]
    have hloc : c₁.location = c.location := congrArg (·.1.1) hv
    cases hdef : (indexDefinition table index).value c fs with
    | error e =>
      rw [hdef] at hx
      rw [apply_bind_error hx, hc, describedIndex, hdef]
      exact ⟨c₁, rfl, hv, nofun⟩
    | ok definition =>
      obtain ⟨columns, unique⟩ := definition
      rw [hdef] at hx
      rw [apply_bind_ok hx, hc, describedIndex, hdef]
      dsimp only
      change ∃ c', _ = (if columns.isEmpty then Except.error _ else _, c', fs) ∧ _ ∧
        ∀ ix, (if columns.isEmpty then Except.error _ else _) = Except.ok ix → _
      by_cases he : columns.isEmpty = true
      · rw [if_pos he, if_pos he]
        exact ⟨c₁, rfl, hv, nofun⟩
      · rw [if_neg he, if_neg he]
        have hi : (c₁.index fs table index).map (Index.view · fs) =
            .ok (Index.view { table, name := index, columns, unique,
                              path := c₁.location.indexPath table index } fs) := by
          rw [index_of_view hv, hc, describedIndex, hdef, hloc]
          change Except.map _ (if columns.isEmpty then Except.error _ else _) = _
          rw [if_neg he]
          rfl
        refine ⟨_, ?_, (view_insert_index hi).trans hv, fun ix h => ?_⟩
        · rw [← hloc]
          rfl
        · cases h
          rw [index_insert, hloc]

theorem value_onIndex (table index : String) (x : Act StorageError Index α) (c : Catalog) (fs : Files) :
    (onIndex table index x).value c fs = c.index fs table index >>= fun ix => x.value ix fs := by
  obtain ⟨c₁, hx, -⟩ := apply_rememberIndex table index c fs
  rw [onIndex, value, apply_bind, hx]
  cases c.index fs table index <;> rfl

/-- Reading an index changes nothing that can be told of the catalog. -/
theorem reads_onIndex (table index : String) {x : Act StorageError Index α} (hx : Reads Index.view x) :
    Reads view (onIndex table index x) := by
  refine ⟨fun {c c' fs} h => ?_, fun c fs => ?_, fun c fs => ?_⟩
  · rw [value_onIndex, value_onIndex]
    exact bind_congr_of_map (index_of_view h table index) fun _ _ h => hx.value_congr h
  · obtain ⟨c₁, ha, -⟩ := apply_rememberIndex table index c fs
    rw [onIndex, apply_bind, ha]
    cases c.index fs table index with
    | error e => rfl
    | ok ix => exact hx.files_eq ix fs
  · obtain ⟨c₁, ha, hv, hi⟩ := apply_rememberIndex table index c fs
    rw [onIndex, apply_bind, ha]
    cases hc : c.index fs table index with
    | error e => exact hv
    | ok ix =>
      refine (view_insert_index ?_).trans hv
      rw [hi ix hc]
      exact congrArg Except.ok (hx.view_eq ix fs).symm

end Catalog

end Rowbase
