import Rowbase.Proofs.Database.Relation
import Rowbase.Session.Basic

/-! # Databases

A database is three lists of entries about tables, columns and indices, with the rows of each table and
the map of each index. A catalog models one if what it keeps and what lies in the files is just that.
An act on one relation changes the database in this one place. -/
namespace Rowbase

open Files (Apart Beside)

/-- An entry of the catalog about a column of a table. -/
structure ColumnEntry where
  table : String
  name : String
  kind : Kind

/-- An entry of the catalog about a column of an index. -/
structure IndexEntry where
  table : String
  index : String
  place : Nat
  column : String
  kind : Language.IndexKind

/-- The entry about a column of a table. -/
def ColumnEntry.about (t : String) (column : Column) : ColumnEntry := ⟨t, column.name, column.domain.kind⟩

/-- The entry about a column of an index at its place. -/
def IndexEntry.atPlace (t i : String) (kind : Language.IndexKind) (column : String × Nat) : IndexEntry :=
  ⟨t, i, column.2, column.1, kind⟩

def ColumnEntry.row (e : ColumnEntry) : Row := Schema.columnRow e.table e.name e.kind

def ColumnEntry.column (e : ColumnEntry) : Column := ⟨e.name, { kind := e.kind }⟩

def IndexEntry.row (e : IndexEntry) : Row := Schema.indexRow e.table e.index e.place e.column e.kind

/-- What a relation has. -/
structure Content where
  columns : List Column
  rows : Tape Row

/-- A database, apart from how it is kept. -/
structure Database where
  tables : Tape String
  columns : Tape ColumnEntry
  indices : Tape IndexEntry
  /-- The tables that are not the catalog's own. -/
  table : String → Option Content
  index : String → String → Option Index

namespace Database

variable {d d' : Database} {name t : String}

/-- What the relation of a name has. -/
def content (d : Database) (name : String) : Option Content :=
  if name = Schema.tables then some ⟨Schema.columnsOf name, d.tables.image Schema.tableRow⟩
  else if name = Schema.columns then some ⟨Schema.columnsOf name, d.columns.image ColumnEntry.row⟩
  else if name = Schema.indices then some ⟨Schema.columnsOf name, d.indices.image IndexEntry.row⟩
  else d.table name

/-- The database with another table of a name. -/
def setTable (d : Database) (t : String) (content : Option Content) : Database :=
  { d with table := fun other => if other = t then content else d.table other }

/-- The database with another index of a name. -/
def setIndex (d : Database) (t i : String) (ix : Option Index) : Database :=
  { d with index := fun t' i' => if t' = t ∧ i' = i then ix else d.index t' i' }

/-- Whether two databases differ in no more than what one relation has. -/
structure Becomes (d : Database) (name : String) (content : Option Content) (d' : Database) : Prop where
  content : ∀ other, d'.content other = if other = name then content else d.content other
  index : d'.index = d.index

theorem content_of_not_mem (hn : name ∉ Schema.names) : d.content name = d.table name := by
  rw [Schema.mem_names, not_or, not_or] at hn
  rw [content, if_neg hn.1, if_neg hn.2.1, if_neg hn.2.2]

theorem becomes_self {ct : Option Content} (h : d.content name = ct) : d.Becomes name ct d := by
  refine ⟨fun other => ?_, rfl⟩
  split
  · rename_i he
    rw [he, h]
  · rfl

theorem becomes_tables (tape : Tape String) : d.Becomes Schema.tables
    (some ⟨Schema.columnsOf Schema.tables, tape.image Schema.tableRow⟩) { d with tables := tape } := by
  refine ⟨fun other => ?_, rfl⟩
  by_cases he : other = Schema.tables
  · rw [if_pos he, content, if_pos he, he]
  · rw [if_neg he, content, content, if_neg he, if_neg he]

theorem becomes_columns (tape : Tape ColumnEntry) : d.Becomes Schema.columns
    (some ⟨Schema.columnsOf Schema.columns, tape.image ColumnEntry.row⟩) { d with columns := tape } := by
  refine ⟨fun other => ?_, rfl⟩
  by_cases he : other = Schema.columns
  · rw [if_pos he, content, he]
    rfl
  · rw [if_neg he, content, content, if_neg he, if_neg he]

theorem becomes_indices (tape : Tape IndexEntry) : d.Becomes Schema.indices
    (some ⟨Schema.columnsOf Schema.indices, tape.image IndexEntry.row⟩) { d with indices := tape } := by
  refine ⟨fun other => ?_, rfl⟩
  by_cases he : other = Schema.indices
  · rw [if_pos he, content, he]
    rfl
  · rw [if_neg he, content, content, if_neg he, if_neg he]

theorem becomes_setTable (hn : t ∉ Schema.names) (ct : Option Content) :
    d.Becomes t ct (d.setTable t ct) := by
  refine ⟨fun other => ?_, rfl⟩
  by_cases he : other = t
  · rw [if_pos he, he, content_of_not_mem hn]
    exact if_pos rfl
  · rw [if_neg he]
    by_cases ho : other ∈ Schema.names
    · rcases Schema.mem_names.1 ho with rfl | rfl | rfl <;> rfl
    · rw [content_of_not_mem ho, content_of_not_mem ho]
      exact if_neg he

end Database

/-! ## What a catalog keeps -/

namespace Catalog

variable {c c' : Catalog} {name other : String} {r r' : Relation}

/-- The relation that is kept under a name. -/
def kept (c : Catalog) (name : String) : Option Relation :=
  if name = Schema.tables then some c.tables
  else if name = Schema.columns then some c.columns
  else if name = Schema.indices then some c.indices
  else c.relations.get? name

/-- The catalog with a relation kept under a name. -/
def keep (c : Catalog) (name : String) (r : Relation) : Catalog :=
  if name = Schema.tables then { c with tables := r }
  else if name = Schema.columns then { c with columns := r }
  else if name = Schema.indices then { c with indices := r }
  else { c with relations := c.relations.insert name r }

theorem kept_of_not_mem (hn : name ∉ Schema.names) : c.kept name = c.relations.get? name := by
  rw [Schema.mem_names, not_or, not_or] at hn
  rw [kept, if_neg hn.1, if_neg hn.2.1, if_neg hn.2.2]

theorem keep_of_not_mem (hn : name ∉ Schema.names) :
    c.keep name r = { c with relations := c.relations.insert name r } := by
  rw [Schema.mem_names, not_or, not_or] at hn
  rw [keep, if_neg hn.1, if_neg hn.2.1, if_neg hn.2.2]

/-- The catalog's own relations are always kept. -/
theorem exists_kept (hn : name ∈ Schema.names) (c : Catalog) : ∃ r, c.kept name = some r := by
  rcases Schema.mem_names.1 hn with rfl | rfl | rfl <;> exact ⟨_, rfl⟩

theorem kept_keep : (c.keep name r).kept other = if other = name then some r else c.kept other := by
  by_cases hn : name ∈ Schema.names
  · rcases Schema.mem_names.1 hn with rfl | rfl | rfl <;> simp only [keep, kept, Schema.tables, Schema.columns,
      Schema.indices] <;> split_ifs <;> simp_all
  · rw [keep_of_not_mem hn]
    by_cases ho : other ∈ Schema.names
    · have hne : other ≠ name := fun he => hn (he ▸ ho)
      rw [if_neg hne]
      rcases Schema.mem_names.1 ho with rfl | rfl | rfl <;> rfl
    · rw [kept_of_not_mem ho, kept_of_not_mem ho, Bindings.get?_insert]

@[simp] theorem location_keep : (c.keep name r).location = c.location := by
  rw [keep]
  split_ifs <;> rfl

@[simp] theorem indexes_keep : (c.keep name r).indexes = c.indexes := by
  rw [keep]
  split_ifs <;> rfl

theorem apply_remember_of_kept (hn : name ∉ Schema.names) (hk : c.kept name = some r) (fs : Files) :
    (remember name).apply c fs = (.ok r, c, fs) := by
  rw [kept_of_not_mem hn] at hk
  rw [remember, Act.apply_bind_ok (Act.apply_thing c fs), hk]
  rfl

/-- An act on a relation that is kept. -/
theorem onRelation_of_kept {α : Type} (hk : c.kept name = some r) (x : Act StorageError Relation α)
    (fs : Files) : (onRelation name x).apply c fs =
      ((x.apply r fs).1, c.keep name (x.apply r fs).2.1, (x.apply r fs).2.2) := by
  by_cases hn : name ∈ Schema.names
  · rcases Schema.mem_names.1 hn with rfl | rfl | rfl <;> cases hk <;> rfl
  · rw [onRelation_of_not_mem hn, Act.apply_bind_ok (apply_remember_of_kept hn hk fs), keep_of_not_mem hn]
    rfl

theorem onTables_eq {α : Type} (x : Act StorageError Relation α) : onTables x = onRelation Schema.tables x :=
  rfl

theorem onColumns_eq {α : Type} (x : Act StorageError Relation α) :
    onColumns x = onRelation Schema.columns x := rfl

theorem onIndices_eq {α : Type} (x : Act StorageError Relation α) :
    onIndices x = onRelation Schema.indices x := rfl

end Catalog

/-! ## Models -/

/-- Whether the file at a path is the one of an index that is loaded, or none is there if none is loaded. -/
def Index.Filed (o : Option Index) (fs : Files) (path : String) : Prop :=
  match o.filter (·.loaded) with
  | some ix => fs.read path = .ok ix.document.bytes
  | none => fs.find path = .error .notFound

/-- Whether a catalog and files model a database at a place, of whose files some may be made. -/
structure Models (l : Location) (sites : Sites) (c : Catalog) (fs : Files) (d : Database) : Prop where
  location : c.location = l
  directory : fs.makeDirectories l.directory = (.ok (), fs)
  apart : Apart l sites fs
  kept : ∀ name r, c.kept name = some r → ∃ ct, d.content name = some ct ∧
    r.Serves l fs name ct.columns ct.rows
  stored : ∀ name ct, d.content name = some ct → .relation name ∈ sites ∧
    (Relation.describe name ct.columns (l.relationPath name)).Serves l fs name ct.columns ct.rows
  missing : ∀ name, .relation name ∈ sites → d.content name = none →
    fs.find (l.relationPath name) = .error .notFound
  index : ∀ t i, c.indexes.get? (t, i) = d.index t i
  filed : sites.exclusive = true → ∀ t i, .index t i ∈ sites → Index.Filed (d.index t i) fs (l.indexPath t i)

namespace Index.Filed

variable {l : Location} {sites : Sites} {s : Site} {fs fs' : Files} {o : Option Index} {ix : Index}
  {path : String}

theorem of_loaded (hl : ix.loaded = true) (h : fs.read path = .ok ix.document.bytes) :
    Filed (some ix) fs path := by
  rw [Filed, Option.filter_some_pos hl]
  exact h

theorem read_of_loaded (h : Filed (some ix) fs path) (hl : ix.loaded = true) :
    fs.read path = .ok ix.document.bytes := by
  rwa [Filed, Option.filter_some_pos hl] at h

theorem none_iff : Filed none fs path ↔ fs.find path = .error .notFound := Iff.rfl

theorem unloaded_iff (hl : ix.loaded = false) : Filed (some ix) fs path ↔ Filed none fs path := by
  rw [Filed, Option.filter_some_neg (by rw [hl])]
  exact Iff.rfl

/-- The file of an index stays as it is where something happens to another one. -/
theorem frame (h : Filed o fs (l.pathOf s)) (hb : Beside l sites path fs fs') (hs : s ∈ sites)
    (hne : fs.locate (l.pathOf s) ≠ fs.locate path) : Filed o fs' (l.pathOf s) := by
  rw [Filed] at h ⊢
  rw [hb.read hs hne, hb.find s hs hne]
  exact h

end Index.Filed

namespace Models

variable {l : Location} {sites : Sites} {c c' : Catalog} {fs fs' : Files} {d d' : Database}
  {name : String} {r r' : Relation} {ct : Content} {row : Row} {columns : List Column} {rows : Tape Row}

theorem serves (h : Models l sites c fs d) (hk : c.kept name = some r) (hc : d.content name = some ct) :
    r.Serves l fs name ct.columns ct.rows := by
  obtain ⟨ct', hc', hr⟩ := h.kept name r hk
  rw [hc] at hc'
  cases hc'
  exact hr

/-- Two relations do not lie in one place. -/
theorem locate_ne (h : Apart l sites fs) {name other : String} (hs : .relation name ∈ sites)
    (ho : .relation other ∈ sites) (hne : other ≠ name) :
    fs.locate (l.relationPath other) ≠ fs.locate (l.relationPath name) := fun he =>
  hne (Site.relation.inj (h.unshared _ ho trivial _ hs he)).symm

/-- A relation and an index do not lie in one place. -/
theorem locate_index_ne (h : Apart l sites fs) (hs : .relation name ∈ sites) (t i : String) :
    fs.locate (l.indexPath t i) ≠ fs.locate (l.relationPath name) := by
  intro he
  obtain ⟨names, hl, -⟩ := h.locate hs
  exact Files.locate_relation_ne_index (l := l) (t := name) hl (he.trans hl)

/-- A site has a file if one is found at its place. -/
theorem exists?_iff {s : Site} (h : Models l sites c fs d) (hs : s ∈ sites) :
    fs.exists? (l.pathOf s) = true ↔ fs.find (l.pathOf s) ≠ .error .notFound := by
  have hl := h.apart.locate hs
  obtain ⟨names, hl', hn⟩ := hl
  rcases Files.find_of_none hl' hn with hf | ⟨id, hf⟩
  · rw [Files.exists?_of_missing ⟨names, hl', hn⟩ hf, hf]
    exact iff_of_false nofun fun hc => hc rfl
  · rw [Files.exists?_of_find hf, hf]
    exact iff_of_true rfl nofun

/-- A change of one relation in its place changes the database in this one place. -/
theorem replace (h : Models l sites c fs d) (hs : .relation name ∈ sites)
    (hb : Beside l sites (l.relationPath name) fs fs') {ct : Option Content}
    (hd : d.Becomes name ct d') (hl : c'.location = c.location) (hi : c'.indexes = c.indexes)
    (hk : ∀ other, other ≠ name → c'.kept other = c.kept other)
    (hkept : ∀ r, c'.kept name = some r → ∃ ct', ct = some ct' ∧
      r.Serves l fs' name ct'.columns ct'.rows)
    (hstored : ∀ ct', ct = some ct' →
      (Relation.describe name ct'.columns (l.relationPath name)).Serves l fs' name ct'.columns ct'.rows)
    (hmissing : ct = none → fs'.find (l.relationPath name) = .error .notFound) :
    Models l sites c' fs' d' := by
  refine ⟨hl.trans h.location, hb.directory h.directory, hb.apart, fun other r hr => ?_, fun other ct' hc => ?_,
    fun other ho hc => ?_, fun t i => by rw [hi, h.index, hd.index], fun hx t i ho => ?_⟩
  · rw [hd.content]
    by_cases he : other = name
    · subst he
      rw [if_pos rfl]
      exact hkept r hr
    · rw [if_neg he]
      rw [hk other he] at hr
      obtain ⟨ct', hc, hr⟩ := h.kept other r hr
      have ho := (h.stored other ct' hc).1
      exact ⟨ct', hc, hr.frame hb ho (locate_ne h.apart hs ho he)⟩
  · rw [hd.content] at hc
    by_cases he : other = name
    · subst he
      rw [if_pos rfl] at hc
      exact ⟨hs, hstored ct' hc⟩
    · rw [if_neg he] at hc
      obtain ⟨ho, hr⟩ := h.stored other ct' hc
      exact ⟨ho, hr.frame hb ho (locate_ne h.apart hs ho he)⟩
  · rw [hd.content] at hc
    by_cases he : other = name
    · subst he
      rw [if_pos rfl] at hc
      exact hmissing hc
    · rw [if_neg he] at hc
      exact (hb.find _ ho (locate_ne h.apart hs ho he)).trans (h.missing other ho hc)
  · rw [hd.index]
    exact (h.filed hx t i ho).frame (s := .index t i) hb ho (locate_index_ne h.apart hs t i)

/-- An act on a relation that is kept, in terms of what it does to the relation. -/
theorem act {α : Type} {x : Act StorageError Relation α} {res : Except StorageError α}
    (h : Models l sites c fs d) (hk : c.kept name = some r) (hx : x.apply r fs = (res, r', fs'))
    (hb : Beside l sites (l.relationPath name) fs fs') (hr : r'.Serves l fs' name columns rows)
    (hd : d.Becomes name (some ⟨columns, rows⟩) d') :
    (Catalog.onRelation name x).apply c fs = (res, c.keep name r', fs') ∧
      Models l sites (c.keep name r') fs' d' := by
  obtain ⟨ct, hc, -⟩ := h.kept name r hk
  refine ⟨by rw [Catalog.onRelation_of_kept hk, hx], ?_⟩
  refine h.replace (h.stored name ct hc).1 hb hd Catalog.location_keep Catalog.indexes_keep
    (fun other ho => by rw [Catalog.kept_keep, if_neg ho]) (fun r'' hr'' => ?_) (fun ct' hct => ?_)
    nofun
  · rw [Catalog.kept_keep, if_pos rfl] at hr''
    cases hr''
    exact ⟨_, rfl, hr⟩
  · cases hct
    exact hr.described

/-- Reading leaves the database as it is. -/
theorem read {α : Type} {x : Act StorageError Relation α} (hx : Act.Reads Relation.view x)
    (h : Models l sites c fs d) (hk : c.kept name = some r) :
    ∃ r', (Catalog.onRelation name x).apply c fs = (x.value r fs, c.keep name r', fs) ∧
      Models l sites (c.keep name r') fs d := by
  obtain ⟨ct, hc, hr⟩ := h.kept name r hk
  obtain ⟨r', hx, hv⟩ := hx.apply_eq r fs
  exact ⟨r', h.act hk hx (h.apart.beside_self _) (hr.of_view hv) (Database.becomes_self hc)⟩

/-- Inserting adds a row at the end, or is refused. -/
theorem insert (h : Models l sites c fs d) (hk : c.kept name = some r) (hc : d.content name = some ct)
    (row : Row) :
    (∃ e r', r.record row = .error e ∧
      (Catalog.onRelation name (Relation.insert row)).apply c fs = (.error e, c.keep name r', fs) ∧
      Models l sites (c.keep name r') fs d) ∨
    ∃ data handle r' fs', r.record row = .ok data ∧
      (Catalog.onRelation name (Relation.insert row)).apply c fs =
        (.ok handle, c.keep name r', fs') ∧ fs.SameTree fs' ∧
      ∀ d', d.Becomes name
          (some ⟨ct.columns, ct.rows ++ [(handle, some (Row.filled ct.columns row))]⟩) d' →
        Models l sites (c.keep name r') fs' d' := by
  have hs := (h.stored name ct hc).1
  rcases (h.serves hk hc).insert h.apart hs row with
    ⟨e, r', he, hx, hr⟩ | ⟨data, handle, r', fs', hrec, hx, hb, htree, hr⟩
  · exact .inl ⟨e, r', he, h.act hk hx (h.apart.beside_self _) hr (Database.becomes_self hc)⟩
  · refine .inr ⟨data, handle, r', fs', hrec, ?_, htree, fun d' hd => (h.act hk hx hb hr hd).2⟩
    rw [Catalog.onRelation_of_kept hk, hx]

theorem ascending (h : Models l sites c fs d) (hc : d.content name = some ct) : ct.rows.Ascending :=
  (h.stored name ct hc).2.ascending

theorem stored_row (h : Models l sites c fs d) (hc : d.content name = some ct) {handle : Handle} {row : Row}
    (hm : (handle, row) ∈ ct.rows.live) : row.Stored ct.columns := (h.stored name ct hc).2.stored hm

/-- Deleting clears a handle; it fails if no row lies behind the handle. -/
theorem delete (h : Models l sites c fs d) (hk : c.kept name = some r) (hc : d.content name = some ct)
    (handle : Handle) :
    ∃ res r' fs', (Catalog.onRelation name (Relation.delete handle)).apply c fs =
        (res, c.keep name r', fs') ∧
      ((∃ row, (handle, row) ∈ ct.rows.live) → res = .ok ()) ∧
      ∀ d', d.Becomes name (some ⟨ct.columns, ct.rows.clear handle⟩) d' →
        Models l sites (c.keep name r') fs' d' := by
  have hs := (h.stored name ct hc).1
  obtain ⟨res, r', fs', hx, hres, hb, hr⟩ := (h.serves hk hc).delete h.apart hs handle
  refine ⟨res, r', fs', ?_, hres, fun d' hd => (h.act hk hx hb hr hd).2⟩
  rw [Catalog.onRelation_of_kept hk, hx]

end Models

end Rowbase
