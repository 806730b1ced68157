import Rowbase.Proofs.Database.Confined
import Rowbase.Proofs.Database.Rolls

/-! # Catalogs that have used less

A catalog may have used fewer relations and indices than another one of the same database. What it has not used it
finds in the files, so that it does all that the other one does and comes to leave the same files. It goes on to have
used no more than the other. -/
namespace Rowbase

open Act Database
open Files (Apart Beside)

/-! ## Indices that are read back -/

/-- A map is the same when it is made again of its entries. -/
theorem equiv_ofList_toList {α β : Type} [DecidableEq α] {cmp : α → α → Ordering} [Std.TransCmp cmp]
    [Std.LawfulEqCmp cmp] (map : Std.TreeMap α β cmp) : (Std.TreeMap.ofList map.toList cmp).Equiv map := by
  refine .of_forall_constGet?_eq fun k => ?_
  cases h : map[k]? with
  | some v =>
    exact Std.TreeMap.getElem?_ofList_of_mem Std.ReflCmp.compare_self Std.TreeMap.distinct_keys_toList
      (Std.TreeMap.mem_toList_iff_getElem?_eq_some.2 h)
  | none =>
    refine Std.TreeMap.getElem?_ofList_of_contains_eq_false ?_
    rw [Std.TreeMap.map_fst_toList_eq_keys, List.contains_eq_mem, decide_eq_false_iff_not, Std.TreeMap.mem_keys]
    simpa using h

/-- Whether the document of an index is read back as it was written. -/
def Index.ReadsBack (ix : Index) : Prop := Document.ofBytes? ix.document.bytes = some ix.document

/-- An index that is read back from its file comes to have the entries that were saved. -/
theorem Index.ReadsBack.resembles {ix ix' : Index} {fs : Files} (hb : ix.ReadsBack) (hl : ix.loaded = true)
    (hl' : ix'.loaded = false) (ha : ix.Alike ix') (hr : fs.read ix.path = .ok ix.document.bytes) :
    ix.Resembles ix' fs := by
  refine ⟨ha, .inr ⟨ix.map, .ofList ix.map.toList _, contents_of_loaded hl, ?_, equiv_ofList_toList ix.map⟩⟩
  rw [contents_of_unloaded hl', ha.path, hr]
  dsimp only
  rw [show Document.ofBytes? ix.document.bytes = some ix.document from hb]
  rfl

namespace Catalog

variable {l : Location} {sites : Sites} {c c' c₀ : Catalog} {fs fs₁ : Files} {d : Database} {name t i : String}
  {r r' : Relation} {ix ix' : Index} {path : String} {ε ε' α β : Type} {P : Catalog → Files → Prop}
  {p q : Database → Prop}

/-- Whether the second of two catalogs has used no more than the first. What it has used looks the same to it, and the
indices that it has not used can be read back. -/
structure Follows (c c' : Catalog) (fs : Files) : Prop where
  location : c'.location = c.location
  kept : ∀ name r', c'.kept name = some r' → ∃ r, c.kept name = some r ∧ r.Resembles r' fs
  index : ∀ key ix', c'.indexes.get? key = some ix' → ∃ ix, c.indexes.get? key = some ix ∧ ix.Peers ix'
  dormant : ∀ key ix, c.indexes.get? key = some ix → c'.indexes.get? key = none → ix.loaded = true ∧ ix.ReadsBack

/-- Whether a catalog models a database of which something is known. -/
def Modelled (l : Location) (sites : Sites) (p : Database → Prop) (c : Catalog) (fs : Files) : Prop :=
  ∃ d, Models l sites c fs d ∧ p d

/-- Whether the second of two catalogs has used no more than the first, of which something is known. -/
def Coupled (P : Catalog → Files → Prop) (c c' : Catalog) (fs : Files) : Prop := c.Follows c' fs ∧ P c fs

theorem Coupled.imp (h : Coupled (Modelled l sites p) c c' fs) (hpq : ∀ d, p d → q d) :
    Coupled (Modelled l sites q) c c' fs :=
  have ⟨hf, d, hm, hd⟩ := h
  ⟨hf, d, hm, hpq d hd⟩

/-- Whether an act returns the same of two catalogs, of which the second goes on to have used no more than the first,
and keeps what is known of the first. -/
abbrev InStep (P : Catalog → Files → Prop) (x : Act ε Catalog α) : Prop :=
  Lockstep (Coupled P) x fun _ => Coupled P

theorem InStep.bind {x : Act ε Catalog α} {f : α → Act ε Catalog β} (hx : InStep P x) (hf : ∀ a, InStep P (f a)) :
    InStep P (x >>= f) := Lockstep.bind hx hf id

theorem InStep.adapt {x : Act ε Catalog α} (hx : InStep P x) (g : ε → ε') : InStep P (x.adapt g) :=
  Lockstep.adapt_keep hx

theorem InStep.onFailure {x : Act ε Catalog α} {cleanup : Act ε Catalog Unit} (hx : InStep P x)
    (hc : InStep P cleanup) : InStep P (x.onFailure cleanup) := Lockstep.onFailure hx (fun _ => hc) id

theorem lockstep_returned (a : α) : Lockstep (Coupled P) (pure a : Act ε Catalog α) fun _ => Follows :=
  (lockstep_pure a).mono id And.left

theorem lockstep_refused (e : ε) : Lockstep (Coupled P) (throw e : Act ε Catalog α) fun _ => Follows :=
  (lockstep_throw e).mono id And.left

/-- An act on two catalogs keeps what is known of the first if it does so on one catalog. -/
theorem inStep_of_preserves {x : Act ε Catalog α} (hx : Lockstep (Coupled P) x fun _ => Follows) (hP : Preserves P x) :
    InStep P x := hx.also fun c _ fs h => hP c fs h.2

/-- Acts that keep what is known are done one after the other. -/
theorem inStep_forM {f : α → Act ε Catalog PUnit} (hf : ∀ a, InStep P (f a)) (items : List α) :
    InStep P (items.forM f) := lockstep_forM fun a _ => hf a

namespace Follows

theorem not_kept (h : c.Follows c' fs) (hk : c.kept name = none) : c'.kept name = none := by
  refine Option.eq_none_iff_forall_ne_some.2 fun r' hk' => ?_
  obtain ⟨r, hkept, -⟩ := h.kept name r' hk'
  exact nomatch hk.symm.trans hkept

theorem resembles (h : c.Follows c' fs) (hk : c.kept name = some r) (hk' : c'.kept name = some r') :
    r.Resembles r' fs := by
  obtain ⟨r₁, hk₁, hr⟩ := h.kept name r' hk'
  rw [hk] at hk₁
  cases hk₁
  exact hr

theorem exists_kept (h : c.Follows c' fs) (hn : name ∈ Schema.names) :
    ∃ r r', c.kept name = some r ∧ c'.kept name = some r' ∧ r.Resembles r' fs := by
  obtain ⟨r, hk⟩ := Catalog.exists_kept hn c
  obtain ⟨r', hk'⟩ := Catalog.exists_kept hn c'
  exact ⟨r, r', hk, hk', h.resembles hk hk'⟩

theorem core_eq (h : c.Follows c' fs) : core c' fs = core c fs := by
  have htables : c'.tables.view fs = c.tables.view fs := h.resembles (show c.kept Schema.tables = _ from rfl) rfl
  have hcolumns : c'.columns.view fs = c.columns.view fs := h.resembles (show c.kept Schema.columns = _ from rfl) rfl
  have hindices : c'.indices.view fs = c.indices.view fs := h.resembles (show c.kept Schema.indices = _ from rfl) rfl
  rw [core, core, h.location, htables, hcolumns, hindices]

/-! ### Keeping relations -/

theorem keep_left (h : c.Follows c' fs) (hr : ∀ r', c'.kept name = some r' → r.Resembles r' fs) :
    (c.keep name r).Follows c' fs := by
  refine ⟨h.location.trans location_keep.symm, fun other r' hk => ?_, fun key ix' => ?_, fun key ix => ?_⟩
  · rw [kept_keep]
    split
    · rename_i he
      subst he
      exact ⟨r, rfl, hr r' hk⟩
    · exact h.kept other r' hk
  · rw [indexes_keep]
    exact h.index key ix'
  · rw [indexes_keep]
    exact h.dormant key ix

theorem keep_right (h : c.Follows c' fs) (hk : c.kept name = some r) (hr : r.Resembles r' fs) :
    c.Follows (c'.keep name r') fs := by
  refine ⟨location_keep.trans h.location, fun other r₁ hk₁ => ?_, fun key ix' => ?_, fun key ix => ?_⟩
  · rw [kept_keep] at hk₁
    split at hk₁
    · rename_i he
      cases hk₁
      exact ⟨r, he ▸ hk, hr⟩
    · exact h.kept other r₁ hk₁
  · rw [indexes_keep]
    exact h.index key ix'
  · rw [indexes_keep]
    exact h.dormant key ix

/-! ### Reading the catalog's own relations -/

theorem withstands_left (c' : Catalog) : Withstands fun c fs => c.Follows c' fs := by
  intro α name x hn hx c fs h
  obtain ⟨r, r', hk, hk', hr⟩ := h.exists_kept hn
  rw [onRelation_of_kept hk, hx.files_eq]
  exact h.keep_left fun r₁ hk₁ => (h.resembles hk hk₁).trans (hx.view_eq r fs).symm

theorem withstands_right (c : Catalog) : Withstands fun c' fs => c.Follows c' fs := by
  intro α name x hn hx c' fs h
  obtain ⟨r, r', hk, hk', hr⟩ := h.exists_kept hn
  rw [onRelation_of_kept hk', hx.files_eq]
  exact h.keep_right hk ((hx.view_eq r' fs).trans hr)

theorem survey_right {x : Act ε Catalog α} (h : c.Follows c' fs) (hx : Surveys x) :
    ∃ c₁', x.apply c' fs = (x.value c fs, c₁', fs) ∧ c.Follows c₁' fs := by
  obtain ⟨c₁', ha, -⟩ := (hx.reads shows_core).apply_eq c' fs
  have hf := hx.preserves (withstands_right c) c' fs h
  rw [ha] at hf
  rw [(hx.reads shows_core).value_congr h.core_eq] at ha
  exact ⟨c₁', ha, hf⟩

end Follows

/-- Reading the catalog's own relations returns the same and keeps what withstands it. -/
theorem Coupled.survey {x : Act ε Catalog α} (h : Coupled P c c' fs) (hP : Withstands P) (hx : Surveys x) :
    ∃ c₁ c₁', x.apply c fs = (x.value c fs, c₁, fs) ∧ x.apply c' fs = (x.value c fs, c₁', fs) ∧
      Coupled P c₁ c₁' fs := by
  obtain ⟨c₁, ha, -⟩ := (hx.reads shows_core).apply_eq c fs
  obtain ⟨c₁', ha', hf'⟩ := h.1.survey_right hx
  have hf := hx.preserves (Follows.withstands_left c₁') c fs hf'
  have hp := hx.preserves hP c fs h.2
  rw [ha] at hf hp
  exact ⟨c₁, c₁', ha, ha', hf, hp⟩

theorem withstands_modelled : Withstands (Modelled l sites p) := fun α name x hn hx c fs ⟨d, h, hp⟩ =>
  ⟨d, Models.withstands α name x hn hx c fs h, hp⟩

theorem Surveys.inStep {x : Act ε Catalog α} (hx : Surveys x) : InStep (Modelled l sites p) x := fun _ _ fs h =>
  have ⟨c₁, c₁', ha, ha', h₁⟩ := h.survey withstands_modelled hx
  ⟨_, c₁, c₁', fs, ha, ha', h₁⟩

/-- What is read of the catalog's own relations is what the database says. -/
theorem lockstep_known {x : Act ε Catalog α} {v : Database → Except ε α} (hx : Surveys x)
    (hv : ∀ {c fs d}, Models l sites c fs d → x.value c fs = v d) : Lockstep (Coupled (Modelled l sites p)) x fun res =>
      Coupled (Modelled l sites fun d => p d ∧ v d = res) := by
  rintro c c' fs ⟨hf, d, h, hp⟩
  obtain ⟨c₁, c₁', ha, ha', hf₁, h₁⟩ := Coupled.survey ⟨hf, h⟩ Models.withstands hx
  exact ⟨_, c₁, c₁', fs, ha, ha', hf₁, d, h₁, hp, (hv h).symm⟩

/-! ## Changing one file -/

/-- A relation goes on to look the same where something happens to another file. -/
theorem resembles_frame (h : Models l sites c fs d) (hk : c.kept name = some r) (hr : r.Resembles r' fs)
    (hb : Beside l sites path fs fs₁)
    (hne : .relation name ∈ sites → fs.locate (l.relationPath name) ≠ fs.locate path) : r.Resembles r' fs₁ := by
  obtain ⟨ct, hc, hserves⟩ := h.kept name r hk
  have hs := (h.stored name ct hc).1
  exact (hserves.frame hb hs (hne hs)).view_eq ((hserves.of_view hr).frame hb hs (hne hs))

/-- A relation is kept or forgotten by both catalogs, with a change of its file. -/
theorem Follows.replace {c₁ c₁' : Catalog} {o o' : Option Relation} (h : c.Follows c' fs) (hm : Models l sites c fs d)
    (hs : .relation name ∈ sites) (hb : Beside l sites (l.relationPath name) fs fs₁) (hl : c₁'.location = c₁.location)
    (hi : c₁.indexes = c.indexes) (hi' : c₁'.indexes = c'.indexes)
    (hk : ∀ other, c₁.kept other = if other = name then o else c.kept other)
    (hk' : ∀ other, c₁'.kept other = if other = name then o' else c'.kept other)
    (hr : ∀ r', o' = some r' → ∃ r, o = some r ∧ r.Resembles r' fs₁) : c₁.Follows c₁' fs₁ := by
  refine ⟨hl, fun other r' hkept => ?_, fun key ix' => ?_, fun key ix => ?_⟩
  · rw [hk'] at hkept
    rw [hk]
    split at hkept
    · rename_i he
      rw [if_pos he]
      exact hr r' hkept
    · rename_i he
      rw [if_neg he]
      obtain ⟨r, hkept, hr⟩ := h.kept other r' hkept
      exact ⟨r, hkept, resembles_frame hm hkept hr hb fun ho => Models.locate_ne hm.apart hs ho he⟩
  · rw [hi, hi']
    exact h.index key ix'
  · rw [hi, hi']
    exact h.dormant key ix

/-- A change of a relation in its place, which both catalogs keep. -/
theorem Follows.keep (h : c.Follows c' fs) (hm : Models l sites c fs d) (hs : .relation name ∈ sites)
    (hb : Beside l sites (l.relationPath name) fs fs₁) (hr : r.Resembles r' fs₁) :
    (c.keep name r).Follows (c'.keep name r') fs₁ :=
  h.replace hm hs hb (location_keep.trans (h.location.trans location_keep.symm)) indexes_keep indexes_keep
    (fun _ => kept_keep) (fun _ => kept_keep) fun _ hk => ⟨r, rfl, by cases hk; exact hr⟩

/-! ## Using tables -/

/-- Both catalogs come to keep a table that is there. -/
theorem Follows.remember {ct : Content} (h : c.Follows c' fs) (hm : Models l sites c fs d) (hd : d.Described)
    (hn : t ∉ Schema.names) (hc : d.table t = some ct) : ∃ c₁ c₁' r r', c₁.kept t = some r ∧ c₁'.kept t = some r' ∧
      Coupled (Models l sites · · d) c₁ c₁' fs ∧ (Catalog.remember t).apply c fs = (.ok r, c₁, fs) ∧
      (Catalog.remember t).apply c' fs = (.ok r', c₁', fs) := by
  obtain ⟨hcols, hne⟩ := Models.columnsOf_of_table hd hn hc
  obtain ⟨hs, hstored⟩ := hm.stored t ct ((content_of_not_mem hn).trans hc)
  have hv := hm.value_columnsOf t
  rw [hcols] at hv
  cases hk : c.kept t with
  | some r =>
    cases hk' : c'.kept t with
    | some r' =>
      exact ⟨c, c', r, r', hk, hk', ⟨h, hm⟩, apply_remember_of_kept hn hk fs, apply_remember_of_kept hn hk' fs⟩
    | none =>
      obtain ⟨c₀', ha', h₀⟩ := h.survey_right (surveys_columnsOf t)
      rw [hv] at ha'
      have hx' := apply_remember_of_columnsOf hk' ha'
      rw [if_neg hne, h₀.location, hm.location] at hx'
      have hserves := hm.serves hk ((content_of_not_mem hn).trans hc)
      exact ⟨c, _, r, _, hk, kept_keep.trans (if_pos rfl), ⟨h₀.keep_right hk (hserves.view_eq hstored), hm⟩,
        apply_remember_of_kept hn hk fs, hx'⟩
  | none =>
    obtain ⟨c₀, c₀', ha, ha', h₀, hm₀⟩ := Coupled.survey ⟨h, hm⟩ Models.withstands (surveys_columnsOf t)
    rw [hv] at ha ha'
    have hx := apply_remember_of_columnsOf hk ha
    have hx' := apply_remember_of_columnsOf (h.not_kept hk) ha'
    rw [if_neg hne, hm₀.location] at hx
    rw [if_neg hne, h₀.location, hm₀.location] at hx'
    exact ⟨_, _, _, _, kept_keep.trans (if_pos rfl), kept_keep.trans (if_pos rfl),
      ⟨h₀.keep hm₀ hs (hm₀.apart.beside_self _) rfl, hm₀.keepDescribed hn hc⟩, hx, hx'⟩

/-- Both catalogs come to keep a relation that is there. -/
theorem Follows.using_relation {ct : Content} (h : c.Follows c' fs) (hm : Models l sites c fs d)
    (hd : t ∈ Schema.names ∨ d.Described) (hc : d.content t = some ct) : ∃ c₁ c₁' r r', c₁.kept t = some r ∧
      c₁'.kept t = some r' ∧ Coupled (Models l sites · · d) c₁ c₁' fs ∧ ∀ {α : Type} (x : Act StorageError Relation α),
        (onRelation t x).apply c fs = (onRelation t x).apply c₁ fs ∧
        (onRelation t x).apply c' fs = (onRelation t x).apply c₁' fs := by
  by_cases hn : t ∈ Schema.names
  · obtain ⟨r, r', hk, hk', -⟩ := h.exists_kept hn
    exact ⟨c, c', r, r', hk, hk', ⟨h, hm⟩, fun _ => ⟨rfl, rfl⟩⟩
  · rw [content_of_not_mem hn] at hc
    obtain ⟨c₁, c₁', r, r', hk, hk', h₁, hx, hx'⟩ := h.remember hm (hd.resolve_left hn) hn hc
    exact ⟨c₁, c₁', r, r', hk, hk', h₁, fun x =>
      ⟨onRelation_of_remember hn hx hk x, onRelation_of_remember hn hx' hk' x⟩⟩

/-- An act on a relation that is there, or is missing to both catalogs. -/
theorem lockstep_onRelation {x : Act StorageError Relation α} (hp : ∀ d, p d → t ∈ Schema.names ∨ d.Described)
    (hx : Lockstep Relation.Resembles x fun _ => Relation.Resembles) (hc : Relation.Confined x) :
    Lockstep (Coupled (Modelled l sites p)) (onRelation t x) fun _ => Follows := by
  rintro c c' fs ⟨h, d, hm, hpd⟩
  cases hct : d.content t with
  | some ct =>
    obtain ⟨c₁, c₁', r, r', hk, hk', ⟨h₁, hm₁⟩, ha⟩ := h.using_relation hm (hp d hpd) hct
    obtain ⟨res, r₁, r₁', fs₁, hr, hr', hsame⟩ := hx r r' fs (h₁.resembles hk hk')
    have hs := (hm₁.stored t ct hct).1
    have hb := hc (hm₁.serves hk hct) hm₁.apart hs
    rw [hr] at hb
    refine ⟨res, _, _, fs₁, ?_, ?_, h₁.keep hm₁ hs hb hsame⟩
    · rw [(ha x).1, onRelation_of_kept hk, hr]
    · rw [(ha x).2, onRelation_of_kept hk', hr']
  | none =>
    have hk := hm.not_kept hct
    have hn := not_mem_of_not_kept hk
    have hcols : d.columnsOf t = [] := by
      rw [((hp d hpd).resolve_left hn).columns t hn, ← content_of_not_mem hn, hct]
      rfl
    obtain ⟨c₀, c₀', ha, ha', h₀, -⟩ := Coupled.survey ⟨h, hm⟩ Models.withstands (surveys_columnsOf t)
    rw [hm.value_columnsOf, hcols] at ha ha'
    refine ⟨.error (.relation (.relationMissing t)), c₀, c₀', fs, ?_, ?_, h₀⟩
    · rw [onRelation_of_not_mem hn, apply_bind_error (apply_remember_of_columnsOf hk ha)]
    · rw [onRelation_of_not_mem hn, apply_bind_error (apply_remember_of_columnsOf (h.not_kept hk) ha')]

/-! ## Changing entries -/

/-- Whether what is known of a database is known of it whatever entries a describing relation has. -/
def Overlooks (name : String) (f : β → Row) (p : Database → Prop) : Prop :=
  ∀ d, p d → ∃ put tape, Roll name f put ∧ put tape = d ∧ ∀ tape', p (put tape')

theorem overlooks_tables (hp : ∀ d tape, p d → p { d with tables := tape }) :
    Overlooks Schema.tables Schema.tableRow p := fun d hd => ⟨_, d.tables, roll_tables d, rfl, fun tape => hp d tape hd⟩

theorem overlooks_columns (hp : ∀ d tape, p d → p { d with columns := tape }) :
    Overlooks Schema.columns ColumnEntry.row p := fun d hd =>
  ⟨_, d.columns, roll_columns d, rfl, fun tape => hp d tape hd⟩

theorem overlooks_indices (hp : ∀ d tape, p d → p { d with indices := tape }) :
    Overlooks Schema.indices IndexEntry.row p := fun d hd =>
  ⟨_, d.indices, roll_indices d, rfl, fun tape => hp d tape hd⟩

theorem Overlooks.mem {f : β → Row} (hp : Overlooks name f p) (d : Database) (hd : p d) :
    name ∈ Schema.names ∨ d.Described :=
  have ⟨_, _, hr, _⟩ := hp d hd
  .inl hr.mem

theorem inStep_insertEntry {f : β → Row} (hp : Overlooks name f p) (b : β) :
    InStep (Modelled l sites p) (onRelation name (Relation.insert (f b))) := by
  refine inStep_of_preserves (lockstep_onRelation hp.mem (Relation.lockstep_insert _) (Relation.confined_insert _)) ?_
  rintro c fs ⟨d, hm, hd⟩
  obtain ⟨put, tape, hr, rfl, hput⟩ := hp d hd
  rcases hm.insertEntry hr b with ⟨e, c₁, -, hx, -, h₁⟩ | ⟨handle, c₁, fs₁, -, hx, -, -, h₁⟩ <;> rw [hx]
  · exact ⟨_, h₁, hd⟩
  · exact ⟨_, h₁, hput _⟩

theorem inStep_deleteEntry {f : β → Row} (hp : Overlooks name f p) (handle : Handle) :
    InStep (Modelled l sites p) (onRelation name (Relation.delete handle)) := by
  refine inStep_of_preserves (lockstep_onRelation hp.mem (Relation.lockstep_delete _) (Relation.confined_delete _)) ?_
  rintro c fs ⟨d, hm, hd⟩
  obtain ⟨put, tape, hr, rfl, hput⟩ := hp d hd
  obtain ⟨res, c₁, fs₁, hx, -, -, h₁⟩ := hm.deleteEntry hr handle
  rw [hx]
  exact ⟨_, h₁, hput _⟩

/-! ## Changing rows -/

/-- Reading a table returns the same. -/
theorem inStep_read {x : Act StorageError Relation α} (hp : ∀ d, p d → d.Described) (hx : Reads Relation.view x) :
    InStep (Modelled l sites p) (onRelation t x) := by
  refine inStep_of_preserves (lockstep_onRelation (fun d hd => .inr (hp d hd)) (Relation.lockstep_of_reads hx)
    (Relation.confined_of_reads hx)) ?_
  rintro c fs ⟨d, hm, hd⟩
  exact ⟨d, Models.preserves_onRelation (hp d hd) hx c fs hm, hd⟩

theorem inStep_addRow (hn : t ∉ Schema.names) (row : Row) :
    InStep (Modelled l sites (Regular l sites)) (onRelation t (Relation.insert row)) := by
  refine inStep_of_preserves (lockstep_onRelation (fun d hd => .inr hd.toDescribed) (Relation.lockstep_insert _)
    (Relation.confined_insert _)) ?_
  rintro c fs ⟨d, hm, hd⟩
  cases hc : d.table t with
  | none =>
    obtain ⟨c₁, h₁, hx⟩ := hm.onRelation_missing hd.toDescribed ((content_of_not_mem hn).trans hc) (Relation.insert row)
    rw [hx]
    exact ⟨d, h₁, hd⟩
  | some ct =>
    rcases hm.addRow hd.toDescribed hn hc row with ⟨e, c₁, -, h₁, hx⟩ | ⟨handle, c₁, fs₁, -, hx, h₁⟩ <;> rw [hx]
    · exact ⟨d, h₁, hd⟩
    · exact ⟨_, h₁, hd.like (like_setTable hc _)⟩

theorem inStep_clearRow (hn : t ∉ Schema.names) (handle : Handle) :
    InStep (Modelled l sites (Regular l sites)) (onRelation t (Relation.delete handle)) := by
  refine inStep_of_preserves (lockstep_onRelation (fun d hd => .inr hd.toDescribed) (Relation.lockstep_delete _)
    (Relation.confined_delete _)) ?_
  rintro c fs ⟨d, hm, hd⟩
  cases hc : d.table t with
  | none =>
    obtain ⟨c₁, h₁, hx⟩ := hm.onRelation_missing hd.toDescribed ((content_of_not_mem hn).trans hc)
      (Relation.delete handle)
    rw [hx]
    exact ⟨d, h₁, hd⟩
  | some ct =>
    obtain ⟨res, c₁, fs₁, hx, -, h₁⟩ := hm.clearRow hd.toDescribed hn hc handle
    rw [hx]
    exact ⟨_, h₁, hd.like (like_setTable hc _)⟩

/-! ## Making and dropping tables -/

theorem Follows.forgetTable (h : c.Follows c' fs) (t : String) :
    Follows { c with relations := c.relations.erase t } { c' with relations := c'.relations.erase t } fs := by
  refine ⟨h.location, fun name r' hk => ?_, h.index, h.dormant⟩
  by_cases hn : name ∈ Schema.names
  · have hkept (c : Catalog) : Catalog.kept { c with relations := c.relations.erase t } name = c.kept name := by
      rcases Schema.mem_names.1 hn with rfl | rfl | rfl <;> rfl
    rw [hkept] at hk ⊢
    exact h.kept name r' hk
  · rw [kept_of_not_mem hn] at hk ⊢
    rw [Bindings.get?_erase] at hk ⊢
    split at hk
    · cases hk
    · rename_i he
      rw [if_neg he]
      obtain ⟨r, hkept, hr⟩ := h.kept name r' ((kept_of_not_mem hn).trans hk)
      exact ⟨r, (kept_of_not_mem hn).symm.trans hkept, hr⟩

theorem inStep_forgetTable (t : String) : InStep (Modelled l sites p) (forgetTable t) := by
  refine inStep_of_preserves (lockstep_update fun c c' fs h => h.1.forgetTable t) ?_
  rintro c fs ⟨d, hm, hd⟩
  obtain ⟨c₁, h₁, -, hx⟩ := hm.forgetTable t
  rw [hx]
  exact ⟨d, h₁, hd⟩

/-- A table that is not there is made by both catalogs from what they say of its columns. -/
theorem lockstep_newRelation {x : Act StorageError Relation Unit}
    (hx : x = Relation.create ∨ x = Relation.createIfMissing) (hs : .relation t ∈ sites)
    (hp : ∀ d, p d → d.content t = none) : Lockstep (Coupled (Modelled l sites p)) (onRelation t x) fun _ =>
      Follows := by
  rintro c c' fs ⟨h, d, hm, hpd⟩
  have hc := hp d hpd
  have hk := hm.not_kept hc
  have hn := not_mem_of_not_kept hk
  obtain ⟨c₀, c₀', ha, ha', h₀, hm₀⟩ := Coupled.survey ⟨h, hm⟩ Models.withstands (surveys_columnsOf t)
  rw [hm.value_columnsOf] at ha ha'
  have hr := apply_remember_of_columnsOf hk ha
  have hr' := apply_remember_of_columnsOf (h.not_kept hk) ha'
  rw [hm₀.location] at hr
  rw [h₀.location, hm₀.location] at hr'
  rw [onRelation_of_not_mem hn]
  by_cases he : (d.columnsOf t).isEmpty = true
  · rw [if_pos he] at hr hr'
    exact ⟨_, c₀, c₀', fs, apply_bind_error hr _, apply_bind_error hr' _, h₀⟩
  · rw [if_neg he] at hr hr'
    have hmade : ∃ r' fs', x.apply (Relation.describe t (d.columnsOf t) (l.relationPath t)) fs = (.ok (), r', fs') ∧
        Beside l sites (l.relationPath t) fs fs' := by
      have hf := hm.missing t hs hc
      rcases hx with rfl | rfl
      · obtain ⟨r', fs', hx, hb, -⟩ := Relation.create_serves (r := .describe t (d.columnsOf t) (l.relationPath t))
          hm.apart hs hf rfl rfl rfl rfl
        exact ⟨r', fs', hx, hb⟩
      · obtain ⟨r', fs', hx, hb, -⟩ := Relation.createIfMissing_serves
          (r := .describe t (d.columnsOf t) (l.relationPath t)) hm.apart hs hf rfl rfl rfl rfl
        exact ⟨r', fs', hx, hb⟩
    obtain ⟨r₁, fs₁, hx, hb⟩ := hmade
    generalize Relation.describe t (d.columnsOf t) (l.relationPath t) = r at hr hr' hx
    have hkept : ∀ (c : Catalog) other, ((c.keep t r).keep t r₁).kept other =
        if other = t then some r₁ else c.kept other := fun c other => by
      rw [kept_keep]
      split
      · rfl
      · rename_i hne
        rw [kept_keep, if_neg hne]
    refine ⟨.ok (), (c₀.keep t r).keep t r₁, (c₀'.keep t r).keep t r₁, fs₁, ?_, ?_,
      h₀.replace hm₀ hs hb (by simpa using h₀.location) (by simp) (by simp) (hkept c₀) (hkept c₀')
        fun r hr => ⟨r, hr, rfl⟩⟩
    · rw [apply_bind_ok hr, apply_within, hx, keep_of_not_mem (c := c₀.keep t r) hn]
    · rw [apply_bind_ok hr', apply_within, hx, keep_of_not_mem (c := c₀'.keep t r) hn]

theorem apply_detach (hn : t ∉ Schema.names) (hx : (remember t).apply c fs = (.ok r, c₀, fs)) :
    (detach t).apply c fs = (.ok r, { c₀ with relations := c₀.relations.erase t }, fs) := by
  rw [detach, if_neg hn]
  exact (apply_bind_ok hx _).trans rfl

/-- A table that both catalogs let go of is theirs no more, and what is done next may use only the place of its file. -/
theorem lockstep_detach {f : Relation → Act ε Catalog β} {g : StorageError → ε}
    {Q : Except ε β → Catalog → Catalog → Files → Prop} (hn : t ∉ Schema.names)
    (hp : ∀ d, p d → d.Described ∧ d.table t ≠ none)
    (hpath : ∀ r r' : Relation, r'.file.path = r.file.path → f r' = f r)
    (hf : ∀ r : Relation, r.file.path = l.relationPath t →
      Lockstep (Coupled fun c fs => Modelled l sites p c fs ∧ c.kept t = none) (f r) Q) :
    Lockstep (Coupled (Modelled l sites p)) ((detach t).adapt g >>= f) Q := by
  rintro c c' fs ⟨h, d, hm, hpd⟩
  obtain ⟨hd, hne⟩ := hp d hpd
  obtain ⟨ct, hc⟩ := Option.ne_none_iff_exists'.1 hne
  obtain ⟨c₁, c₁', r, r', hk, hk', ⟨h₁, hm₁⟩, hx, hx'⟩ := h.remember hm hd hn hc
  have hdetach : ((detach t).adapt g).apply c fs =
      (.ok r, { c₁ with relations := c₁.relations.erase t }, fs) := by
    rw [apply_adapt, apply_detach hn hx]
    rfl
  have hdetach' : ((detach t).adapt g).apply c' fs =
      (.ok r', { c₁' with relations := c₁'.relations.erase t }, fs) := by
    rw [apply_adapt, apply_detach hn hx']
    rfl
  have hserves := hm₁.serves hk ((content_of_not_mem hn).trans hc)
  have hsame := hserves.of_view (h₁.resembles hk hk')
  obtain ⟨c₂, hm₂, hnone, hforget⟩ := hm₁.forgetTable t
  cases hforget
  rw [apply_bind_ok hdetach, apply_bind_ok hdetach', hpath r r' (hsame.path_eq.trans hserves.path_eq.symm)]
  exact hf r hserves.path_eq _ _ fs ⟨h₁.forgetTable t, ⟨d, hm₂, hpd⟩, hnone hn⟩

/-- What dropping a relation does to the files depends on the place of its file alone. -/
theorem drop_congr {r r' : Relation} (hpath : r'.file.path = r.file.path) :
    (Relation.drop.within (fun _ => r') fun _ c => c : Act StorageError Catalog Unit) =
      Relation.drop.within (fun _ => r) fun _ c => c := by
  have hremove : ∀ fs, r'.file.remove fs = r.file.remove fs := fun fs => by
    rw [Heap.BlockFile.remove, Heap.BlockFile.remove, hpath]
  funext state
  obtain ⟨c, fs⟩ := state
  change (Relation.drop.within (fun _ => r') fun _ c => c : Act StorageError Catalog Unit).apply c fs =
    (Relation.drop.within (fun _ => r) fun _ c => c : Act StorageError Catalog Unit).apply c fs
  rw [apply_within, apply_within, Relation.apply_drop, Relation.apply_drop, hremove]
  cases r.file.remove fs <;> rfl

/-- The file of a table that both catalogs let go of is dropped. -/
theorem lockstep_dropDetached (hn : t ∉ Schema.names) (hpath : r.file.path = l.relationPath t)
    (hp : ∀ d, p d → d.table t ≠ none) :
    Lockstep (Coupled fun c fs => Modelled l sites p c fs ∧ c.kept t = none)
      (Relation.drop.within (fun _ => r) fun _ c => c : Act StorageError Catalog Unit) fun _ =>
        Coupled (Modelled l sites fun _ => True) := by
  rintro c c' fs ⟨h, ⟨d, hm, hpd⟩, hk⟩
  obtain ⟨ct, hc⟩ := Option.ne_none_iff_exists'.1 (hp d hpd)
  obtain ⟨hs, hserves⟩ := hm.stored t ct ((content_of_not_mem hn).trans hc)
  obtain ⟨id, hh⟩ := hserves.holds
  obtain ⟨r', fs₁, hdrop, hb, -⟩ := Relation.drop_removes hm.apart (hserves.find_of hh) hpath
  obtain ⟨fs₂, hx, hm₁⟩ := hm.dropDetached hn hc hk hpath
  have hkept : ∀ {c : Catalog}, c.kept t = none → ∀ other, c.kept other = if other = t then none else c.kept other := by
    intro c hk other
    split
    · rename_i he
      rw [he, hk]
    · rfl
  rw [apply_within, hdrop] at hx
  cases hx
  exact ⟨.ok (), c, c', fs₁, by rw [apply_within, hdrop], by rw [apply_within, hdrop],
    h.replace hm hs hb h.location rfl rfl (hkept hk) (hkept (h.not_kept hk)) nofun, _, hm₁, trivial⟩

end Catalog

end Rowbase
