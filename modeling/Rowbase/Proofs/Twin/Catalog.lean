import Rowbase.Proofs.Session.Changes
import Rowbase.Proofs.Twin.Relation

/-! # Catalogs whose own rows lie elsewhere

The describing relations of two catalogs may have the same rows behind other handles, and their files other bytes. What
the catalogs say is then the same, and so is what they do to everything else. -/
namespace Rowbase

open Act Database
open Files (Apart Beside SameBut Spares Leaves Clear)

/-- The describing relations as sites. -/
def Schema.sites : Sites := ⟨names.map .relation, false⟩

theorem Schema.mem_sites {s : Site} : s ∈ sites ↔ ∃ name ∈ names, s = .relation name := by
  change s ∈ names.map Site.relation ↔ _
  rw [List.mem_map]
  exact exists_congr fun _ => and_congr_right fun _ => eq_comm

theorem Schema.relation_mem_sites {name : String} (hn : name ∈ names) : Site.relation name ∈ sites :=
  mem_sites.2 ⟨name, hn, rfl⟩

variable {l : Location} {own : Nat → Prop} {fs fs' g g' : Files} {d d' : Database} {c c' : Catalog} {name t i : String}
  {path : String} {sites : Sites} {ε α β : Type}

/-! ## Files that are left alone -/

/-- Sites lie apart as long as all of them lead to the files that they led to. -/
theorem Files.Apart.of_find (h : Apart l sites fs) (hk : KeepsDirectories fs fs')
    (hsize : fs.contents.size ≤ fs'.contents.size)
    (hf : ∀ s ∈ sites, ∃ id, fs.find (l.pathOf s) = .ok id ∧ fs'.find (l.pathOf s) = .ok id) : Apart l sites fs' := by
  have hl : ∀ s ∈ sites, fs'.locate (l.pathOf s) = fs.locate (l.pathOf s) := by
    intro s hm
    obtain ⟨names, hl, -⟩ := h.locate hm
    rw [hl, locate_of_keeps hk hl]
  have hfind : ∀ s ∈ sites, fs'.find (l.pathOf s) = fs.find (l.pathOf s) := by
    intro s hm
    obtain ⟨id, hid, hid'⟩ := hf s hm
    rw [hid, hid']
  refine ⟨fun s hm => ?_, fun s hm id hid => ?_, fun s hm s' hm' id hid hid' => ?_, fun s hm hsole s' hm' he => ?_⟩
  · obtain ⟨names, hname, -⟩ := h.located s hm
    obtain ⟨hslash, hname⟩ := locateFile_eq_ok.1 hname
    obtain ⟨id, -, hid'⟩ := hf s hm
    obtain ⟨names', hname', hn⟩ := find_eq_ok.1 hid'
    have hname := locate_of_keeps hk hname
    cases hname.symm.trans hname'
    exact ⟨names, locateFile_eq_ok.2 ⟨hslash, hname⟩, by rw [hn]; exact nofun⟩
  · rw [hfind s hm] at hid
    exact Nat.lt_of_lt_of_le (h.stored s hm id hid) hsize
  · rw [hfind s hm] at hid
    rw [hfind s' hm'] at hid'
    rw [hl s hm, hl s' hm']
    exact h.alone s hm s' hm' id hid hid'
  · rw [hl s hm, hl s' hm'] at he
    exact h.unshared s hm hsole s' hm' he

/-- A database whose files are all beside one path stays as it is when only that path changes. -/
theorem Models.beside (h : Models l sites c fs d) (hb : Beside l sites path fs fs')
    (hne : ∀ s ∈ sites, fs.locate (l.pathOf s) ≠ fs.locate path) : Models l sites c fs' d where
  location := h.location
  directory := hb.directory h.directory
  apart := hb.apart
  kept name r hk := by
    obtain ⟨ct, hc, hr⟩ := h.kept name r hk
    have hs := (h.stored name ct hc).1
    exact ⟨ct, hc, hr.frame hb hs (hne (.relation name) hs)⟩
  stored name ct hc := by
    obtain ⟨hs, hr⟩ := h.stored name ct hc
    exact ⟨hs, hr.frame hb hs (hne (.relation name) hs)⟩
  missing name hs hc := (hb.find (.relation name) hs (hne (.relation name) hs)).trans (h.missing name hs hc)
  index := h.index
  filed hx t i hs := (h.filed hx t i hs).frame (s := .index t i) hb hs (hne (.index t i) hs)

namespace Catalog

/-- The catalog without the tables and indices that it has used. -/
def bare (c : Catalog) : Catalog := { c with relations := .empty, indexes := .empty }

theorem kept_bare (hn : name ∈ Schema.names) (c : Catalog) : c.bare.kept name = c.kept name := by
  rcases Schema.mem_names.1 hn with rfl | rfl | rfl <;> rfl

theorem bare_keep (hn : name ∈ Schema.names) (c : Catalog) (r : Relation) :
    (c.keep name r).bare = c.bare.keep name r := by
  rcases Schema.mem_names.1 hn with rfl | rfl | rfl <;> rfl

/-- Whether two catalogs have used the same tables and indices at one place. -/
structure SameUse (c c' : Catalog) : Prop where
  location : c'.location = c.location
  relations : ∀ t, c'.relations.get? t = c.relations.get? t
  indexes : c'.indexes = c.indexes

theorem SameUse.refl (c : Catalog) : SameUse c c := ⟨rfl, fun _ => rfl, rfl⟩

theorem SameUse.trans {c'' : Catalog} (h : SameUse c c') (h' : SameUse c' c'') : SameUse c c'' :=
  ⟨h'.location.trans h.location, fun t => (h'.relations t).trans (h.relations t), h'.indexes.trans h.indexes⟩

theorem sameUse_keep (hn : name ∈ Schema.names) (c : Catalog) (r : Relation) : SameUse c (c.keep name r) := by
  rcases Schema.mem_names.1 hn with rfl | rfl | rfl <;> exact ⟨rfl, fun _ => rfl, rfl⟩

/-- Whether the second of two catalogs with the same files is the first without what it has used, which is what another
one has used. -/
def Strips (c₀ : Catalog) (c : Catalog) (fs : Files) (b : Catalog) (fs' : Files) : Prop :=
  b = c.bare ∧ fs' = fs ∧ SameUse c₀ c

/-- An act on a describing relation does the same whatever else the catalog has used. -/
theorem abreast_own (hn : name ∈ Schema.names) (x : Act StorageError Relation α) (c₀ : Catalog) :
    Abreast (Strips c₀) (onRelation name x) (onRelation name x) fun _ => Strips c₀ := by
  rintro c fs _ _ ⟨rfl, rfl, hu⟩
  obtain ⟨r, hk⟩ := exists_kept hn c
  rw [onRelation_of_kept hk, onRelation_of_kept ((kept_bare hn c).trans hk)]
  exact ⟨_, _, _, _, _, rfl, rfl, (bare_keep hn c _).symm, rfl, hu.trans (sameUse_keep hn c _)⟩

/-- Whether the describing relations of a catalog have the entries of a database, in the own files, to each of which
only its place leads. -/
structure Holds (l : Location) (own : Nat → Prop) (c : Catalog) (fs : Files) (d : Database) : Prop where
  models : Models l Schema.sites c.bare fs d
  owned : ∀ id, own id ↔ ∃ name ∈ Schema.names, fs.find (l.relationPath name) = .ok id
  sole : ∀ id, own id → ∀ a b, fs.node? a = some (.file id) → fs.node? b = some (.file id) → a = b

/-- Whether what a catalog and its files became is the work of the describing relations alone, which now have the
entries of a database. -/
structure Inside (l : Location) (own : Nat → Prop) (c : Catalog) (fs : Files) (c' : Catalog) (fs' : Files)
    (d : Database) : Prop where
  holds : Holds l own c' fs' d
  use : SameUse c c'
  files : SameBut own fs fs'

theorem Holds.inside (h : Holds l own c fs d) : Inside l own c fs c fs d := ⟨h, .refl c, .refl fs⟩

theorem Inside.trans {c'' : Catalog} {fs'' : Files} (h : Inside l own c fs c' fs' d)
    (h' : Inside l own c' fs' c'' fs'' d') : Inside l own c fs c'' fs'' d' :=
  ⟨h'.holds, h.use.trans h'.use, h.files.trans h'.files⟩

namespace Holds

theorem location (h : Holds l own c fs d) : c.location = l := h.models.location

theorem find_own (h : Holds l own c fs d) (hn : name ∈ Schema.names) :
    ∃ id, own id ∧ fs.find (l.relationPath name) = .ok id := by
  obtain ⟨r, hk⟩ := exists_kept hn c.bare
  obtain ⟨ct, -, hr⟩ := h.models.kept name r hk
  obtain ⟨id, hh⟩ := hr.holds
  exact ⟨id, (h.owned id).2 ⟨name, hn, hr.find_of hh⟩, hr.find_of hh⟩

theorem made (h : Holds l own c fs d) (id : Nat) (hid : own id) : id < fs.contents.size := by
  obtain ⟨name, hn, hf⟩ := (h.owned id).1 hid
  exact h.models.apart.stored _ (Schema.relation_mem_sites hn) id hf

/-- No index lies in an own file. -/
theorem clear_index (h : Holds l own c fs d) (t i : String) : Clear own fs (l.indexPath t i) where
  made := h.made
  misses id hid hf := by
    obtain ⟨name, hn, hf'⟩ := (h.owned id).1 hid
    obtain ⟨names, hl, hnode⟩ := Files.find_eq_ok.1 hf
    obtain ⟨names', hl', hnode'⟩ := Files.find_eq_ok.1 hf'
    cases h.sole id hid names names' hnode hnode'
    exact Files.locate_relation_ne_index hl' hl

/-- Where the own files are left as they are the describing relations stay as they are. -/
theorem leaves (h : Holds l own c fs d) (hs : Leaves own fs g) : Holds l own c g d := by
  have hown : ∀ name ∈ Schema.names, ∃ id, own id ∧ fs.find (l.relationPath name) = .ok id ∧
      g.find (l.relationPath name) = .ok id := by
    intro name hn
    obtain ⟨id, hid, hf⟩ := h.find_own hn
    exact ⟨id, hid, hf, hs.find hid hf⟩
  have hfind : ∀ s ∈ Schema.sites, ∃ id, fs.find (l.pathOf s) = .ok id ∧ g.find (l.pathOf s) = .ok id := by
    intro s hm
    obtain ⟨name, hn, rfl⟩ := Schema.mem_sites.1 hm
    obtain ⟨id, -, hf, hg⟩ := hown name hn
    exact ⟨id, hf, hg⟩
  refine ⟨?_, fun id => ?_, fun id hid a b ha hb =>
    h.sole id hid a b ((hs.file id hid a).1 ha) ((hs.file id hid b).1 hb)⟩
  · have hbeside : Beside l Schema.sites "" fs g := by
      refine ⟨h.models.apart.of_find hs.keeps hs.size hfind, hs.keeps, fun s hm _ => ?_, fun s hm _ id hf => ?_⟩
      · obtain ⟨id, hf, hg⟩ := hfind s hm
        rw [hf, hg]
      · obtain ⟨name, hn, rfl⟩ := Schema.mem_sites.1 hm
        exact hs.bytes id ((h.owned id).2 ⟨name, hn, hf⟩)
    refine h.models.beside hbeside fun s hm he => ?_
    -- the empty path leads nowhere
    obtain ⟨names, hl, -⟩ := h.models.apart.locate hm
    rw [hl] at he
    cases he
  · rw [h.owned id]
    refine exists_congr fun name => and_congr_right fun hn => ?_
    obtain ⟨id', -, hf, hg⟩ := hown name hn
    rw [hf, hg]

theorem spares (h : Holds l own c fs d) (hs : Spares own fs g) : Holds l own c g d := h.leaves hs.leaves

/-! ### Reading and changing the describing relations -/

/-- Reading the describing relations keeps what they have and what the catalog has used. -/
theorem withstands (c₀ : Catalog) : Withstands fun c fs => Holds l own c fs d ∧ SameUse c₀ c := by
  rintro α name x hn hx c fs ⟨h, hu⟩
  obtain ⟨r, hk⟩ := exists_kept hn c.bare
  obtain ⟨r', hx', hm⟩ := h.models.read hx hk
  obtain ⟨res, c₁, fs₁, b, _, ha, hb, rfl, rfl, hu₁⟩ := abreast_own hn x c₀ c fs c.bare fs ⟨rfl, rfl, hu⟩
  rw [hx'] at hb
  obtain ⟨hbare, hfiles⟩ := Prod.mk.inj (Prod.mk.inj hb).2
  subst hfiles
  rw [ha]
  exact ⟨⟨hbare ▸ hm, h.owned, h.sole⟩, hu₁⟩

theorem survey {x : Act ε Catalog α} (h : Holds l own c fs d) (hx : Surveys x) :
    ∃ c₁, x.apply c fs = (x.value c.bare fs, c₁, fs) ∧ Inside l own c fs c₁ fs d := by
  obtain ⟨c₁, ha, -⟩ := (hx.reads shows_core).apply_eq c fs
  have h₁ := hx.preserves (withstands c) c fs ⟨h, .refl c⟩
  rw [ha] at h₁
  rw [(hx.reads shows_core).value_congr (show core c fs = core c.bare fs from rfl)] at ha
  exact ⟨c₁, ha, h₁.1, h₁.2, .refl fs⟩

end Holds

end Catalog

end Rowbase
