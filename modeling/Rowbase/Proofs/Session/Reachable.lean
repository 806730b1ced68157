import Rowbase.Proofs.Twin.Session

/-! # What can become of a database

A database begins at a place where nothing lies in its way. Then statements are carried out on it, sessions end and
others begin, and other programs do what they like with all files but those of the catalog. As long as no table that is
listed has a file in common with the catalog, the catalog can be opened and holds what its entries say. -/
namespace Rowbase.Session

open Act Database
open Catalog (Holds Twins Matches Clash Usable)
open Files (SameBut Leaves Clear)

variable {l : Location} {own : Nat → Prop} {L : List String} {s : Session} {fs fs' g : Files} {c c' : Catalog}
  {d : Database} {state : Session × Files} {t : String}

/-- Whether no table that is listed, but for the catalog's own, has its file in common with one of these. -/
def Distinct (state : Session × Files) : Prop :=
  ∀ t, t ∉ Schema.names → sees state (Catalog.tableExists t) = .ok true → ∀ name ∈ Schema.names, ∀ id,
    state.2.find (state.1.location.relationPath t) = .ok id →
      state.2.find (state.1.location.relationPath name) ≠ .ok id

/-- Whether a file is one of the catalog's own. -/
def OwnFile (l : Location) (fs : Files) (id : Nat) : Prop :=
  ∃ name ∈ Schema.names, fs.find (l.relationPath name) = .ok id

/-- What can become of a database at a place, as long as no table has a file in common with the catalog. -/
inductive Reaches (l : Location) : Session × Files → Prop where
  | begun {fs : Files} (hlinkless : fs.Linkless) (h : l.Suits Schema.sites fs) : Reaches l (⟨l, none⟩, fs)
  | executed {state : Session × Files} (h : Reaches l state) (statement : Language.Statement)
      (hd : Distinct ((execute statement).apply state.1 state.2).2) :
      Reaches l ((execute statement).apply state.1 state.2).2
  | reopened {s : Session} {fs : Files} (h : Reaches l (s, fs)) : Reaches l (⟨l, none⟩, fs)
  /-- Other programs leave the files of the catalog as they are, once these are made. -/
  | changed {s : Session} {fs fs' : Files} (h : Reaches l (s, fs))
      (hmade : ∀ name ∈ Schema.names, ∃ id, fs.find (l.relationPath name) = .ok id)
      (hleaves : fs.Leaves (OwnFile l fs) fs') (hd : Distinct (s, fs')) : Reaches l (s, fs')

/-- Whether a session opens a catalog that is its own twin. Opening it changes no file but those of the catalog, and
none at all unless these are still to be made. -/
structure Stands (l : Location) (own : Nat → Prop) (L : List String) (s : Session) (fs : Files) (c : Catalog)
    (g : Files) : Prop where
  location : s.location = l
  opened : opened.apply s fs = (.ok c, { s with catalog := some c }, g)
  twins : Twins l own L c g c g
  files : ∀ names, ¬ l.Own g names → g.fileAt? names = fs.fileAt? names
  made : g = fs ∨ s.catalog = none ∧ ∀ name ∈ Schema.names, ∀ id, fs.find (l.relationPath name) ≠ .ok id

theorem stands_some (hl : s.location = l) (h : Twins l own L c fs c fs) :
    Stands l own L { s with catalog := some c } fs c fs := ⟨hl, opened_some s c fs, h, fun _ _ => rfl, .inl rfl⟩

theorem sees_tableExists (h : Holds l own c g d)
    (hx : opened.apply s fs = (.ok c, { s with catalog := some c }, g)) (t : String) :
    sees (s, fs) (Catalog.tableExists t) = .ok true ↔ t ∈ d.description.tables := by
  obtain ⟨_, ha, -⟩ := h.survey (Catalog.surveys_tableExists t)
  rw [sees_of_opened hx, value, ha, value_tableExists h.models, mem_tables_description,
    ← List.isEmpty_eq_false_iff]
  cases (d.tableHandles t).isEmpty with
  | true => simp
  | false => exact iff_of_true rfl rfl

/-- A table that is listed and leads to an own file has that file in common with the catalog. -/
theorem not_distinct (hl : s.location = l) (h : Holds l own c fs d)
    (hx : opened.apply s fs = (.ok c, { s with catalog := some c }, fs)) (ht : t ∈ d.description.tables)
    (hn : t ∉ Schema.names) (hclear : ¬ Clear own fs (l.relationPath t)) : ¬ Distinct (s, fs) := by
  subst hl
  refine fun hd => hclear ⟨h.made, fun id hid hf => ?_⟩
  obtain ⟨name, hname, hf'⟩ := (h.owned id).1 hid
  exact hd t hn ((sees_tableExists h hx t).2 ht) name hname id hf hf'

theorem not_distinct_of_clash (hl : s.location = l) (h : Clash l own c fs) :
    ¬ Distinct ({ s with catalog := some c }, fs) := by
  obtain ⟨d, t, hh, ht, hn, hclear⟩ := h
  exact not_distinct (s := { s with catalog := some c }) hl hh (opened_some s c fs) ht hn hclear

/-- Tables that are listed lead to no own file where no table has a file in common with the catalog. -/
theorem clear_of_distinct (hl : s.location = l) (h : Holds l own c fs d)
    (hx : opened.apply s fs = (.ok c, { s with catalog := some c }, fs)) (hdistinct : Distinct (s, fs))
    (hd : d.description.Covers L) (ht : Usable L t) : Clear own fs (l.relationPath t) := by
  by_contra hclear
  exact not_distinct hl h hx (hd.tables ▸ ht.1) ht.2 hclear hdistinct

namespace Stands

variable (h : Stands l own L s fs c g)
include h

/-- A new session opens the catalog as the files have it. -/
theorem renewed {d' : Database} (hm : Matches l own (Usable L) (Usable L) d d' c g c g)
    (hd : d.description.Covers L) : ∃ c₀ d₀, Session.opened.apply ⟨l, none⟩ fs = (.ok c₀, ⟨l, some c₀⟩, g) ∧
      Holds l own c₀ g d₀ ∧ c₀.Unused ∧ d₀.description = d.description := by
  cases hs : s.catalog with
  | none =>
    obtain ⟨location, catalog⟩ := s
    cases hs
    cases h.location
    exact ⟨c, d, h.opened, hm.first, unused_of_opened h.opened rfl, rfl⟩
  | some c₁ =>
    obtain ⟨c₀, hx, h₀, hu⟩ := hm.first.reopened hd
    obtain rfl : g = fs := h.made.resolve_right fun hnone => nomatch hs.symm.trans hnone.1
    exact ⟨c₀, d.dormant, opened_of_setUp hx, h₀, hu, rfl⟩

theorem reopened : ∃ c₀, Stands l own L ⟨l, none⟩ fs c₀ g := by
  obtain ⟨d, _, hd, hm⟩ := h.twins
  obtain ⟨c₀, d₀, hx, h₀, hu, hdesc⟩ := h.renewed hm hd
  exact ⟨c₀, rfl, hx, Catalog.twins_of_unused h₀ h₀ hu hu (.refl g) rfl (hdesc ▸ hd) hm.clear, h.files,
    h.made.imp_right fun hnone => ⟨rfl, hnone.2⟩⟩

/-- A statement leaves a session that stands, unless it leaves a table with a file in common with the catalog. -/
theorem executed (statement : Language.Statement)
    (hd : Distinct ((execute statement).apply s fs).2) : ∃ L c₁ fs₁,
    ((execute statement).apply s fs).2 = ({ s with catalog := some c₁ }, fs₁) ∧
      Stands l own L { s with catalog := some c₁ } fs₁ c₁ fs₁ := by
  obtain ⟨res, c₁, fs₁, _, _, ha, ha', hends⟩ := Catalog.abreast_carryOut statement c g c g h.twins
  cases ha.symm.trans ha'
  have hx := apply_execute h.opened statement
  rw [ha] at hx
  rw [hx] at hd
  rcases hends with ⟨L, htwins⟩ | hclash
  · exact ⟨L, c₁, fs₁, by rw [hx], stands_some h.location htwins⟩
  · exact absurd hd (not_distinct_of_clash h.location hclash)

theorem changed (hmade : ∀ name ∈ Schema.names, ∃ id, fs.find (l.relationPath name) = .ok id)
    (hleaves : fs.Leaves (OwnFile l fs) fs') (hdistinct : Distinct (s, fs')) : ∃ c₁, Stands l own L s fs' c₁ fs' := by
  obtain ⟨d, _, hd, hm⟩ := h.twins
  obtain rfl : g = fs := h.made.resolve_right fun hnone => by
    obtain ⟨id, hid⟩ := hmade Schema.tables (by decide)
    exact hnone.2 _ (by decide) id hid
  have hown : OwnFile l g = own := funext fun id => propext (hm.first.owned id).symm
  have h₁ : Holds l own c fs' d := hm.first.leaves (hown ▸ hleaves)
  cases hs : s.catalog with
  | none =>
    obtain ⟨location, catalog⟩ := s
    cases hs
    cases h.location
    obtain ⟨c₀, hx, h₀, hu⟩ := h₁.reopened hd
    have hx := opened_of_setUp hx
    exact ⟨c₀, rfl, hx, Catalog.twins_of_unused h₀ h₀ hu hu (.refl fs') rfl hd fun t ht =>
      clear_of_distinct rfl h₀ hx hdistinct hd ht, fun _ _ => rfl, .inl rfl⟩
  | some c₀ =>
    obtain ⟨location, catalog⟩ := s
    cases hs
    cases eq_of_opened h.opened rfl
    have hx : Session.opened.apply ⟨location, some c⟩ fs' = (.ok c, ⟨location, some c⟩, fs') := rfl
    exact ⟨c, h.location, hx, ⟨d, d, hd, { hm with
      first := h₁
      second := h₁
      files := .refl fs'
      description := rfl
      clear := fun t ht => clear_of_distinct h.location h₁ hx hdistinct hd ht }⟩, fun _ _ => rfl, .inl rfl⟩

end Stands

/-- Where a database can begin, a session stands. -/
theorem stands_of_suits (hlinkless : fs.Linkless) (h : l.Suits Schema.sites fs) :
    ∃ own c g, Stands l own Schema.names ⟨l, none⟩ fs c g := by
  obtain ⟨c, g, d, own, hx, hholds, hfresh, hu, hfiles⟩ := Catalog.holds_of_suits h hlinkless
  have hdesc := fresh_description hfresh
  have hd : d.description.Covers Schema.names := by
    rw [hdesc]
    exact ⟨rfl, fun _ hn => hn, fun _ he => absurd he List.not_mem_nil⟩
  refine ⟨own, c, g, rfl, opened_of_setUp hx, Catalog.twins_of_unused hholds hholds hu hu (.refl g) rfl hd
    fun t ht => absurd ht.1 ht.2, hfiles, .inr ⟨rfl, fun name hn id hf => ?_⟩⟩
  have hmissing := h.missing (Schema.relation_mem_sites hn)
  obtain ⟨names, hl, hnode⟩ := Files.find_eq_ok.1 hf
  rw [Location.pathOf, Files.find_eq_ok.2 ⟨names,
    Files.locate_of_keeps (Files.keepsDirectories_makeDirectories fs l.directory) hl,
    ((Files.keepsFiles_makeDirectories fs l.directory).file names id).2 hnode⟩] at hmissing
  cases hmissing

/-- Whatever becomes of a database, a session stands. -/
theorem Reaches.stands (h : Reaches l state) : ∃ own L c g, Stands l own L state.1 state.2 c g := by
  induction h with
  | begun hlinkless h =>
    obtain ⟨own, c, g, h⟩ := stands_of_suits hlinkless h
    exact ⟨own, _, c, g, h⟩
  | executed _ statement hd ih =>
    obtain ⟨own, L, c, g, h⟩ := ih
    obtain ⟨L, c₁, fs₁, hx, h₁⟩ := h.executed statement hd
    rw [hx]
    exact ⟨own, L, c₁, fs₁, h₁⟩
  | reopened _ ih =>
    obtain ⟨own, L, c, g, h⟩ := ih
    obtain ⟨c₀, h₀⟩ := h.reopened
    exact ⟨own, L, c₀, g, h₀⟩
  | changed _ hmade hleaves hd ih =>
    obtain ⟨own, L, c, g, h⟩ := ih
    obtain ⟨c₁, h₁⟩ := h.changed hmade hleaves hd
    exact ⟨own, L, c₁, _, h₁⟩

end Rowbase.Session
