import Rowbase.Proofs.Database.Following

/-! # Indices that are read again

A catalog that has not used an index yet makes it from its description and reads its file, and then has the same of it
as a catalog that has used it all along. -/
namespace Rowbase

open Act Database
open Files (Apart Beside)

/-- Whether an index of a database can be used: no other has its place, and if it is loaded it is described. -/
structure Database.Handy (d : Database) (l : Location) (sites : Sites) (t i : String) : Prop where
  site : d.index t i ≠ none ∨ d.indexEntries t i ≠ [] → .index t i ∈ sites
  path : ∀ ix, d.index t i = some ix → ix.path = l.indexPath t i
  described : ∀ ix, d.index t i = some ix → ix.loaded = true →
    d.indexEntries t i ≠ [] ∧ (Models.describedIndex l d t i).Alike ix

theorem Database.Regular.handy {l : Location} {sites : Sites} {d : Database} (hd : d.Regular l sites) (t i : String) :
    d.Handy l sites t i where
  site hne := by
    obtain ⟨ix, hx⟩ := Option.ne_none_iff_exists'.1 (hne.elim id (hd.indexed t i).1)
    obtain ⟨ct, -, hs⟩ := hd.stands t i ix hx
    exact hs.site
  path ix hx := by
    obtain ⟨ct, -, hs⟩ := hd.stands t i ix hx
    exact hs.path_eq
  described ix hx _ := by
    obtain ⟨ct, -, hs⟩ := hd.stands t i ix hx
    refine ⟨(hd.indexed t i).2 (by rw [hx]; exact nofun), hs.table_eq, hs.name_eq, ?_, ?_, hs.path_eq⟩
    · exact (congrArg Prod.fst hs.definition).symm
    · exact (congrArg Prod.snd hs.definition).symm

/-- An index that is not there can be used if no other has its place. -/
theorem Database.handy_of_none {l : Location} {sites : Sites} {d : Database} {t i : String} (hx : d.index t i = none)
    (hs : .index t i ∈ sites) : d.Handy l sites t i where
  site _ := hs
  path ix h := by
    rw [hx] at h
    cases h
  described ix h := by
    rw [hx] at h
    cases h

namespace Index.Revision

theorem lockstep_act : ∀ v : Revision, Lockstep Resembles v.act fun _ ix ix' _ => ix.Peers ix'
  | insert h row => lockstep_insert h row
  | delete h row => lockstep_delete h row

theorem confined_act : ∀ v : Revision, Confined v.act
  | insert h row => confined_insert h row
  | delete h row => confined_delete h row

end Index.Revision

namespace Catalog

variable {l : Location} {sites : Sites} {c c' c₀ c₀' : Catalog} {fs fs₁ : Files} {d : Database} {t i : String}
  {ix ix' : Index} {α : Type} {p : Database → Prop}

/-! ## Using indices -/

/-- Whether what is done to the index of a name is done to an index and changes nothing else of a catalog, which becomes
another one before. -/
def Reaches (c : Catalog) (fs : Files) (t i : String) (ix : Index) (c₀ : Catalog) : Prop :=
  ∀ {α : Type} (x : Act StorageError Index α), ∃ indexes, (onIndex t i x).apply c fs =
      ((x.apply ix fs).1, { c₀ with indexes }, (x.apply ix fs).2.2) ∧
    ∀ key, indexes.get? key = if key = (t, i) then some (x.apply ix fs).2.1 else c₀.indexes.get? key

theorem reaches_known (hg : c.indexes.get? (t, i) = some ix) (fs : Files) : c.Reaches fs t i ix c := fun x =>
  ⟨_, onIndex_of_rememberIndex (apply_rememberIndex_known hg fs) x, fun _ => Bindings.get?_insert ..⟩

theorem reaches_described (hg : c.indexes.get? (t, i) = none)
    (hx : (indexDefinition t i).apply c fs = (.ok (d.definition t i), c₀, fs)) (hl : c₀.location = l)
    (hne : ¬ (d.definition t i).1.isEmpty = true) : c.Reaches fs t i (Models.describedIndex l d t i) c₀ := fun x => by
  have hremember := apply_rememberIndex_described hg hx hl
  rw [if_neg hne] at hremember
  refine ⟨_, onIndex_of_rememberIndex hremember x, fun key => ?_⟩
  rw [Bindings.get?_insert]
  split
  · rfl
  · rename_i he
    exact (Bindings.get?_insert ..).trans (if_neg he)

/-- A change of an index with its file, which both catalogs have. -/
theorem Follows.setIndex {indexes indexes' : Bindings (String × String) Index} (h : c.Follows c' fs)
    (hm : Models l sites c fs d) (hb : Beside l sites (l.indexPath t i) fs fs₁) (hp : ix.Peers ix')
    (hi : ∀ key, indexes.get? key = if key = (t, i) then some ix else c.indexes.get? key)
    (hi' : ∀ key, indexes'.get? key = if key = (t, i) then some ix' else c'.indexes.get? key) :
    Follows { c with indexes } { c' with indexes := indexes' } fs₁ := by
  refine ⟨h.location, fun name r' hk => ?_, fun key ix₁' hx => ?_, fun key ix₁ hx hnone => ?_⟩
  · obtain ⟨r, hk, hr⟩ := h.kept name r' hk
    exact ⟨r, hk, resembles_frame hm hk hr hb fun ho => (Models.locate_index_ne hm.apart ho t i).symm⟩
  · rw [hi'] at hx
    rw [hi]
    split at hx
    · rename_i he
      cases hx
      exact ⟨ix, if_pos he, hp⟩
    · rename_i he
      rw [if_neg he]
      exact h.index key ix₁' hx
  · rw [hi'] at hnone
    rw [hi] at hx
    split at hnone
    · cases hnone
    · rename_i he
      rw [if_neg he] at hx
      exact h.dormant key ix₁ hx hnone

/-- Both catalogs find the same index, or find that there is none. -/
theorem Follows.reach (h : c.Follows c' fs) (hm : Models l sites c fs d) (hexclusive : sites.exclusive = true)
    (hd : d.Handy l sites t i) :
    (∃ c₀ c₀', c₀.Follows c₀' fs ∧ ∀ {α : Type} (x : Act StorageError Index α),
      (onIndex t i x).apply c fs = (.error (.relation (.indexMissing i t)), c₀, fs) ∧
      (onIndex t i x).apply c' fs = (.error (.relation (.indexMissing i t)), c₀', fs)) ∨
    ∃ ix ix' c₀ c₀', c.Reaches fs t i ix c₀ ∧ c'.Reaches fs t i ix' c₀' ∧ Coupled (Models l sites · · d) c₀ c₀' fs ∧
      ix.path = l.indexPath t i ∧ .index t i ∈ sites ∧ ix.Resembles ix' fs ∧ (d.index t i = none → ix' = ix) := by
  cases hx : c.indexes.get? (t, i) with
  | some ix =>
    have hix : d.index t i = some ix := (hm.index t i).symm.trans hx
    have hs := hd.site (.inl (by rw [hix]; exact nofun))
    cases hx' : c'.indexes.get? (t, i) with
    | some ix' =>
      obtain ⟨ix₁, hx₁, hp⟩ := h.index (t, i) ix' hx'
      rw [hx] at hx₁
      cases hx₁
      exact .inr ⟨ix, ix', c, c', reaches_known hx fs, reaches_known hx' fs, ⟨h, hm⟩, hd.path ix hix, hs,
        hp.resembles fs, fun hnone => nomatch hix.symm.trans hnone⟩
    | none =>
      obtain ⟨hl, hb⟩ := h.dormant (t, i) ix hx hx'
      obtain ⟨hne, halike⟩ := hd.described ix hix hl
      have hf := hm.filed hexclusive t i hs
      rw [hix] at hf
      obtain ⟨c₀', ha', h₀⟩ := h.survey_right (surveys_indexDefinition t i)
      rw [hm.value_indexDefinition] at ha'
      have hreach : c'.Reaches fs t i (Models.describedIndex l d t i) c₀' :=
        reaches_described hx' ha' (h₀.location.trans hm.location) (by rwa [List.isEmpty_iff, definition_eq_nil])
      refine .inr ⟨ix, _, c, c₀', reaches_known hx fs, hreach, ⟨h₀, hm⟩, hd.path ix hix, hs, ?_,
        fun hnone => nomatch hix.symm.trans hnone⟩
      exact hb.resembles hl rfl halike.symm (hd.path ix hix ▸ hf.read_of_loaded hl)
  | none =>
    have hx' : c'.indexes.get? (t, i) = none := by
      refine Option.eq_none_iff_forall_ne_some.2 fun ix' hix' => ?_
      obtain ⟨ix, hix, -⟩ := h.index (t, i) ix' hix'
      exact nomatch hx.symm.trans hix
    obtain ⟨c₀, c₀', ha, ha', h₀, hm₀⟩ := Coupled.survey ⟨h, hm⟩ Models.withstands (surveys_indexDefinition t i)
    rw [hm.value_indexDefinition] at ha ha'
    have hl := hm₀.location
    have hl' := h₀.location.trans hl
    by_cases he : (d.definition t i).1.isEmpty = true
    · have hnone := apply_rememberIndex_described hx ha hl
      have hnone' := apply_rememberIndex_described hx' ha' hl'
      rw [if_pos he] at hnone hnone'
      refine .inl ⟨c₀, c₀', h₀, fun x => ⟨?_, ?_⟩⟩
      · rw [onIndex, apply_bind_error hnone]
      · rw [onIndex, apply_bind_error hnone']
    · refine .inr ⟨_, _, c₀, c₀', reaches_described hx ha hl he, reaches_described hx' ha' hl' he, ⟨h₀, hm₀⟩, rfl,
        hd.site (.inr ?_), (Index.Twins.refl _).peers.resembles fs, fun _ => rfl⟩
      rwa [List.isEmpty_iff, definition_eq_nil] at he

/-- An act on an index that is there, or is new to both catalogs, or is missing to both. -/
theorem lockstep_onIndex {x : Act StorageError Index α} (hexclusive : sites.exclusive = true)
    (hp : ∀ d, p d → d.Handy l sites t i) (hc : Index.Confined x)
    (hx : (∀ d, p d → d.index t i = none) ∨ Lockstep Index.Resembles x fun _ ix ix' _ => ix.Peers ix') :
    Lockstep (Coupled (Modelled l sites p)) (onIndex t i x) fun _ => Follows := by
  rintro c c' fs ⟨h, d, hm, hd⟩
  rcases h.reach hm hexclusive (hp d hd) with
    ⟨c₀, c₀', h₀, hnone⟩ | ⟨ix, ix', c₀, c₀', hreach, hreach', ⟨h₀, hm₀⟩, hpath, hs, hsame, heq⟩
  · exact ⟨_, c₀, c₀', fs, (hnone x).1, (hnone x).2, h₀⟩
  · obtain ⟨res, ix₁, ix₁', fs₁, ha, ha', hpeers⟩ : ∃ res ix₁ ix₁' fs₁, x.apply ix fs = (res, ix₁, fs₁) ∧
        x.apply ix' fs = (res, ix₁', fs₁) ∧ ix₁.Peers ix₁' := by
      rcases hx with hx | hx
      · rw [heq (hx d hd)]
        exact ⟨_, _, _, _, rfl, rfl, (Index.Twins.refl _).peers⟩
      · exact hx ix ix' fs hsame
    have hb := hc hpath hm₀.apart hs
    obtain ⟨indexes, hon, hi⟩ := hreach x
    obtain ⟨indexes', hon', hi'⟩ := hreach' x
    rw [ha] at hb hon hi
    rw [ha'] at hon' hi'
    exact ⟨res, _, _, fs₁, hon, hon', h₀.setIndex hm₀ hb hpeers hi hi'⟩

/-! ## Reading and changing indices -/

theorem inStep_lookup (hexclusive : sites.exclusive = true) (row : Row) :
    InStep (Modelled l sites (Regular l sites)) (onIndex t i (Index.lookup row)) := by
  refine inStep_of_preserves (lockstep_onIndex hexclusive (fun d hd => hd.handy t i) (Index.confined_lookup row)
    (.inr (Index.lockstep_lookup row))) ?_
  rintro c fs ⟨d, hm, hd⟩
  have hlook := (looks_lookup (t := t) (i := i) hd row).preserves c fs hm
  rw [(looks_lookup (t := t) (i := i) hd row).reads.files_eq] at hlook ⊢
  exact ⟨d, hlook, hd⟩

/-- Rows come to an index and go out of it. -/
theorem inStep_revise (hexclusive : sites.exclusive = true) (v : Index.Revision) :
    InStep (Modelled l sites (Regular l sites)) (onIndex t i v.act) := by
  refine inStep_of_preserves (lockstep_onIndex hexclusive (fun d hd => hd.handy t i) v.confined_act
    (.inr v.lockstep_act)) ?_
  rintro c fs ⟨d, hm, hd⟩
  cases hx : d.index t i with
  | none =>
    obtain ⟨c₁, ha, h₁⟩ := apply_onIndex_none hm hd hx v.act
    rw [ha]
    exact ⟨d, h₁, hd⟩
  | some ix =>
    obtain ⟨ct, -, hs⟩ := hd.stands t i ix hx
    have hcontents : ix.contents fs = .ok ix.map := Index.contents_of_loaded hs.loaded
    have hact := v.apply_act hcontents
    have hself : ix.withMap ix.map = ix := by rw [Index.withMap, ← hs.loaded]
    rw [hself] at hact
    cases hr : ix.keyOf v.row >>= v.revised ix with
    | error e =>
      rw [hr] at hact
      obtain ⟨c₁, ha, h₁⟩ := hm.onIndex (.inl hx) hact (.inr rfl) (hm.apart.beside_self _)
        (Models.Usable.filed (.inl hx) hm)
      rw [setIndex_self hx] at h₁
      rw [ha]
      exact ⟨d, h₁, hd⟩
    | ok ix₁ =>
      obtain ⟨key, -, hv⟩ := bind_eq_ok.1 hr
      obtain ⟨halike, hl⟩ := Index.Revision.alike_revised hv
      obtain ⟨fs₁, hw, hb⟩ := hm.apart.write (b := ix₁.document.bytes) hs.site
      have hread := hm.apart.read_write hs.site hw
      rw [hr] at hact
      dsimp only at hact
      rw [Index.apply_save (by rw [halike.path, hs.path_eq]; exact hw)] at hact
      obtain ⟨c₁, ha, h₁⟩ := hm.onIndex (.inl hx) hact (.inl fun _ => hs.site) hb
        fun _ _ => .of_loaded (hl.trans hs.loaded) hread
      rw [ha]
      exact ⟨_, h₁, hd.like (like_setIndex hx halike hl)⟩

/-! ## Making and removing indices -/

/-- An index that is new to both catalogs is made by both of the same rows. -/
theorem lockstep_newIndex (hexclusive : sites.exclusive = true) (hs : .index t i ∈ sites)
    (entries : List (Handle × Row)) : Lockstep (Coupled (Modelled l sites fun d => d.index t i = none))
      (onIndex t i (Index.create entries)) fun res => Coupled (Modelled l sites fun d =>
        res = .ok () ∨ d.Handy l sites t i) := by
  refine (lockstep_onIndex hexclusive (fun d hd => handy_of_none hd hs) (Index.confined_create entries)
    (.inl fun _ hd => hd)).also (R := fun res => Modelled l sites fun d => res = .ok () ∨ d.Handy l sites t i) ?_
  rintro c - fs ⟨-, d, hm, hd⟩
  by_cases hdef : (d.definition t i).1 = []
  · obtain ⟨c₁, h₁, ha⟩ := hm.onIndex_missing hd hdef (Index.create entries)
    rw [ha]
    exact ⟨d, h₁, .inr (handy_of_none hd hs)⟩
  · rcases hm.createFrom (fun _ => hs) hd hdef entries with
      ⟨e, ix, c₁, ha, hp, hl, h₁, -⟩ | ⟨ix, c₁, fs₁, ha, -, -, -, h₁⟩ <;> rw [ha]
    · refine ⟨_, h₁, .inr ⟨fun _ => hs, fun ix' hx => ?_, fun ix' hx hl' => ?_⟩⟩
      · obtain rfl := Option.some.inj ((if_pos ⟨rfl, rfl⟩).symm.trans hx)
        exact hp
      · obtain rfl := Option.some.inj ((if_pos ⟨rfl, rfl⟩).symm.trans hx)
        exact nomatch hl.symm.trans hl'
    · exact ⟨_, h₁, .inl rfl⟩

theorem Follows.forgetIndex (h : c.Follows c' fs) (t i : String) :
    Follows { c with indexes := c.indexes.erase (t, i) } { c' with indexes := c'.indexes.erase (t, i) } fs := by
  refine ⟨h.location, h.kept, fun key ix' hx => ?_, fun key ix hx hnone => ?_⟩
  · rw [Bindings.get?_erase] at hx ⊢
    split at hx
    · cases hx
    · rename_i he
      rw [if_neg he]
      exact h.index key ix' hx
  · rw [Bindings.get?_erase] at hx hnone
    split at hx
    · cases hx
    · rename_i he
      rw [if_neg he] at hnone
      exact h.dormant key ix hx hnone

/-- An index is removed with its file. -/
theorem lockstep_removeIndex (hexclusive : sites.exclusive = true) (hp : ∀ d, p d → d.Handy l sites t i) :
    Lockstep (Coupled (Modelled l sites p)) (removeIndex t i) fun _ => Coupled (Modelled l sites fun _ => True) := by
  have hforget : Lockstep Follows (forgetIndex t i) fun _ => Follows :=
    lockstep_update fun c c' fs h => h.forgetIndex t i
  have hremove : Lockstep (Coupled (Modelled l sites p)) (removeIndex t i) fun _ => Follows :=
    (lockstep_onIndex hexclusive hp Index.confined_drop (.inr Index.lockstep_drop)).bind (fun _ => hforget) id
  refine hremove.also (R := fun _ => Modelled l sites fun _ => True) ?_
  rintro c - fs ⟨-, d, hm, hd⟩
  have hhandy := hp d hd
  by_cases hfound : d.index t i ≠ none ∨ d.indexEntries t i ≠ []
  · obtain ⟨ix, husable, hpath⟩ : ∃ ix, Models.Usable l d t i ix ∧ ix.path = l.indexPath t i := by
      cases hx : d.index t i with
      | some ix => exact ⟨ix, .inl hx, hhandy.path ix hx⟩
      | none =>
        have hne := hfound.resolve_left fun h => h hx
        exact ⟨_, .inr ⟨hx, mt definition_eq_nil.1 hne, rfl⟩, rfl⟩
    rcases hm.removeIndex (fun _ => hhandy.site hfound) husable hpath with
      ⟨e, ix', c₁, -, -, ha, h₁⟩ | ⟨c₁, fs₁, -, ha, h₁⟩ <;> rw [ha]
    · exact ⟨_, h₁, trivial⟩
    · exact ⟨_, h₁, trivial⟩
  · obtain ⟨hx, hnil⟩ := not_or.1 hfound
    obtain ⟨c₁, h₁, ha⟩ := hm.onIndex_missing (not_ne_iff.1 hx) (definition_eq_nil.2 (not_ne_iff.1 hnil)) Index.drop
    rw [removeIndex, apply_bind_error ha]
    exact ⟨d, h₁, trivial⟩

end Catalog

end Rowbase
