import Rowbase.Proofs.Database.Indices
import Rowbase.Proofs.Frame.Relation

/-! # Catalogs at some places only

What is done to the describing relations, and to tables and indices that are looked for at some places, changes files at
these places only. -/
namespace Rowbase.Catalog

open Act
open Files (Linkless Within Lies Leads)

variable {P : List String → Prop} {T : Site → Prop} {l : Location} {k fs g : Files} {c c' : Catalog}
  {t i name : String} {r : Relation}
  {α : Type}

/-- Whether some tables and indices are looked for at some places, as the describing relations are, and files have changed
at these places only. -/
structure Placed (P : List String → Prop) (T : Site → Prop) (l : Location) (k : Files) (c : Catalog) (fs : Files) :
    Prop where
  location : c.location = l
  relations : ∀ t r, c.kept t = some r → r.file.Inside P (l.relationPath t) fs
  indexes : ∀ t i ix, c.indexes.get? (t, i) = some ix → ix.path = l.indexPath t i
  own : ∀ name ∈ Schema.names, Leads P fs (l.relationPath name)
  leads : ∀ s, T s → Leads P fs (l.pathOf s)
  linkless : fs.Linkless
  within : Within P k fs

/-- Whatever files become at the places, and the catalog with them. -/
theorem Placed.move (h : c.Placed P T l k fs) (hw : Within P fs g) (hl : c'.location = c.location)
    (hr : ∀ t r, c'.kept t = some r → c.kept t = some r ∨ r.file.Inside P (l.relationPath t) g)
    (hx : ∀ t i ix, c'.indexes.get? (t, i) = some ix → c.indexes.get? (t, i) = some ix ∨ ix.path = l.indexPath t i) :
    c'.Placed P T l k g where
  location := hl.trans h.location
  relations t r hk := (hr t r hk).elim (fun hk => (h.relations t r hk).within hw) id
  indexes t i ix hk := (hx t i ix hk).elim (h.indexes t i ix) id
  own name hn := (h.own name hn).within hw
  leads s hs := (h.leads s hs).within hw
  linkless := hw.linkless h.linkless
  within := h.within.trans hw

theorem Placed.keep (h : c.Placed P T l k fs) (hw : Within P fs g) (hr : r.file.Inside P (l.relationPath t) g) :
    (c.keep t r).Placed P T l k g := by
  refine h.move hw location_keep (fun t' r' hk => ?_) fun _ _ _ hx => .inl (by rwa [indexes_keep] at hx)
  rw [kept_keep] at hk
  split at hk
  · rename_i he
    cases hk
    exact .inr (he ▸ hr)
  · exact .inl hk

theorem Placed.setIndex (h : c.Placed P T l k fs) (hw : Within P fs g) {ix : Index} (hx : ix.path = l.indexPath t i) :
    Placed P T l k { c with indexes := c.indexes.insert (t, i) ix } g := by
  refine h.move hw rfl (fun _ _ hk => .inl hk) fun t' i' ix' hk => ?_
  rw [Bindings.get?_insert] at hk
  split at hk
  · rename_i he
    cases he
    cases hk
    exact .inr hx
  · exact .inl hk

theorem Placed.forgetTable (h : c.Placed P T l k fs) (t : String) :
    Placed P T l k { c with relations := c.relations.erase t } fs := by
  refine h.move (.refl fs) rfl (fun t' r hk => .inl ?_) fun _ _ _ hx => .inl hx
  by_cases hn : t' ∈ Schema.names
  · rcases Schema.mem_names.1 hn with rfl | rfl | rfl <;> exact hk
  · rw [kept_of_not_mem hn] at hk ⊢
    rw [Bindings.get?_erase] at hk
    split at hk
    · cases hk
    · exact hk

theorem Placed.forgetIndex (h : c.Placed P T l k fs) (t i : String) :
    Placed P T l k { c with indexes := c.indexes.erase (t, i) } fs := by
  refine h.move (.refl fs) rfl (fun _ _ hk => .inl hk) fun _ _ _ hx => ?_
  rw [Bindings.get?_erase] at hx
  split at hx
  · cases hx
  · exact .inl hx

/-! ## Relations that are kept -/

/-- An act on a relation that is kept stays at the places if it does so on every relation. -/
theorem Placed.onRelation_of_kept (h : c.Placed P T l k fs) (ht : Leads P fs (l.relationPath t))
    (hk : c.kept t = some r) {x : Act StorageError Relation α} (hx : ∀ path k, Preserves (Relation.Inside P path k) x) :
    Placed P T l k ((onRelation t x).apply c fs).2.1 ((onRelation t x).apply c fs).2.2 := by
  have hr := hx _ _ r fs ⟨h.relations t r hk, ht, h.linkless, .refl fs⟩
  rw [Catalog.onRelation_of_kept hk]
  exact h.keep hr.within hr.file

/-- An act on a describing relation stays at the places. -/
theorem preserves_own (hn : name ∈ Schema.names) {x : Act StorageError Relation α}
    (hx : ∀ path k, Preserves (Relation.Inside P path k) x) : Preserves (Placed P T l k) (onRelation name x) := by
  intro c fs h
  obtain ⟨r, hk⟩ := exists_kept hn c
  exact h.onRelation_of_kept (h.own name hn) hk hx

/-- Reading the describing relations stays at the places. -/
theorem withstands_placed : Withstands (Placed P T l k) := fun _ _ _ hn hx =>
  preserves_own hn fun _ _ => Relation.preserves_of_reads hx

/-! ## Tables and indices that are used -/

/-- What is read of the describing relations, and that it stays at the places. -/
theorem Placed.survey {ε : Type} {x : Act ε Catalog α} (h : c.Placed P T l k fs) (hx : Surveys x) :
    ∃ c₁, x.apply c fs = (x.value c fs, c₁, fs) ∧ c₁.Placed P T l k fs := by
  obtain ⟨c₁, ha, -⟩ := (hx.reads shows_core).apply_eq c fs
  have h₁ := hx.preserves withstands_placed c fs h
  rw [ha] at h₁
  exact ⟨c₁, ha, h₁⟩

/-- A table is looked for at its place. -/
theorem Placed.remember (h : c.Placed P T l k fs) (hn : t ∉ Schema.names) :
    ∃ res c₁, (Catalog.remember t).apply c fs = (res, c₁, fs) ∧ c₁.Placed P T l k fs ∧
      ∀ r, res = .ok r → c₁.kept t = some r := by
  cases hk : c.kept t with
  | some r =>
    refine ⟨.ok r, c, apply_remember_of_kept hn hk fs, h, fun r' hr => ?_⟩
    cases hr
    exact hk
  | none =>
    obtain ⟨c₁, ha, h₁⟩ := h.survey (surveys_columnsOf t)
    cases hv : (columnsOf t).value c fs with
    | error e =>
      rw [hv] at ha
      refine ⟨.error e, c₁, ?_, h₁, by simp⟩
      rw [kept_of_not_mem hn] at hk
      rw [Catalog.remember, apply_bind_ok (apply_thing c fs), hk]
      exact apply_bind_error ha _
    | ok columns =>
      rw [hv] at ha
      have hx := apply_remember_of_columnsOf hk ha
      split at hx
      · exact ⟨_, c₁, hx, h₁, by simp⟩
      · have hclosed : (Relation.describe t columns (c₁.location.relationPath t)).file.Inside P (l.relationPath t) fs :=
          Heap.BlockFile.inside_of_closed (by rw [h₁.location]; rfl) rfl
        refine ⟨_, _, hx, h₁.keep (.refl fs) hclosed, fun r hr => ?_⟩
        cases hr
        rw [kept_keep, if_pos rfl]

/-- An act on a table stays at the places. -/
theorem preserves_onRelation (ht : T (.relation t)) {x : Act StorageError Relation α}
    (hx : ∀ path k, Preserves (Relation.Inside P path k) x) : Preserves (Placed P T l k) (onRelation t x) := by
  by_cases hn : t ∈ Schema.names
  · exact preserves_own hn hx
  intro c fs h
  obtain ⟨res, c₁, ha, h₁, hkept⟩ := h.remember hn
  cases res with
  | error e =>
    rw [onRelation_of_not_mem hn, apply_bind_error ha]
    exact h₁
  | ok r =>
    rw [onRelation_of_remember hn ha (hkept r rfl)]
    exact h₁.onRelation_of_kept (h₁.leads (.relation t) ht) (hkept r rfl) hx

/-- An index is looked for at its place. -/
theorem Placed.rememberIndex (h : c.Placed P T l k fs) (t i : String) :
    ∃ res c₁, (Catalog.rememberIndex t i).apply c fs = (res, c₁, fs) ∧ c₁.Placed P T l k fs ∧
      ∀ ix, res = .ok ix → ix.path = l.indexPath t i := by
  cases hg : c.indexes.get? (t, i) with
  | some ix =>
    refine ⟨.ok ix, c, apply_rememberIndex_known hg fs, h, fun ix' hx => ?_⟩
    cases hx
    exact h.indexes t i ix hg
  | none =>
    obtain ⟨c₁, ha, h₁⟩ := h.survey (surveys_indexDefinition t i)
    cases hv : (indexDefinition t i).value c fs with
    | error e =>
      rw [hv] at ha
      refine ⟨.error e, c₁, ?_, h₁, by simp⟩
      rw [Catalog.rememberIndex, apply_bind_ok (apply_thing c fs), hg]
      exact apply_bind_error ha _
    | ok definition =>
      rw [hv] at ha
      have hx := apply_rememberIndex_described hg ha h₁.location
      split at hx
      · exact ⟨_, c₁, hx, h₁, by simp⟩
      · refine ⟨_, _, hx, h₁.setIndex (.refl fs) rfl, fun ix hix => ?_⟩
        cases hix
        rfl

/-- An act on an index stays at the places. -/
theorem preserves_onIndex (hi : T (.index t i)) {x : Act StorageError Index α}
    (hx : ∀ path k, Preserves (Index.Inside P path k) x) : Preserves (Placed P T l k) (onIndex t i x) := by
  intro c fs h
  obtain ⟨res, c₁, ha, h₁, hpath⟩ := h.rememberIndex t i
  cases res with
  | error e =>
    rw [onIndex, apply_bind_error ha]
    exact h₁
  | ok ix =>
    have hix := hx _ _ ix fs ⟨hpath ix rfl, h₁.leads (.index t i) hi, h₁.linkless, .refl fs⟩
    rw [onIndex_of_rememberIndex ha]
    exact h₁.setIndex hix.within hix.path_eq

/-- Looking a key up stays at the places whatever the name of the index is. -/
theorem preserves_lookup (key : Row) : Preserves (Placed P T l k) (onIndex t i (Index.lookup key)) := by
  intro c fs h
  obtain ⟨res, c₁, ha, h₁, hpath⟩ := h.rememberIndex t i
  cases res with
  | error e =>
    rw [onIndex, apply_bind_error ha]
    exact h₁
  | ok ix =>
    obtain ⟨ix', hx, hv⟩ := (Index.reads_lookup key).apply_eq ix fs
    simp only [Index.view, Prod.mk.injEq] at hv
    rw [onIndex_of_rememberIndex ha, hx]
    exact h₁.setIndex (.refl fs) (hv.1.2.2.2.2.trans (hpath ix rfl))

/-! ## Setting up -/

/-- Describing the describing relations stays at the places. -/
theorem preserves_describeItself : Preserves (Placed P T l k) describeItself :=
  preserves_forM (fun _ => (preserves_own (by decide : Schema.tables ∈ Schema.names)
      fun _ _ => Relation.preserves_insert _).discard.bind fun _ =>
    preserves_forM (fun _ => (preserves_own (by decide : Schema.columns ∈ Schema.names)
      fun _ _ => Relation.preserves_insert _).discard) _) _

/-- Setting a catalog up stays at the places once the directory is made. -/
theorem placed_setUp (hdirectory : makeDirectory.apply c fs = (.ok (), c, g)) (h : c.Placed P T l k g) :
    Placed P T l k (setUp.apply c fs).2.1 (setUp.apply c fs).2.2 := by
  have hown : ∀ {name}, name ∈ Schema.names → Preserves (Placed P T l k) (onRelation name Relation.createIfMissing) :=
    fun hn => preserves_own hn fun _ _ => Relation.preserves_createIfMissing
  have hrest : Preserves (Placed P T l k) (do
      onTables Relation.createIfMissing
      onColumns Relation.createIfMissing
      onIndices Relation.createIfMissing
      if (← onTables (Relation.select none)).isEmpty then describeItself) := by
    refine (hown (by decide : Schema.tables ∈ Schema.names)).bind fun _ =>
      (hown (by decide : Schema.columns ∈ Schema.names)).bind fun _ =>
      (hown (by decide : Schema.indices ∈ Schema.names)).bind fun _ =>
      (preserves_own (by decide : Schema.tables ∈ Schema.names) fun _ _ =>
        Relation.preserves_of_reads (Relation.reads_select none)).bind
        fun handles => ?_
    split
    · exact preserves_describeItself
    · exact preserves_pure _
  rw [setUp, apply_bind_ok hdirectory]
  exact hrest c g h

theorem placed_blank (hl : fs.Linkless) (hown : ∀ name ∈ Schema.names, Leads P fs (l.relationPath name))
    (hleads : ∀ s, T s → Leads P fs (l.pathOf s)) : (blank l).Placed P T l fs fs where
  location := rfl
  relations t r hk := by
    by_cases hn : t ∈ Schema.names
    · rcases Schema.mem_names.1 hn with rfl | rfl | rfl <;> cases hk <;>
        exact Heap.BlockFile.inside_of_closed rfl rfl
    · rw [kept_of_not_mem hn] at hk
      cases hk
  indexes t i ix hx := nomatch hx
  own := hown
  leads := hleads
  linkless := hl
  within := .refl fs

end Rowbase.Catalog
