import Rowbase.Proofs.Database.Sound

/-! # Databases on the way

While a row comes into a table or goes out of it, some indices of the table have the rows that it is to have
and the others those that it had. -/
namespace Rowbase

namespace Database

variable {l : Location} {sites : Sites} {d d' : Database} {t : String} {ct : Content}
  {rows : List (Handle × Row)} {done : List String} {i : String} {ix ix' : Index}

/-- Whether a table has some content and the indices that are done have some rows, and the database is
another one apart from that. -/
structure Midway (d : Database) (t : String) (ct : Content) (rows : List (Handle × Row))
    (done : List String) (d' : Database) : Prop where
  like : d.Like d'
  table : d'.table t = some ct
  others : ∀ t', t' ≠ t → d'.table t' = d.table t'
  exact : d'.Exact fun t' i => if t' = t ∧ i ∈ done then rows else d.live t'

/-- Before any index is done. -/
theorem Sound.midway (hd : d.Sound l sites) (hc : d.table t = some ct) (tape : Tape Row)
    (rows : List (Handle × Row)) :
    d.Midway t ⟨ct.columns, tape⟩ rows [] (d.setTable t (some ⟨ct.columns, tape⟩)) where
  like := like_setTable hc _
  table := if_pos rfl
  others _ ht := if_neg ht
  exact t' i ix hx := by
    dsimp only
    rw [if_neg fun h => nomatch h.2]
    exact hd.exact t' i ix hx

theorem Midway.exact_done (hm : d.Midway t ct rows done d') (hi : i ∈ done) (hx : d'.index t i = some ix) :
    ix.Exact rows := by
  have h := hm.exact t i ix hx
  dsimp only at h
  rwa [if_pos ⟨rfl, hi⟩] at h

theorem Midway.exact_other {t' : String} (hm : d.Midway t ct rows done d') (hi : ¬ (t' = t ∧ i ∈ done))
    (hx : d'.index t' i = some ix) : ix.Exact (d.live t') := by
  have h := hm.exact t' i ix hx
  dsimp only at h
  rwa [if_neg hi] at h

/-- An index that is done, or undone again, has just what is said of it. -/
theorem Midway.setIndex (hm : d.Midway t ct rows done d') (hx : d'.index t i = some ix)
    (halike : ix.Alike ix') (hl : ix'.loaded = ix.loaded) (done' : List String)
    (hdone : ∀ j, j ≠ i → (j ∈ done' ↔ j ∈ done))
    (hexact : ix'.Exact (if i ∈ done' then rows else d.live t)) :
    d.Midway t ct rows done' (d'.setIndex t i (some ix')) where
  like := hm.like.trans (like_setIndex hx halike hl)
  table := hm.table
  others := hm.others
  exact t' j ix₁ hx₁ := by
    rw [Database.setIndex] at hx₁
    dsimp only at hx₁
    split at hx₁
    · rename_i he
      cases hx₁
      rw [he.1, he.2]
      simpa using hexact
    · rename_i he
      have := hm.exact t' j ix₁ hx₁
      by_cases ht : t' = t
      · have hj : j ≠ i := fun hj => he ⟨ht, hj⟩
        simpa only [ht, true_and, hdone j hj] using this
      · simpa only [ht, false_and, if_false] using this

/-- One more index comes to have the rows. -/
theorem Midway.finish (hm : d.Midway t ct rows done d') (hx : d'.index t i = some ix) (halike : ix.Alike ix')
    (hl : ix'.loaded = ix.loaded) (hexact : ix'.Exact rows) :
    d.Midway t ct rows (i :: done) (d'.setIndex t i (some ix')) := by
  refine hm.setIndex hx halike hl (i :: done) (fun j hj => ?_) ?_
  · rw [List.mem_cons, or_iff_right hj]
  · rw [if_pos (.head _)]
    exact hexact

/-- An index comes to have the rows that it had. -/
theorem Midway.revert (hm : d.Midway t ct rows (i :: done) d') (hi : i ∉ done) (hx : d'.index t i = some ix)
    (halike : ix.Alike ix') (hl : ix'.loaded = ix.loaded) (hexact : ix'.Exact (d.live t)) :
    d.Midway t ct rows done (d'.setIndex t i (some ix')) := by
  refine hm.setIndex hx halike hl done (fun j hj => ?_) ?_
  · rw [List.mem_cons, or_iff_right hj]
  · rw [if_neg hi]
    exact hexact

/-- The indices of the table are all there on the way. -/
theorem Midway.index_of_mem (hm : d.Midway t ct rows done d') (hd : d.Sound l sites)
    (hi : i ∈ d.indexNames t) : ∃ ix, d'.index t i = some ix ∧ ix.Stands l sites d' t i ct := by
  obtain ⟨ix, ct', hx, hc, hs⟩ := (hd.regular.like hm.like).index_of_mem (hm.like.indexNames t ▸ hi)
  rw [hm.table] at hc
  cases hc
  exact ⟨ix, hx, hs⟩

/-- An index that is not done takes what it took before. -/
theorem Midway.admits_iff (hm : d.Midway t ct rows done d') (hd : d.Sound l sites) (hi : i ∉ done)
    (hx : d'.index t i = some ix) {ix₀ : Index} (h0 : d.index t i = some ix₀) (row : Row) :
    ix₀.Admits row ↔ ix.Admits row := by
  obtain ⟨ix₁, h1, halike⟩ := hm.like.index_some h0
  rw [hx] at h1
  cases h1
  exact (hm.exact_other (fun h => hi h.2) hx).admits_iff (hd.exact t i ix₀ h0) halike.name.symm
    halike.columns.symm halike.unique.symm row

/-- The table comes to have other rows. -/
theorem Midway.setTable (hm : d.Midway t ct rows done d') (tape : Tape Row) :
    d.Midway t ⟨ct.columns, tape⟩ rows done (d'.setTable t (some ⟨ct.columns, tape⟩)) where
  like := hm.like.trans (like_setTable hm.table tape)
  table := if_pos rfl
  others t' ht := (if_neg ht).trans (hm.others t' ht)
  exact := hm.exact

/-- When all indices are done the database is in order again, if the table has what they have. -/
theorem Midway.sound (hm : d.Midway t ct ct.rows.live done d') (hd : d.Sound l sites)
    (hall : ∀ i ∈ d.indexNames t, i ∈ done) : d'.Sound l sites where
  regular := hd.regular.like hm.like
  exact t' i ix hx := by
    dsimp only
    by_cases he : t' = t
    · subst he
      rw [live_of_table hm.table]
      refine hm.exact_done (hall i ?_) hx
      rw [← hm.like.indexNames, mem_indexNames, (hd.regular.like hm.like).indexed, hx]
      exact nofun
    · rw [live, hm.others t' he]
      exact hm.exact_other (fun h => he h.1) hx

theorem Midway.live (hm : d.Midway t ct rows done d') (t' : String) :
    d'.live t' = if t' = t then ct.rows.live else d.live t' := by
  split
  · rename_i he
    rw [he, live_of_table hm.table]
  · rename_i he
    rw [Database.live, Database.live, hm.others t' he]

/-- When no index is done and the table has the rows that it had, nothing has changed. -/
theorem Midway.undone (hm : d.Midway t ct rows [] d') (hd : d.Sound l sites) (hrows : ct.rows.live = d.live t) :
    d.Same d' ∧ d'.Sound l sites := by
  have hlive : ∀ t', d'.live t' = d.live t' := fun t' => by
    rw [hm.live, hrows]
    split
    · rename_i he
      rw [he]
    · rfl
  refine ⟨⟨hm.like, hlive⟩, hd.regular.like hm.like, fun t' i ix hx => ?_⟩
  dsimp only
  rw [hlive]
  exact hm.exact_other (fun h => List.not_mem_nil h.2) hx

end Database

/-- A row goes out of an index that has it. -/
theorem Models.unindex {l : Location} {sites : Sites} {c : Catalog} {fs : Files} {d : Database}
    {t i : String} {ct : Content} {ix : Index} {rows : List (Handle × Row)} {handle : Handle} {row : Row}
    (h : Models l sites c fs d) (hx : d.index t i = some ix) (hs : ix.Stands l sites d t i ct)
    (he : ix.Exact rows) (hn : (rows.map Prod.fst).Nodup) (hm : (handle, row) ∈ rows) :
    ∃ ix' c' fs', (Catalog.onIndex t i (Index.delete handle row)).apply c fs = (.ok (), c', fs') ∧
      Models l sites c' fs' (d.setIndex t i (some ix')) ∧ ix.Alike ix' ∧ ix'.loaded = ix.loaded ∧
      ix'.Exact (rows.filter fun e => e.1 ≠ handle) := by
  obtain ⟨key, hk⟩ := he.keyed _ hm
  obtain ⟨c', fs', ha, h'⟩ := h.deleteFrom hx hs.loaded hs.path_eq hs.site hk handle
  exact ⟨_, c', fs', ha, h', Index.alike_remove, rfl, he.remove hn hm hk⟩

end Rowbase
