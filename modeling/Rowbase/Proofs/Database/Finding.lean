import Rowbase.Proofs.Database.Looks

/-! # Finding rows

What a plan finds are live rows, in the order in which they came. It finds the same in two databases that
cannot be told from each other. -/
namespace Rowbase

open Act

variable {l : Location} {sites : Sites} {c c' : Catalog} {fs fs' : Files} {d d' : Database}
  {t i : String} {α : Type}

/-- Whether a table, with its indices, cannot be told from the one of its name in another database. -/
structure Database.SameAt (d d' : Database) (t : String) : Prop where
  columnsOf : d'.columnsOf t = d.columnsOf t
  indexNames : d'.indexNames t = d.indexNames t
  definition : ∀ i, d'.definition t i = d.definition t i
  rows : d'.live t = d.live t
  content : d.content t = none ∧ d'.content t = none ∨ ∃ ct ct', d.content t = some ct ∧
    d'.content t = some ct' ∧ ct'.columns = ct.columns ∧ ct'.rows.live = ct.rows.live
  index : ∀ i, d'.index t i = none ∧ d.index t i = none ∨
    ∃ ix ix', d.index t i = some ix ∧ d'.index t i = some ix' ∧ ix.Alike ix'

theorem Database.SameAt.trans {d'' : Database} (h : d.SameAt d' t) (h' : d'.SameAt d'' t) : d.SameAt d'' t where
  columnsOf := h'.columnsOf.trans h.columnsOf
  indexNames := h'.indexNames.trans h.indexNames
  definition i := (h'.definition i).trans (h.definition i)
  rows := h'.rows.trans h.rows
  content := by
    rcases h.content with ⟨hc, hc'⟩ | ⟨ct, ct', hc, hc', hcols, hrows⟩ <;>
      rcases h'.content with ⟨hd, hd'⟩ | ⟨ct₁, ct'', hd, hd', hcols', hrows'⟩
    · exact .inl ⟨hc, hd'⟩
    · cases hc'.symm.trans hd
    · cases hc'.symm.trans hd
    · cases hc'.symm.trans hd
      exact .inr ⟨ct, ct'', hc, hd', hcols'.trans hcols, hrows'.trans hrows⟩
  index i := by
    rcases h.index i with ⟨hx', hx⟩ | ⟨ix, ix', hx, hx', halike⟩ <;>
      rcases h'.index i with ⟨hy', hy⟩ | ⟨ix₁, ix'', hy, hy', halike'⟩
    · exact .inl ⟨hy', hx⟩
    · cases hx'.symm.trans hy
    · cases hx'.symm.trans hy
    · cases hx'.symm.trans hy
      exact .inr ⟨ix, ix'', hx, hy', halike.trans halike'⟩

/-- In a database in order that agrees with another on a table, the indices have the rows that it has in the
other. -/
theorem Database.SameAt.exact (hs : d.SameAt d' t) (hd' : d'.Sound l sites) (hx : d'.index t i = some ix) :
    ix.Exact (d.live t) := by
  rw [← hs.rows]
  exact hd'.exact t i ix hx

/-- In a database that is like another a table is the same if its rows and its content are. -/
theorem Database.Like.sameAt_of_content (h : d.Like d') (hl : d'.live t = d.live t)
    (hc : d.content t = none ∧ d'.content t = none ∨ ∃ ct ct', d.content t = some ct ∧ d'.content t = some ct' ∧
      ct'.columns = ct.columns ∧ ct'.rows.live = ct.rows.live) : d.SameAt d' t where
  columnsOf := h.columnsOf t
  indexNames := h.indexNames t
  definition := h.definition t
  rows := hl
  content := hc
  index i := (h.index t i).imp_right fun ⟨ix, ix', hx, hx', halike, _⟩ => ⟨ix, ix', hx, hx', halike⟩

/-- In a database that is like another a table is the same if its rows are. -/
theorem Database.Like.sameAt (h : d.Like d') (hl : d'.live t = d.live t) : d.SameAt d' t := by
  refine h.sameAt_of_content hl ?_
  by_cases hn : t ∈ Schema.names
  · refine .inr ?_
    rcases Schema.mem_names.1 hn with rfl | rfl | rfl
    · exact ⟨_, _, rfl, rfl, rfl, by rw [Tape.live_image, Tape.live_image, h.tables]⟩
    · exact ⟨_, _, rfl, rfl, rfl, by rw [Tape.live_image, Tape.live_image, h.columns]⟩
    · exact ⟨_, _, rfl, rfl, rfl, by rw [Tape.live_image, Tape.live_image, h.indices]⟩
  · rw [Database.content_of_not_mem hn, Database.content_of_not_mem hn]
    cases hc : d.table t with
    | none => exact .inl ⟨rfl, (h.table_eq_none t).2 hc⟩
    | some ct =>
      obtain ⟨ct', hc', he⟩ := h.table_some hc
      rw [Database.live_of_table hc, Database.live_of_table hc'] at hl
      exact .inr ⟨ct, ct', rfl, hc', he, hl⟩

/-- Two databases that cannot be told from each other have the same tables. -/
theorem Database.Same.at (h : d.Same d') (t : String) : d.SameAt d' t := h.toLike.sameAt (h.rows t)

theorem Models.value_onRelation_none (h : Models l sites c fs d) (hd : d.Described)
    (hc : d.content t = none) (x : Act StorageError Relation α) :
    (Catalog.onRelation t x).value c fs = .error (.relation (.relationMissing t)) := by
  obtain ⟨c', -, ha⟩ := h.onRelation_missing hd hc x
  rw [value, ha]

/-- An act that returns the same on relations with the same rows returns the same on tables with the same
rows. -/
theorem Models.onRelation_congr (h : Models l sites c fs d) (h' : Models l sites c' fs' d')
    (hd : d.Described) (hd' : d'.Described) (hs : d.SameAt d' t) {x : Act StorageError Relation α}
    (hx : ∀ (r r' : Relation) (ct ct' : Content), d.content t = some ct → r.Serves l fs t ct.columns ct.rows →
      r'.Serves l fs' t ct.columns ct'.rows → ct'.rows.live = ct.rows.live →
      x.value r' fs' = x.value r fs) :
    (Catalog.onRelation t x).value c' fs' = (Catalog.onRelation t x).value c fs := by
  rcases hs.content with ⟨h1, h2⟩ | ⟨ct, ct', h1, h2, hcols, hl⟩
  · rw [h.value_onRelation_none hd h1, h'.value_onRelation_none hd' h2]
  · obtain ⟨r, hr, hv⟩ := h.value_onRelation hd h1
    obtain ⟨r', hr', hv'⟩ := h'.value_onRelation hd' h2
    rw [hv, hv']
    exact hx r r' ct ct' h1 hr (hcols ▸ hr') hl

namespace Plan

/-- Whether handles are those of some rows of a relation, in their order. -/
def Found (d : Database) (t : String) (hs : List Handle) : Prop :=
  ∃ ct, d.content t = some ct ∧ hs.Sublist (ct.rows.live.map Prod.fst)

theorem found_select (h : Models l sites c fs d) (hd : d.Described) {condition : Option Row}
    {hs : List Handle} (hv : (Catalog.onRelation t (Relation.select condition)).value c fs = .ok hs) :
    Found d t hs := by
  cases hc : d.content t with
  | none =>
    rw [h.value_onRelation_none hd hc] at hv
    cases hv
  | some ct =>
    obtain ⟨r, hr, hx⟩ := h.value_onRelation hd hc
    rw [hx] at hv
    exact ⟨ct, hc, hr.select_sublist hv⟩

theorem Found.keep (hf : Found d t hs) (h : Models l sites c fs d) (hd : d.Described) {condition : Row}
    {kept : List Handle}
    (hv : (Catalog.onRelation t (Relation.keep condition hs)).value c fs = .ok kept) :
    Found d t kept := by
  obtain ⟨ct, hc, hs⟩ := hf
  obtain ⟨r, -, hx⟩ := h.value_onRelation hd hc
  rw [hx] at hv
  exact ⟨ct, hc, (Relation.keep_sublist hv).trans hs⟩

theorem found_lookup (h : Models l sites c fs d) (hd : d.Sound l sites) {key : Row} {hs : List Handle}
    (hv : (Catalog.onIndex t i (Index.lookup key)).value c fs = .ok hs) : Found d t hs := by
  cases hx : d.index t i with
  | none =>
    obtain ⟨c₁, ha, -⟩ := apply_onIndex_none h hd.regular hx (Index.lookup key)
    rw [value, ha] at hv
    cases hv
  | some ix =>
    obtain ⟨c₁, ha, -⟩ := apply_lookup h hd.regular hx key
    rw [value, ha] at hv
    obtain ⟨k, -, hv⟩ := bind_eq_ok.1 hv
    obtain ⟨ct, hc, -⟩ := hd.regular.stands t i ix hx
    refine ⟨ct, hd.regular.content_eq hc, ?_⟩
    have hexact := hd.exact_of_table hc hx
    cases hv
    split
    · exact List.nil_sublist _
    · rw [hexact.handles_eq]
      exact List.filter_sublist.map _

/-- What a plan finds are rows of its table. -/
theorem found_find (h : Models l sites c fs d) (hd : d.Sound l sites) :
    ∀ {p : Plan} {hs : List Handle}, p.find.value c fs = .ok hs → Found d p.table hs
  | .scan _, _, hv | .filteredScan _ _, _, hv => found_select h hd.regular.toDescribed hv
  | .filter condition input, hs, hv => by
    rw [value_filter] at hv
    obtain ⟨handles, hi, hv⟩ := bind_eq_ok.1 hv
    exact (found_find h hd hi).keep h hd.regular.toDescribed hv
  | .project _ input, hs, hv => found_find h hd (p := input) hv
  | .indexLookup t i key residual, hs, hv => by
    rw [value_indexLookup] at hv
    obtain ⟨fits, -, hv⟩ := bind_eq_ok.1 hv
    split at hv
    · obtain ⟨handles, hi, hv⟩ := bind_eq_ok.1 hv
      have hf := found_lookup h hd hi
      cases residual with
      | none =>
        cases hv
        exact hf
      | some residual => exact hf.keep h hd.regular.toDescribed hv
    · exact found_select h hd.regular.toDescribed hv

/-! ## In two databases -/

section
variable (h : Models l sites c fs d) (h' : Models l sites c' fs' d') (hd : d.Sound l sites)
  (hd' : d'.Sound l sites)
include h h' hd hd'

section
variable (hs : d.SameAt d' t)
include hs

theorem select_congr (condition : Option Row) :
    (Catalog.onRelation t (Relation.select condition)).value c' fs' =
      (Catalog.onRelation t (Relation.select condition)).value c fs :=
  h.onRelation_congr h' hd.regular.toDescribed hd'.regular.toDescribed hs
    fun _ _ _ _ _ hr hr' hl => hr.select_congr hr' hl condition

theorem keep_congr (condition : Row) {handles : List Handle} (hf : Found d t handles) :
    (Catalog.onRelation t (Relation.keep condition handles)).value c' fs' =
      (Catalog.onRelation t (Relation.keep condition handles)).value c fs := by
  obtain ⟨ct, hc, hsub⟩ := hf
  refine h.onRelation_congr h' hd.regular.toDescribed hd'.regular.toDescribed hs
    fun r r' ct₀ ct' h0 hr hr' hl => hr.keep_congr hr' hl condition fun handle hm => ?_
  rw [hc] at h0
  cases h0
  exact hsub.subset hm

theorem keyFits_congr (key : Row) : (Catalog.onRelation t (keyFits key)).value c' fs' =
    (Catalog.onRelation t (keyFits key)).value c fs :=
  h.onRelation_congr h' hd.regular.toDescribed hd'.regular.toDescribed hs
    fun _ _ _ _ _ hr hr' _ => hr.look_congr hr' (keyFitsIn key)

theorem lookup_congr (key : Row) : (Catalog.onIndex t i (Index.lookup key)).value c' fs' =
    (Catalog.onIndex t i (Index.lookup key)).value c fs := by
  rcases hs.index i with ⟨h1, h2⟩ | ⟨ix, ix', h1, h2, halike⟩
  · obtain ⟨_, ha, -⟩ := apply_onIndex_none h hd.regular h2 (Index.lookup key)
    obtain ⟨_, ha', -⟩ := apply_onIndex_none h' hd'.regular h1 (Index.lookup key)
    rw [value, value, ha, ha']
  · obtain ⟨_, ha, -⟩ := apply_lookup h hd.regular h1 key
    obtain ⟨_, ha', -⟩ := apply_lookup h' hd'.regular h2 key
    have hexact' := hs.exact hd' h2
    rw [value, value, ha, ha']
    change ix'.found key = ix.found key
    rw [Index.found, Index.found, halike.keyOf]
    simp only [(hd.exact t i ix h1).handles_congr hexact' halike.name halike.columns]

end

/-- A plan finds the same rows in databases that cannot be told from each other. -/
theorem find_congr (hs : d.Same d') : ∀ p : Plan, p.find.value c' fs' = p.find.value c fs
  | .scan _ => select_congr h h' hd hd' (hs.at _) none
  | .filteredScan _ condition => select_congr h h' hd hd' (hs.at _) (some condition)
  | .filter condition input => by
    rw [value_filter, value_filter, find_congr hs input]
    cases hv : input.find.value c fs with
    | error e => rfl
    | ok handles => exact keep_congr h h' hd hd' (hs.at _) condition (found_find h hd hv)
  | .project _ input => find_congr hs input
  | .indexLookup t i key residual => by
    rw [value_indexLookup, value_indexLookup, keyFits_congr h h' hd hd' (hs.at t),
      lookup_congr h h' hd hd' (hs.at t), select_congr h h' hd hd' (hs.at t)]
    congr 1
    funext fits
    refine if_congr Iff.rfl ?_ rfl
    cases hv : (Catalog.onIndex t i (Index.lookup key)).value c fs with
    | error e => rfl
    | ok handles =>
      cases residual with
      | none => rfl
      | some residual => exact keep_congr h h' hd hd' (hs.at _) residual (found_lookup h hd hv)

end

end Plan

end Rowbase
