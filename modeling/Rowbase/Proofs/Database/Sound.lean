import Rowbase.Proofs.Database.Indices

/-! # Databases in order

A database is in order if its entries describe just the tables and indices that there are, and if every
index has just the rows of its table. What is done to rows and to the maps of indices leaves the
descriptions alone. -/
namespace Rowbase

/-- Whether an index is the one that the entries of a database describe. -/
structure Index.Stands (ix : Index) (l : Location) (sites : Sites) (d : Database) (t i : String)
    (ct : Content) : Prop where
  table_eq : ix.table = t
  name_eq : ix.name = i
  definition : d.definition t i = (ix.columns, ix.unique)
  path_eq : ix.path = l.indexPath t i
  loaded : ix.loaded = true
  site : .index t i ∈ sites
  covered : ∀ column ∈ ix.columns, column ∈ ct.columns.map Column.name

namespace Database

variable {l : Location} {sites : Sites} {d d' d'' : Database} {t i : String} {ct : Content}
  {ix ix' : Index} {rows : String → String → List (Handle × Row)}

/-- The rows of a table. -/
def live (d : Database) (t : String) : List (Handle × Row) := (d.table t).elim [] fun ct => ct.rows.live

theorem live_of_table (hc : d.table t = some ct) : d.live t = ct.rows.live := by
  rw [live, hc]
  rfl

theorem live_append_some (rows : Tape Row) (handle : Handle) (row : Row) :
    Tape.live (rows ++ [(handle, some row)]) = rows.live ++ [(handle, row)] := Tape.live_append _ _

/-- Whether the entries of a database describe what there is. -/
structure Regular (l : Location) (sites : Sites) (d : Database) : Prop extends d.Described where
  own : ∀ t ∈ Schema.names, d.table t = none
  listed : ∀ t, d.tableHandles t ≠ [] ↔ t ∈ Schema.names ∨ d.table t ≠ none
  indexed : ∀ t i, d.indexEntries t i ≠ [] ↔ d.index t i ≠ none
  stands : ∀ t i ix, d.index t i = some ix → ∃ ct, d.table t = some ct ∧ ix.Stands l sites d t i ct

/-- Whether each index of a database has just some rows. -/
def Exact (d : Database) (rows : String → String → List (Handle × Row)) : Prop :=
  ∀ t i ix, d.index t i = some ix → ix.Exact (rows t i)

/-- Whether a database is in order. -/
structure Sound (l : Location) (sites : Sites) (d : Database) : Prop where
  regular : d.Regular l sites
  exact : d.Exact fun t _ => d.live t

/-- Whether two databases have the same entries, tables and indices, apart from their rows. -/
structure Like (d d' : Database) : Prop where
  tables : d'.tables.live = d.tables.live
  columns : d'.columns.live = d.columns.live
  indices : d'.indices.live = d.indices.live
  table : ∀ t, (d'.table t).map Content.columns = (d.table t).map Content.columns
  index : ∀ t i, d'.index t i = none ∧ d.index t i = none ∨
    ∃ ix ix', d.index t i = some ix ∧ d'.index t i = some ix' ∧ ix.Alike ix' ∧ ix'.loaded = ix.loaded

/-- Whether two databases cannot be told from each other but by handles that are used up. -/
structure Same (d d' : Database) : Prop extends d.Like d' where
  rows : ∀ t, d'.live t = d.live t

theorem Like.refl (d : Database) : d.Like d := by
  refine ⟨rfl, rfl, rfl, fun _ => rfl, fun t i => ?_⟩
  cases h : d.index t i with
  | none => exact .inl ⟨rfl, rfl⟩
  | some ix => exact .inr ⟨ix, ix, rfl, rfl, .refl ix, rfl⟩

theorem Like.trans (h : d.Like d') (h' : d'.Like d'') : d.Like d'' := by
  refine ⟨h'.tables.trans h.tables, h'.columns.trans h.columns, h'.indices.trans h.indices,
    fun t => (h'.table t).trans (h.table t), fun t i => ?_⟩
  rcases h.index t i with ⟨h1, h2⟩ | ⟨ix, ix', h1, h2, halike, hl⟩
  · rcases h'.index t i with ⟨h3, -⟩ | ⟨_, _, h3, -⟩
    · exact .inl ⟨h3, h2⟩
    · rw [h1] at h3
      cases h3
  · rcases h'.index t i with ⟨-, h3⟩ | ⟨ix₁, ix₂, h3, h4, halike', hl'⟩
    · rw [h2] at h3
      cases h3
    · rw [h2] at h3
      cases h3
      exact .inr ⟨ix, ix₂, h1, h4, halike.trans halike', hl'.trans hl⟩

theorem like_setTable (hc : d.table t = some ct) (rows : Tape Row) :
    d.Like (d.setTable t (some ⟨ct.columns, rows⟩)) := by
  refine ⟨rfl, rfl, rfl, fun t' => ?_, (Like.refl d).index⟩
  rw [setTable]
  dsimp only
  split
  · rename_i he
    rw [he, hc]
    rfl
  · rfl

theorem like_setIndex (hx : d.index t i = some ix) (halike : ix.Alike ix') (hl : ix'.loaded = ix.loaded) :
    d.Like (d.setIndex t i (some ix')) := by
  refine ⟨rfl, rfl, rfl, fun _ => rfl, fun t' i' => ?_⟩
  rw [setIndex]
  dsimp only
  split
  · rename_i he
    rw [he.1, he.2]
    exact .inr ⟨ix, ix', hx, rfl, halike, hl⟩
  · exact (Like.refl d).index t' i'

/-! ## What the entries say stays the same -/

theorem Like.tableHandles (h : d.Like d') (t : String) : d'.tableHandles t = d.tableHandles t := by
  rw [Database.tableHandles, Database.tableHandles, h.tables]

theorem Like.columnsOf (h : d.Like d') (t : String) : d'.columnsOf t = d.columnsOf t := by
  rw [Database.columnsOf, Database.columnsOf, columnEntries, columnEntries, h.columns]

theorem Like.indexEntries (h : d.Like d') (t i : String) : d'.indexEntries t i = d.indexEntries t i := by
  rw [Database.indexEntries, Database.indexEntries, h.indices]

theorem Like.definition (h : d.Like d') (t i : String) : d'.definition t i = d.definition t i := by
  rw [Database.definition, Database.definition, h.indexEntries]

theorem Like.indexNames (h : d.Like d') (t : String) : d'.indexNames t = d.indexNames t := by
  rw [Database.indexNames, Database.indexNames, h.indices]

theorem Like.outlines (h : d.Like d') (t : String) : d'.outlines t = d.outlines t := by
  rw [Database.outlines, Database.outlines, h.indexNames]
  exact List.map_congr_left fun i _ => by rw [h.definition]

theorem Like.table_eq_none (h : d.Like d') (t : String) : d'.table t = none ↔ d.table t = none := by
  have ht := h.table t
  cases h1 : d.table t <;> cases h2 : d'.table t <;> rw [h1, h2] at ht <;> simp at ht ⊢

theorem Like.table_eq_some (h : d.Like d') {ct' : Content} (hc : d'.table t = some ct') :
    ∃ ct, d.table t = some ct ∧ ct.columns = ct'.columns := by
  have ht := h.table t
  rw [hc] at ht
  cases h1 : d.table t with
  | none =>
    rw [h1] at ht
    cases ht
  | some ct =>
    rw [h1] at ht
    exact ⟨ct, rfl, (Option.some.inj ht).symm⟩

theorem Like.table_some (h : d.Like d') (hc : d.table t = some ct) :
    ∃ ct', d'.table t = some ct' ∧ ct'.columns = ct.columns := by
  cases hc' : d'.table t with
  | none =>
    rw [(h.table_eq_none t).1 hc'] at hc
    cases hc
  | some ct' =>
    obtain ⟨ct₀, h0, he⟩ := h.table_eq_some hc'
    rw [hc] at h0
    cases h0
    exact ⟨ct', rfl, he.symm⟩

theorem Like.index_some (h : d.Like d') (hx : d.index t i = some ix) :
    ∃ ix', d'.index t i = some ix' ∧ ix.Alike ix' := by
  rcases h.index t i with ⟨-, h2⟩ | ⟨ix₀, ix', h1, h2, halike, -⟩
  · rw [hx] at h2
    cases h2
  · rw [hx] at h1
    cases h1
    exact ⟨ix', h2, halike⟩

/-- A database like one that is described is described itself. -/
theorem Described.like (hd : d.Described) (h : d.Like d') : d'.Described where
  columns t hn := by
    rw [h.columnsOf, hd.columns t hn]
    have ht := h.table t
    cases h1 : d.table t <;> cases h2 : d'.table t <;> rw [h1, h2] at ht <;> simp at ht ⊢
    exact ht.symm
  nonempty t ct' hc := by
    obtain ⟨ct, hc, he⟩ := h.table_eq_some hc
    rw [← he]
    exact hd.nonempty t ct hc

theorem Regular.like (hd : d.Regular l sites) (h : d.Like d') : d'.Regular l sites where
  toDescribed := hd.toDescribed.like h
  own t ht := (h.table_eq_none t).2 (hd.own t ht)
  listed t := by
    rw [h.tableHandles, hd.listed]
    exact or_congr_right (not_congr (h.table_eq_none t).symm)
  indexed t i := by
    rw [h.indexEntries, hd.indexed]
    rcases h.index t i with ⟨h1, h2⟩ | ⟨ix, ix', h1, h2, -, -⟩ <;> rw [h1, h2]
    exact iff_of_true nofun nofun
  stands t i ix' hx := by
    rcases h.index t i with ⟨h1, -⟩ | ⟨ix₁, ix₂, h1, h2, halike, hl⟩
    · rw [h1] at hx
      cases hx
    · rw [h2] at hx
      cases hx
      obtain ⟨ct, hc, hs⟩ := hd.stands t i ix₁ h1
      obtain ⟨ct', hc', he⟩ := h.table_some hc
      refine ⟨ct', hc', halike.table.trans hs.table_eq, halike.name.trans hs.name_eq, ?_,
        halike.path.trans hs.path_eq, hl.trans hs.loaded, hs.site, ?_⟩
      · rw [h.definition, hs.definition, halike.columns, halike.unique]
      · rw [halike.columns, he]
        exact hs.covered

theorem Regular.exists_index (hd : d.Regular l sites) (hne : d.indexEntries t i ≠ []) :
    ∃ ix, d.index t i = some ix := Option.ne_none_iff_exists'.1 ((hd.indexed t i).1 hne)

theorem Regular.index_eq_none (hd : d.Regular l sites) (hnil : d.indexEntries t i = []) : d.index t i = none :=
  not_ne_iff.1 fun hne => (hd.indexed t i).2 hne hnil

/-- Every index that is listed is there. -/
theorem Regular.index_of_mem (hd : d.Regular l sites) (hi : i ∈ d.indexNames t) :
    ∃ ix ct, d.index t i = some ix ∧ d.table t = some ct ∧ ix.Stands l sites d t i ct := by
  obtain ⟨ix, hx⟩ := hd.exists_index (mem_indexNames.1 hi)
  obtain ⟨ct, hc, hs⟩ := hd.stands t i ix hx
  exact ⟨ix, ct, hx, hc, hs⟩

theorem Regular.not_mem_of_table (hd : d.Regular l sites) (hc : d.table t = some ct) :
    t ∉ Schema.names := fun hn => by
  rw [hd.own t hn] at hc
  cases hc

theorem Regular.content_eq (hd : d.Regular l sites) (hc : d.table t = some ct) : d.content t = some ct :=
  (content_of_not_mem (hd.not_mem_of_table hc)).trans hc

/-- The indices of a table have just its rows. -/
theorem Sound.exact_of_table (hd : d.Sound l sites) (hc : d.table t = some ct) (hx : d.index t i = some ix) :
    ix.Exact ct.rows.live := by
  rw [← live_of_table hc]
  exact hd.exact t i ix hx

/-- Just the relations that are listed are there. -/
theorem Regular.listed_iff (hd : d.Regular l sites) (t : String) :
    d.tableHandles t ≠ [] ↔ ∃ ct, d.content t = some ct := by
  rw [hd.listed]
  by_cases hn : t ∈ Schema.names
  · refine iff_of_true (.inl hn) ?_
    rcases Schema.mem_names.1 hn with rfl | rfl | rfl <;> exact ⟨_, rfl⟩
  · rw [content_of_not_mem hn, or_iff_right hn, Option.ne_none_iff_exists']

theorem nodup_eraseDups {α : Type} [DecidableEq α] : ∀ as : List α, as.eraseDups.Nodup
  | [] => List.nodup_nil
  | a :: as => by
    rw [List.eraseDups_cons, List.nodup_cons, List.mem_eraseDups]
    exact ⟨by simp, nodup_eraseDups _⟩
termination_by as => as.length
decreasing_by
  have := List.length_filter_le (fun b => !b == a) as
  rw [List.length_cons]
  omega

theorem nodup_indexNames (d : Database) (t : String) : (d.indexNames t).Nodup :=
  (List.mergeSort_perm _ _).nodup_iff.2 (nodup_eraseDups _)

end Database

/-- Where no two indices share a file, the file of an index is its document. -/
theorem Models.read_index {l : Location} {sites : Sites} {c : Catalog} {fs : Files} {d : Database} {t i : String}
    {ix : Index} (h : Models l sites c fs d) (hd : d.Regular l sites) (hexclusive : sites.exclusive = true)
    (hx : d.index t i = some ix) : fs.read (l.indexPath t i) = .ok ix.document.bytes := by
  obtain ⟨ct, -, hstands⟩ := hd.stands t i ix hx
  have hf := h.filed hexclusive t i hstands.site
  rw [hx] at hf
  exact hf.read_of_loaded hstands.loaded

/-- A stored row has a key in each index of its table. -/
theorem Index.Stands.exists_key {ix : Index} {l : Location} {sites : Sites} {d : Database}
    {t i : String} {ct : Content} {row : Row} (hs : ix.Stands l sites d t i ct)
    (hr : row.Stored ct.columns) : ∃ key, ix.keyOf row = .ok key := by
  refine ⟨ix.columns.map fun column => (row.get? column).getD .null, mapM_ok fun column hm => ?_⟩
  obtain ⟨v, hv, -⟩ := hr column (hs.covered column hm)
  rw [Row.value, hv]
  rfl

end Rowbase
