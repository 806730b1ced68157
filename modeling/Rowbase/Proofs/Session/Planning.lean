import Rowbase.Proofs.Session.Accepting

/-! # Plans in databases in order

In every database in order the indices of a table have just its rows, so plans over the table may be
optimised. -/
namespace Rowbase

open Act Database

/-- In a database in order what plans need is there for every relation. -/
theorem Models.indexed {l : Location} {sites : Sites} {c : Catalog} {fs : Files} {d : Database} {t : String}
    {ct : Content} (h : Models l sites c fs d) (hd : d.Sound l sites) (hc : d.content t = some ct) :
    ∃ r, r.columns = ct.columns ∧ c.Indexed fs t r ct.rows.live (d.outlines t) := by
  obtain ⟨r, hr, hv⟩ := h.value_onRelation hd.regular.toDescribed hc
  refine ⟨r, hr.columns_eq, hv Act.thing, ?_, fun handle row hm => ?_, h.value_indexOutlines t, fun o ho => ?_⟩
  · exact (hv _).trans hr.lists.select
  · exact (hv _).trans (hr.value_project hm [])
  · obtain ⟨i, hi, rfl⟩ := List.mem_map.1 ho
    obtain ⟨ix, ct', hx, hct', hs⟩ := hd.regular.index_of_mem hi
    have hascending := h.ascending hc
    rw [hd.regular.content_eq hct'] at hc
    cases hc
    obtain ⟨c₁, -, ha⟩ := h.using_index (.inl hx)
    refine ⟨ix, ?_, by rw [hs.definition], (hd.exact_of_table hct' hx).groups hascending.live⟩
    rw [ha, apply_bind_ok (Index.apply_load_of_loaded hs.loaded)]
    rfl

namespace Plan

open Catalog

variable {c : Catalog} {fs : Files} {table : String} {r : Relation} {rows : List (Handle × Row)}
  {indices : List IndexOutline} {p : Plan}

/-- Optimising a plan with the indices that its table has changes neither the rows that it finds nor
what it returns of them. -/
theorem optimize_keeps (h : c.Indexed fs table r rows indices) (hp : p.WellTyped table r.columns) :
    ((do
      let indices ← indexOutlines table
      (p.optimize indices).find).apply c fs).1 = (p.find.apply c fs).1 ∧
    ((do
      let indices ← indexOutlines table
      (p.optimize indices).evaluate).apply c fs).1 = (p.evaluate.apply c fs).1 := by
  have ho : (indexOutlines table).value c fs = .ok indices := h.outlines
  constructor
  · change (indexOutlines table >>= fun indices => (p.optimize indices).find).value c fs = p.find.value c fs
    rw [((surveys_indexOutlines table).reads shows_view).value_bind fun indices => reads_find _, ho]
    exact value_find_optimize h hp
  · change (indexOutlines table >>= fun indices => (p.optimize indices).evaluate).value c fs =
      p.evaluate.value c fs
    rw [((surveys_indexOutlines table).reads shows_view).value_bind fun indices => reads_evaluate _, ho]
    exact value_evaluate_optimize h hp

/-- A plan for the table with two indices, of which one has the column that is asked for below. -/
def stacked : Plan :=
  project ["b"] (filter (.ofList [("a", .integer 1)]) (filter (.ofList [("b", .text "x")]) (scan "t")))

theorem optimize_keeps_stacked : ∃ c fs r rows indices, c.Indexed fs "t" r rows indices ∧
    rows ≠ [] ∧ ⟨"i", ["b"]⟩ ∈ indices ∧ ⟨"j", ["a"]⟩ ∈ indices ∧ stacked.WellTyped "t" r.columns ∧
    ((do
      let indices ← Catalog.indexOutlines "t"
      (stacked.optimize indices).find).apply c fs).1 = (stacked.find.apply c fs).1 ∧
    ((do
      let indices ← Catalog.indexOutlines "t"
      (stacked.optimize indices).evaluate).apply c fs).1 = (stacked.evaluate.apply c fs).1 := by
  obtain ⟨d, s, fs, c, ct, handle, -, hopens, hc, hcols, hrows, hi, hj⟩ := Session.opens_taken
  obtain ⟨r, hr, hindexed⟩ := hopens.models.indexed hopens.sound (hopens.sound.regular.content_eq hc)
  have hlisted : ∀ i columns unique, d.definition "t" i = (columns, unique) → columns ≠ [] →
      ⟨i, columns⟩ ∈ d.outlines "t" := by
    intro i columns unique hdef hne
    refine List.mem_map.2 ⟨i, mem_indexNames.2 fun hnil => hne ?_, by rw [hdef]⟩
    rw [← definition_eq_nil.2 hnil, hdef]
  have hp : stacked.WellTyped "t" r.columns := by
    rw [hr, hcols]
    exact ⟨by decide, by decide, rfl⟩
  exact ⟨c, fs, r, _, _, hindexed, by rw [hrows]; exact List.cons_ne_nil _ _,
    hlisted _ _ _ hi (List.cons_ne_nil _ _), hlisted _ _ _ hj (List.cons_ne_nil _ _), hp,
    optimize_keeps hindexed hp⟩

end Plan

end Rowbase
