import Rowbase.Proofs.Session.Run

/-! # Indices after any run

Whatever statements a session has carried out, and whether they succeeded or failed: every index that the
catalog lists is the grouping of the rows of its table by their keys. -/
namespace Rowbase

open Act Database

/-- The rows of a relation with their handles. -/
def Catalog.rowsOf (name : String) : Act StorageError Catalog (List (Handle × Row)) := keyedRows name []

/-- Whether the map of an index is the grouping of rows by their keys: the handle of each row is once there,
under the key of the row; no other handle is there and no key without one; the handles under a key are in
order; and if the index is unique, no two rows agree in a key without a NULL. -/
structure Index.Mirrors (ix : Index) (rows : List (Handle × Row)) : Prop where
  once : ∀ h row, (h, row) ∈ rows → ∃ key, ix.keyOf row = .ok key ∧
    ∀ k, (ix.handles k).count h = if k = key then 1 else 0
  only : ∀ key h, h ∈ ix.handles key → ∃ row, (h, row) ∈ rows ∧ ix.keyOf row = .ok key
  inhabited : ∀ key, key ∈ ix.map → ix.handles key ≠ []
  ascending : ∀ key, (ix.handles key).Pairwise Handle.Before
  single : ix.unique = true → ∀ key : Key, key.hasNull = false → (ix.handles key).length ≤ 1
  distinct : ix.unique = true → ∀ e ∈ rows, ∀ e' ∈ rows, ∀ key : Key, ix.keyOf e.2 = .ok key →
    ix.keyOf e'.2 = .ok key → key.hasNull = false → e = e'

/-- An index that has just the rows that stand in order groups them. -/
theorem Index.Exact.mirrors {ix : Index} {rows : List (Handle × Row)} (he : ix.Exact rows)
    (hr : (rows.map Prod.fst).Pairwise Handle.Before) : ix.Mirrors rows := by
  have hg := he.groups hr
  have hnodup : (rows.map Prod.fst).Nodup := hr.imp fun h => h.ne
  have hrow : ∀ {h row row'}, (h, row) ∈ rows → (h, row') ∈ rows → row' = row := fun h1 h2 =>
    (Prod.mk.inj (List.inj_on_of_nodup_map hnodup h2 h1 rfl)).2
  refine ⟨fun h row hm => ?_, fun key h hm => (hg.mem_iff key h).1 hm, he.inhabited, hg.ascending, he.single,
    fun hu e hm e' hm' key hk hk' hnull => ?_⟩
  · obtain ⟨key, hk⟩ := he.keyed _ hm
    refine ⟨key, hk, fun k => ?_⟩
    split
    · rename_i heq
      subst heq
      exact List.count_eq_one_of_mem ((hg.ascending k).imp fun h => h.ne) ((hg.mem_iff k h).2 ⟨row, hm, hk⟩)
    · rename_i hne
      refine List.count_eq_zero_of_not_mem fun hin => hne ?_
      obtain ⟨row', hm', hk'⟩ := (hg.mem_iff k h).1 hin
      rw [hrow hm hm', hk] at hk'
      exact (Except.ok.inj hk').symm
  · -- two rows under one key have one handle
    have hle := he.single hu key hnull
    obtain ⟨h, row⟩ := e
    obtain ⟨h', row'⟩ := e'
    have hin := (hg.mem_iff key h).2 ⟨row, hm, hk⟩
    have hin' := (hg.mem_iff key h').2 ⟨row', hm', hk'⟩
    have heq : h = h' := by
      match hl : ix.handles key with
      | [] => simp [hl] at hin
      | [a] => simp_all
      | a :: b :: rest => simp [hl] at hle
    subst heq
    rw [hrow hm hm']

namespace Models

variable {l : Location} {sites : Sites} {c : Catalog} {fs : Files} {d : Database} {name : String}
  {ct : Content}

theorem value_rowsOf (h : Models l sites c fs d) (hd : d.Described) (hc : d.content name = some ct) :
    (Catalog.rowsOf name).value c fs = .ok ct.rows.live := by
  rw [Catalog.rowsOf, h.value_keyedRows hd hc fun _ hm => absurd hm List.not_mem_nil]
  exact congrArg Except.ok (List.map_id _)

end Models

namespace Session

variable {l : Location} {sites : Sites} {fs : Files} {statements : List Language.Statement}

/-- Whether a session keeps every index that is listed, by the columns that the catalog says, as the grouping of
the rows of its table. -/
def Grouped (state : Session × Files) : Prop :=
  ∃ c fs', opened.apply state.1 state.2 = (.ok c, { state.1 with catalog := some c }, fs') ∧
    ∀ t, ∃ names, (Catalog.indexNames t).value c fs' = .ok names ∧ ∀ i ∈ names, ∃ ix rows,
      c.indexes.get? (t, i) = some ix ∧ ix.loaded = true ∧
      (Catalog.indexDefinition t i).value c fs' = .ok (ix.columns, ix.unique) ∧
      (Catalog.rowsOf t).value c fs' = .ok rows ∧ ix.Mirrors rows

/-- After any run all indices group the rows of their tables. -/
theorem grouped_run (h : l.Fits sites fs statements) : Grouped (run statements (⟨l, none⟩, fs)) := by
  obtain ⟨d, c, fs', hopens⟩ := opens_run h
  have hm := hopens.models
  have hd := hopens.sound.regular
  refine ⟨c, fs', hopens.opened, fun t => ⟨d.indexNames t, hm.value_indexNames t, fun i hi => ?_⟩⟩
  obtain ⟨ix, ct, hx, hc, hs⟩ := hd.index_of_mem hi
  have hcontent := hd.content_eq hc
  refine ⟨ix, ct.rows.live, (hm.index t i).trans hx, hs.loaded, ?_, hm.value_rowsOf hd.toDescribed hcontent,
    (hopens.sound.exact_of_table hc hx).mirrors (hm.ascending hcontent).live⟩
  rw [hm.value_indexDefinition, hs.definition]

/-- Statements on a table with two indices, of which the unique one refuses a row that the other took first. -/
def refusedOnce : List Language.Statement :=
  [.createTable "t" [⟨"a", .integer, false⟩, ⟨"b", .text, false⟩] false,
    .createIndex "i" "t" ["b"] .hash, .createIndex "j" "t" ["a"] .btree,
    .insert "t" none [.literal (.integer 1), .literal (.text "x")],
    .insert "t" none [.literal (.integer 1), .literal (.text "x")]]

theorem grouped_run_refusedOnce :
    Location.Fits {} (.of refusedOnce) (.fresh ["home"]) refusedOnce ∧
      Grouped (run refusedOnce (⟨{}, none⟩, .fresh ["home"])) := by
  have h : Location.Fits {} (.of refusedOnce) (.fresh ["home"]) refusedOnce := by decide +kernel
  exact ⟨h, grouped_run h⟩

end Session

end Rowbase
