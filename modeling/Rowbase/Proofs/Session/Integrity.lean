import Rowbase.Proofs.Session.Grouping

/-! # The catalog after any run

Whatever statements a session has carried out, and whether they succeeded or failed: the catalog says each
thing once and nothing of what is not there, and the files are those of the tables and indices that it
lists. -/
namespace Rowbase

open Act Database Files

/-- Whether the rows of the three relations of a catalog are those that a description makes. -/
structure Catalog.Tells (c : Catalog) (fs : Files) (D : Description) : Prop where
  tables : ((rowsOf Schema.tables).value c fs).map (·.map Prod.snd) = .ok (D.tables.map Schema.tableRow)
  columns : ((rowsOf Schema.columns).value c fs).map (·.map Prod.snd) = .ok (D.columns.map ColumnEntry.row)
  indices : ((rowsOf Schema.indices).value c fs).map (·.map Prod.snd) = .ok (D.indices.map IndexEntry.row)

/-- Whether just the tables and indices of a description have files, as far as some sites go. -/
structure Description.Filed (D : Description) (l : Location) (sites : Sites) (fs : Files) : Prop where
  table_site : ∀ t ∈ D.tables, .relation t ∈ sites
  index_site : ∀ t i, D.partsOf t i ≠ [] → .index t i ∈ sites
  table : ∀ t, .relation t ∈ sites → (fs.exists? (l.relationPath t) = true ↔ t ∈ D.tables)
  index : ∀ t i, .index t i ∈ sites → (fs.exists? (l.indexPath t i) = true ↔ D.partsOf t i ≠ [])

namespace Models

variable {l : Location} {sites : Sites} {c : Catalog} {fs : Files} {d : Database}

/-- The rows of the catalog are what the entries say. -/
theorem tells (h : Models l sites c fs d) (hd : d.Described) : c.Tells fs d.description := by
  have hlive : ∀ {α : Type} (tape : Tape α) (f : α → Row),
      (tape.image f).live.map Prod.snd = (tape.live.map Prod.snd).map f := by
    intro α tape f
    rw [Tape.live_image, List.map_map, List.map_map]
    rfl
  have hrows : ∀ {name ct}, d.content name = some ct →
      ((Catalog.rowsOf name).value c fs).map (·.map Prod.snd) = .ok (ct.rows.live.map Prod.snd) := by
    intro name ct hc
    rw [h.value_rowsOf hd hc]
    rfl
  exact ⟨(hrows rfl).trans (congrArg _ (hlive _ _)), (hrows rfl).trans (congrArg _ (hlive _ _)),
    (hrows rfl).trans (congrArg _ (hlive _ _))⟩

/-- Where no two files are shared, just what is listed has a file. -/
theorem filed_description (h : Models l sites c fs d) (hd : d.Regular l sites)
    (hexclusive : sites.exclusive = true) : d.description.Filed l sites fs := by
  have hcontent : ∀ t, t ∈ d.description.tables ↔ ∃ ct, d.content t = some ct := fun t =>
    mem_tables_description.trans (hd.listed_iff t)
  have hparts : ∀ t i, d.description.partsOf t i ≠ [] ↔ d.index t i ≠ none := by
    intro t i
    rw [partsOf_description, ne_eq, List.map_eq_nil_iff]
    exact hd.indexed t i
  refine ⟨fun t ht => ?_, fun t i hp => ?_, fun t hs => ?_, fun t i hs => ?_⟩
  · obtain ⟨ct, hc⟩ := (hcontent t).1 ht
    exact (h.stored t ct hc).1
  · obtain ⟨ix, hx⟩ := Option.ne_none_iff_exists'.1 ((hparts t i).1 hp)
    obtain ⟨ct, -, hstands⟩ := hd.stands t i ix hx
    exact hstands.site
  · refine (h.exists?_iff hs).trans ?_
    rw [hcontent]
    cases hc : d.content t with
    | none => exact iff_of_false (fun hne => hne (h.missing t hs hc)) nofun
    | some ct =>
      refine iff_of_true ?_ ⟨ct, rfl⟩
      have hserves := (h.stored t ct hc).2
      obtain ⟨id, hh⟩ := hserves.holds
      rw [show fs.find (l.pathOf (.relation t)) = .ok id from hserves.find_of hh]
      exact nofun
  · refine (h.exists?_iff hs).trans ?_
    rw [hparts]
    cases hx : d.index t i with
    | none =>
      have hf := h.filed hexclusive t i hs
      rw [hx] at hf
      exact iff_of_false (fun hne => hne hf) fun hne => hne rfl
    | some ix =>
      obtain ⟨id, hf⟩ := find_of_read (h.read_index hd hexclusive hx)
      refine iff_of_true ?_ nofun
      rw [show fs.find (l.pathOf (.index t i)) = .ok id from hf]
      exact nofun

end Models

namespace Session

variable {l : Location} {sites : Sites} {fs : Files} {statements : List Language.Statement}

/-- Whether the catalog that a session opens is coherent and knows no other kinds of columns than three, and just
what it lists has files. -/
def Tidy (l : Location) (sites : Sites) (state : Session × Files) : Prop :=
  ∃ c fs' D, opened.apply state.1 state.2 = (.ok c, { state.1 with catalog := some c }, fs') ∧
    c.Tells fs' D ∧ D.Coherent ∧ (∀ e ∈ D.columns, e.kind.name ∈ ["INT", "TEXT", "BOOLEAN"]) ∧
    D.Filed l sites fs'

/-- After any run the catalog is coherent, and just what it lists has files. -/
theorem tidy_run (h : l.Fits sites fs statements) (hexclusive : sites.exclusive = true) :
    Tidy l sites (run statements (⟨l, none⟩, fs)) := by
  obtain ⟨d, c, fs', hopens⟩ := opens_run h
  have hregular := hopens.sound.regular
  exact ⟨c, fs', d.description, hopens.opened, hopens.models.tells hregular.toDescribed, hopens.coherent,
    fun e _ => by cases e.kind <;> decide, hopens.models.filed_description hregular hexclusive⟩

/-- Statements of which two are refused: a table that is there already and an index on a column that is not. -/
def refusedTwice : List Language.Statement :=
  [.createTable "t" [⟨"a", .integer, false⟩, ⟨"b", .text, false⟩] false, .createIndex "i" "t" ["b", "a"] .hash,
    .createTable "t" [⟨"c", .boolean, false⟩] false, .createIndex "j" "t" ["a", "c"] .btree,
    .createTable "u" [⟨"c", .boolean, false⟩] true, .dropIndex "i" "t", .dropTable "u"]

theorem tidy_run_refusedTwice :
    Location.Fits {} (.of refusedTwice) (.fresh ["home"]) refusedTwice ∧
      (Sites.of refusedTwice).exclusive = true ∧
      Tidy {} (.of refusedTwice) (run refusedTwice (⟨{}, none⟩, .fresh ["home"])) := by
  have h : Location.Fits {} (.of refusedTwice) (.fresh ["home"]) refusedTwice := by decide +kernel
  exact ⟨h, rfl, tidy_run h rfl⟩

end Session

end Rowbase
