import Rowbase.Proofs.Frame.Catalog
import Rowbase.Proofs.Session.Restart
import Rowbase.Proofs.Twin.Making

/-! # Statements on twins

Every statement does the same to twins. It leaves twins, unless it takes over a file of the catalog for a table. Twins
come about in two ways: a catalog is its own twin, and so are two catalogs that have used nothing and say the same. -/
namespace Rowbase

open Act Database
open Files (SameBut Spares Leaves Clear Linkless)

variable {l : Location} {own : Nat → Prop} {L : List String} {fs fs' g : Files} {d d' : Database} {c c' : Catalog}
  {name : String} {ct : Content}

/-- Whether names lead to the place of a describing relation. -/
def Location.Own (l : Location) (fs : Files) (names : List String) : Prop :=
  ∃ name ∈ Schema.names, fs.locate (l.relationPath name) = .ok names

/-! ## The rows of describing relations -/

theorem Catalog.surveys_rowsOf (hn : name ∈ Schema.names) : Surveys (rowsOf name) :=
  (surveys_own hn (Relation.reads_select none)).bind fun handles => surveys_mapM (fun h =>
    (surveys_own hn (Relation.reads_project h [])).bind fun _ => surveys_pure _) handles

theorem Models.value_rowsOf_own {sites : Sites} (h : Models l sites c fs d) (hn : name ∈ Schema.names)
    (hc : d.content name = some ct) : (Catalog.rowsOf name).value c fs = .ok ct.rows.live := by
  obtain ⟨r, hk⟩ := Catalog.exists_kept hn c
  have hr := h.serves hk hc
  have hv : ∀ {α : Type} (x : Act StorageError Relation α), (Catalog.onRelation name x).value c fs = x.value r fs := by
    intro α x
    rw [value, Catalog.onRelation_of_kept hk]
    rfl
  rw [Catalog.rowsOf, value_keyedRows_bind, hv, hr.lists.select]
  refine ((mapM_map _ _ _).trans (mapM_ok fun e he => ?_)).trans (congrArg Except.ok (List.map_id _))
  rw [(Catalog.reads_onRelation name (Relation.reads_project e.1 [])).value_bind fun _ => reads_pure _, hv,
    hr.value_project he]
  rfl

/-- Where the entries lie behind the same handles the describing relations have the same rows. -/
theorem Database.SameLists.content (h : d.SameLists d') (hn : name ∈ Schema.names) : ∃ ct ct',
    d.content name = some ct ∧ d'.content name = some ct' ∧ ct'.rows.live = ct.rows.live := by
  have himage : ∀ {β : Type} {f : β → Row} {entries entries' : Tape β}, entries'.live = entries.live →
      (entries'.image f).live = (entries.image f).live := by
    intro β f entries entries' he
    rw [Tape.live_image, Tape.live_image, he]
  rcases Schema.mem_names.1 hn with rfl | rfl | rfl
  · exact ⟨_, _, rfl, rfl, himage h.tables⟩
  · exact ⟨_, _, rfl, rfl, himage h.columns⟩
  · exact ⟨_, _, rfl, rfl, himage h.indices⟩

namespace Catalog

theorem Holds.sees_rows (h : Holds l own c fs d) (h' : Holds l own c' fs' d') (hd : d.SameLists d')
    (hn : name ∈ Schema.names) : (rowsOf name).value c' fs' = (rowsOf name).value c fs := by
  have hvalue : ∀ {c : Catalog} {fs : Files} {d : Database} {ct : Content}, Holds l own c fs d →
      d.content name = some ct → (rowsOf name).value c fs = .ok ct.rows.live := by
    intro c fs d ct h hc
    obtain ⟨_, hx, -⟩ := h.survey (surveys_rowsOf hn)
    rw [value, hx]
    exact h.models.value_rowsOf_own hn hc
  obtain ⟨ct, ct', hc, hc', hrows⟩ := hd.content hn
  rw [hvalue h hc, hvalue h' hc', hrows]

/-! ## Statements -/

/-- A statement does the same to twins, and leaves twins unless it takes over an own file. -/
theorem abreast_carryOut (statement : Language.Statement) : Abreast (Twins l own L) (Session.carryOut statement)
    (Session.carryOut statement) fun _ c fs c' fs' => (∃ L, Twins l own L c fs c' fs') ∨ Clash l own c fs := by
  have hkeep : ∀ {x : Act Refusal Catalog Answer}, Tandem l own L x →
      Abreast (Twins l own L) x x fun _ c fs c' fs' => (∃ L, Twins l own L c fs c' fs') ∨ Clash l own c fs :=
    fun hx => Abreast.mono hx id fun h => .inl ⟨L, h⟩
  cases statement with
  | select what t condition => exact hkeep (tandem_select what t condition)
  | insert t names values => exact hkeep (tandem_insert t names values)
  | update => exact hkeep (tandem_pure _)
  | delete t condition => exact hkeep (tandem_delete t condition)
  | createTable t declared ifNotExists => exact abreast_createTable t declared ifNotExists
  | dropTable t => exact (abreast_dropTable t).mono id .inl
  | createIndex i t columns kind => exact hkeep (tandem_createIndex i t columns kind)
  | dropIndex i t => exact hkeep (tandem_dropIndex i t)
  | showTables => exact hkeep tandem_showTables
  | showColumns t => exact hkeep (tandem_showColumns t)
  | showIndex t => exact hkeep (tandem_showIndex t)

/-! ## How twins come about -/

/-- Catalogs that have used nothing match if their entries say the same. -/
theorem matches_of_unused {K U : String → Prop} (h : Holds l own c fs d) (h' : Holds l own c' fs' d') (hu : c.Unused)
    (hu' : c'.Unused) (hfiles : SameBut own fs fs') (hdesc : d'.description = d.description)
    (hclear : ∀ t, K t → Clear own fs (l.relationPath t)) : Matches l own K U d d' c fs c' fs' := by
  refine ⟨h, h', hfiles, hdesc, hclear, fun t => ?_, fun t r hk => ?_, ?_, fun t i ix hx => ?_⟩
  · rw [hu.relations, hu'.relations]
  · rw [hu.relations] at hk
    cases hk
  · rw [hu.indexes, hu'.indexes]
  · rw [hu.indexes] at hx
    cases hx

/-- Catalogs that have used nothing are twins if their entries say the same and lead to no own file. -/
theorem twins_of_unused (h : Holds l own c fs d) (h' : Holds l own c' fs' d') (hu : c.Unused) (hu' : c'.Unused)
    (hfiles : SameBut own fs fs') (hdesc : d'.description = d.description) (hd : d.description.Covers L)
    (hclear : ∀ t, Usable L t → Clear own fs (l.relationPath t)) : Twins l own L c fs c' fs' :=
  ⟨d, d', hd, matches_of_unused h h' hu hu' hfiles hdesc hclear⟩

theorem Unused.bare (h : c.Unused) : c.bare = c := by
  obtain ⟨location, tables, columns, indices, relations, indexes⟩ := c
  obtain ⟨rfl, rfl⟩ := h
  rfl

/-- A catalog is opened again as it is, without what it has used. -/
theorem Holds.reopened (h : Holds l own c fs d) (hd : d.description.Covers L) : ∃ c',
    setUp.apply (.blank l) fs = (.ok (), c', fs) ∧ Holds l own c' fs d.dormant ∧ c'.Unused := by
  have hlisted : d.tables.live ≠ [] := by
    intro hnil
    have hm : Schema.tables ∈ d.description.tables := hd.tables ▸ hd.own _ (by decide)
    rw [description, hnil] at hm
    cases hm
  obtain ⟨c', hx, hm⟩ := h.models.setUp_listed hlisted
  have hu : c'.Unused := by
    have hsetUp := preserves_setUp (.blank l) fs ⟨rfl, rfl⟩
    rwa [hx] at hsetUp
  exact ⟨c', hx, ⟨hu.bare.symm ▸ hm, h.owned, h.sole⟩, hu⟩

theorem apply_makeDirectory (h : (fs.makeDirectories l.directory).1 = .ok ()) :
    makeDirectory.apply (.blank l) fs = (.ok (), .blank l, (fs.makeDirectories l.directory).2) := by
  change ((fs.makeDirectories l.directory).1.mapError StorageError.file, _, _) = _
  rw [h]
  rfl

/-- Where a database can begin, setting a catalog up makes one that holds nothing but its own description. -/
theorem holds_of_suits (h : l.Suits Schema.sites fs) (hl : fs.Linkless) : ∃ c g d own,
    setUp.apply (.blank l) fs = (.ok (), c, g) ∧ Holds l own c g d ∧ d.Fresh ∧ c.Unused ∧
      ∀ names, ¬ l.Own g names → g.fileAt? names = fs.fileAt? names := by
  obtain ⟨c, g, d, hx, hm, hd⟩ := Models.setUp h fun _ hn => Schema.relation_mem_sites hn
  have hu : c.Unused := by
    have hsetUp := preserves_setUp (.blank l) fs ⟨rfl, rfl⟩
    rwa [hx] at hsetUp
  have hkeeps := Files.keepsFiles_makeDirectories fs l.directory
  have hblank : (blank l).Placed (l.Own (fs.makeDirectories l.directory).2) (fun _ => False) l _ _ :=
    placed_blank (hkeeps.linkless hl) (fun name hn names hl => ⟨name, hn, hl⟩) fun _ => False.elim
  have hplaced := placed_setUp (apply_makeDirectory h.directory) hblank
  rw [hx] at hplaced
  refine ⟨c, g, d, fun id => ∃ name ∈ Schema.names, g.find (l.relationPath name) = .ok id, hx,
    ⟨hu.bare.symm ▸ hm, fun _ => Iff.rfl, fun id _ a b ha hb => hplaced.linkless.single b a id hb ha⟩, hd, hu, ?_⟩
  intro names hnone
  rw [hplaced.within.fileAt?_eq, hkeeps.fileAt?_eq]
  rintro ⟨name, hn, hlocate⟩
  exact hnone ⟨name, hn, hplaced.within.locate_iff.2 hlocate⟩

end Catalog

end Rowbase
