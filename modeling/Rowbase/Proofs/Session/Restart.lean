import Rowbase.Proofs.Session.Entries
import Rowbase.Proofs.Session.Following

/-! # Sessions that begin again

A session that begins where another one has left a database does what the other one would have done. It knows nothing
but the files: what the other one remembers of tables and indices it reads there when it comes to need it. -/
namespace Rowbase

open Act Database

namespace Catalog

variable {l : Location} {sites sites' : Sites} {c c' : Catalog} {fs : Files} {d : Database} {t i : String}

/-- Whether a catalog has used nothing but its own relations. -/
structure Unused (c : Catalog) : Prop where
  relations : c.relations = .empty
  indexes : c.indexes = .empty

/-- Setting a catalog up uses its own relations only. -/
theorem preserves_setUp : Preserves (fun c _ => Unused c) setUp := by
  have hown : ∀ {α : Type} (x : Act StorageError Relation α), Preserves (fun c _ => Unused c) (onTables x) ∧
      Preserves (fun c _ => Unused c) (onColumns x) ∧ Preserves (fun c _ => Unused c) (onIndices x) := fun x =>
    ⟨fun _ _ h => ⟨h.1, h.2⟩, fun _ _ h => ⟨h.1, h.2⟩, fun _ _ h => ⟨h.1, h.2⟩⟩
  have hdescribe : Preserves (fun c _ => Unused c) describeItself :=
    preserves_forM (fun name => (hown _).1.discard.bind fun _ =>
      preserves_forM (fun _ => (hown _).2.1.discard) _) _
  refine Preserves.bind (fun _ _ h => h) fun _ => (hown _).1.bind fun _ => (hown _).2.1.bind fun _ =>
    (hown _).2.2.bind fun _ => (hown _).1.bind fun handles => ?_
  split
  · exact hdescribe
  · exact preserves_pure _

/-- A catalog that has used nothing has used no more than another one of the same database, whose indices can be read
back. -/
theorem Follows.of_unused (h : Models l sites c fs d) (h' : Models l sites' c' fs d.dormant)
    (hd : d.Regular l sites) (hu : c'.Unused)
    (hread : ∀ key ix, c.indexes.get? key = some ix → ix.ReadsBack) : c.Follows c' fs where
  location := h'.location.trans h.location.symm
  kept name r' hk' := by
    have hn : name ∈ Schema.names := by
      by_contra hn
      rw [kept_of_not_mem hn, hu.relations] at hk'
      cases hk'
    obtain ⟨r, hk⟩ := Catalog.exists_kept hn c
    obtain ⟨ct, hc, hserves⟩ := h'.kept name r' hk'
    exact ⟨r, hk, (h.serves hk hc).view_eq hserves⟩
  index key ix' hx' := by
    rw [hu.indexes] at hx'
    cases hx'
  dormant := by
    rintro ⟨t, i⟩ ix hx -
    obtain ⟨ct, -, hs⟩ := hd.stands t i ix ((h.index t i).symm.trans hx)
    exact ⟨hs.loaded, hread _ ix hx⟩

/-- All entries of an index are read alike by both catalogs. -/
theorem lockstep_entriesOf (hexclusive : sites.exclusive = true) (t i : String) :
    Lockstep (Coupled (Modelled l sites (Regular l sites))) (entriesOf t i) fun _ => Follows :=
  lockstep_onIndex hexclusive (fun _ hd => hd.handy t i) (Index.confined_load_look _)
    (.inr (Index.lockstep_load_look fun _ _ _ ht => congrArg Except.ok ht.map.toList_eq.symm))

end Catalog

namespace Session

variable {l : Location} {sites : Sites} {s s' : Session} {c c' : Catalog} {fs fs' fs₁ before : Files} {d : Database}
  {statement : Language.Statement} {statements more : List Language.Statement}

/-- What statements return that are carried out one after the other, whatever becomes of each. -/
def answers : List Language.Statement → Session × Files → List (Except Refusal Answer)
  | [], _ => []
  | s :: rest, state =>
    ((execute s).apply state.1 state.2).1 :: answers rest ((execute s).apply state.1 state.2).2

/-- Whether the documents of all indices that a session has used are read back as they were written. -/
def ReadsBack (s : Session) : Prop :=
  ∀ c, s.catalog = some c → ∀ key ix, c.indexes.get? key = some ix → ix.ReadsBack

/-- Whether two sessions have the same database in order, of which the second has used no more than the first. -/
def Trails (l : Location) (sites : Sites) (s s' : Session) (fs : Files) : Prop :=
  ∃ c c' fs₁, opened.apply s fs = (.ok c, { s with catalog := some c }, fs₁) ∧
    opened.apply s' fs = (.ok c', { s' with catalog := some c' }, fs₁) ∧
    Catalog.Coupled (Catalog.Modelled l sites (Sound l sites)) c c' fs₁

/-- A catalog that a session has not opened before has used nothing. -/
theorem unused_of_opened (h : opened.apply s fs = (.ok c, s', fs')) (hs : s.catalog = none) : c.Unused := by
  have hsetUp := Catalog.preserves_setUp (.blank s.location) fs ⟨rfl, rfl⟩
  rw [apply, opened, hs] at h
  dsimp only at h
  cases hx : Catalog.setUp.apply (.blank s.location) fs with
  | mk res rest =>
    obtain ⟨c₁, fs₁⟩ := rest
    rw [hx] at h hsetUp
    cases res with
    | ok => cases h; exact hsetUp
    | error => cases h

/-- A session opens the catalog that it has. -/
theorem eq_of_opened {c₀ : Catalog} (h : opened.apply s fs = (.ok c, s', fs')) (hc : s.catalog = some c₀) : c = c₀ := by
  rw [apply, opened, hc] at h
  cases h
  rfl

/-- A new session has used no more than one that has left its database in order. -/
theorem Opens.trails (h : Opens l sites d s fs c fs') (hread : s.ReadsBack) : Trails l sites s ⟨l, none⟩ fs := by
  obtain ⟨c', hx', hm'⟩ := h.reopened
  refine ⟨c, c', fs', h.opened, hx', .of_unused h.models hm' h.sound.regular (unused_of_opened hx' rfl) ?_, d,
    h.models, h.sound⟩
  intro key ix hx
  cases hc : s.catalog with
  | some c₀ => exact hread c (by rw [hc, eq_of_opened h.opened hc]) key ix hx
  | none =>
    rw [(unused_of_opened h.opened hc).indexes] at hx
    cases hx

/-! ## One more statement, and any number -/

/-- A statement does the same on both catalogs and leaves the database in order. -/
theorem inStep_carryOut (hexclusive : sites.exclusive = true) (hs : ∀ site ∈ statement.sites, site ∈ sites) :
    Catalog.InStep (Catalog.Modelled l sites (Sound l sites)) (carryOut statement) := by
  refine Catalog.inStep_of_preserves (Catalog.lockstep_carryOut hexclusive hs) ?_
  rintro c fs ⟨d, hm, hd⟩
  cases settles_carryOut hm hd hs with
  | refused _ ha h₁ hd₁ =>
    rw [ha]
    exact ⟨_, h₁, hd₁⟩
  | done _ ha h₁ hd₁ =>
    rw [ha]
    exact ⟨_, h₁, hd₁⟩

theorem lockstep_execute (hexclusive : sites.exclusive = true) (hs : ∀ site ∈ statement.sites, site ∈ sites) :
    Lockstep (Trails l sites) (execute statement) fun _ => Trails l sites := by
  rintro s s' fs ⟨c, c', fs₁, hx, hx', h⟩
  obtain ⟨res, c₁, c₁', fs₂, ha, ha', h₁⟩ := inStep_carryOut hexclusive hs c c' fs₁ h
  have hdo := apply_execute hx statement
  have hdo' := apply_execute hx' statement
  rw [ha] at hdo
  rw [ha'] at hdo'
  exact ⟨res, _, _, fs₂, hdo, hdo', c₁, c₁', fs₂, opened_some s c₁ fs₂, opened_some s' c₁' fs₂, h₁⟩

/-- Both sessions answer alike and leave the same files. -/
theorem Trails.run (hexclusive : sites.exclusive = true) :
    ∀ (more : List Language.Statement) {s s' : Session} {fs : Files}, Trails l sites s s' fs →
      (∀ s ∈ more, ∀ site ∈ s.sites, site ∈ sites) → answers more (s', fs) = answers more (s, fs) ∧
        ∃ s₁ s₁' fs₁, Session.run more (s, fs) = (s₁, fs₁) ∧ Session.run more (s', fs) = (s₁', fs₁) ∧
          Trails l sites s₁ s₁' fs₁
  | [], s, s', fs, h, _ => ⟨rfl, s, s', fs, rfl, rfl, h⟩
  | statement :: rest, s, s', fs, h, hs => by
    obtain ⟨res, s₁, s₁', fs₁, ha, ha', h₁⟩ := lockstep_execute hexclusive (hs statement (.head _)) s s' fs h
    obtain ⟨hanswers, hrest⟩ := Trails.run hexclusive rest h₁ fun s hm => hs s (.tail _ hm)
    rw [answers, answers, Session.run, Session.run, ha, ha']
    exact ⟨congrArg (res :: ·) hanswers, hrest⟩

/-! ## What is seen -/

theorem Trails.sees_eq {α : Type} {x : Act StorageError Catalog α}
    {Q : Except StorageError α → Catalog → Catalog → Files → Prop} (h : Trails l sites s s' fs)
    (hx : Lockstep (Catalog.Coupled (Catalog.Modelled l sites (Regular l sites))) x Q) :
    sees (s', fs) x = sees (s, fs) x := by
  obtain ⟨c, c', fs₁, ho, ho', hf, d, hm, hd⟩ := h
  obtain ⟨res, c₁, c₁', fs₂, ha, ha', -⟩ := hx c c' fs₁ ⟨hf, d, hm, hd.regular⟩
  rw [sees_of_opened ho, sees_of_opened ho', value, value, ha, ha']

/-- Both sessions see the same of every table and its indices. -/
theorem Trails.agreeWholly (h : Trails l sites s s' fs) (hexclusive : sites.exclusive = true) (t : String) :
    AgreeWholly t (s, fs) (s', fs) where
  columns := h.sees_eq (Catalog.surveys_columnsOf t).inStep
  rows := h.sees_eq (Catalog.inStep_keyedRows (fun _ hd => hd.toDescribed) [])
  indices := h.sees_eq (Catalog.surveys_indexNames t).inStep
  definition i := h.sees_eq (Catalog.surveys_indexDefinition t i).inStep
  found _ key := h.sees_eq (Catalog.inStep_lookup hexclusive key)
  entries i := h.sees_eq (Catalog.lockstep_entriesOf hexclusive t i)

/-- After any run of a session whose indices can be read back, a new session answers all that follows as the old one
would have: with the same rows, messages and errors. Both leave the same files, and see the same rows and the same
entries of indices in them. -/
theorem restart_run (h : l.Fits sites before (statements ++ more)) (hexclusive : sites.exclusive = true)
    (hrun : run statements (⟨l, none⟩, before) = (s, fs)) (hread : s.ReadsBack) :
    answers more (⟨l, none⟩, fs) = answers more (s, fs) ∧
      (run more (⟨l, none⟩, fs)).2 = (run more (s, fs)).2 ∧
      ∀ t, AgreeWholly t (run more (s, fs)) (run more (⟨l, none⟩, fs)) := by
  have hfirst : l.Fits sites before statements :=
    ⟨h.suits, h.own, fun s hm => h.named s (List.mem_append_left _ hm)⟩
  obtain ⟨d, c, fs', hopens⟩ := opens_run hfirst
  rw [hrun] at hopens
  obtain ⟨hanswers, s₁, s₁', fs₁, hx, hx', htrails⟩ := (hopens.trails hread).run hexclusive more
    fun s hm => h.named s (List.mem_append_right _ hm)
  rw [hx, hx']
  exact ⟨hanswers, rfl, htrails.agreeWholly hexclusive⟩

/-- Statements that make a table of numbers with a unique index. -/
def numbered : List Language.Statement :=
  [.createTable "t" [⟨"a", .integer, false⟩] false, .createIndex "j" "t" ["a"] .btree]

/-- Statements that use the index again: the second row is refused, and the first one is found and deleted. -/
def renumbered : List Language.Statement :=
  [.insert "t" none [.literal (.integer 1)], .insert "t" none [.literal (.integer 1)],
    .select .all "t" (some (.binary (.comparison .eq) (.column "a") (.literal (.integer 1)))), .delete "t" none,
    .dropIndex "j" "t"]

theorem fits_numbered :
    Location.Fits {} (.of (numbered ++ renumbered)) (.fresh ["home"]) (numbered ++ renumbered) := by
  decide +kernel

/-- The index of a table without rows is read back. -/
theorem readsBack_numbered : ∃ s fs, run numbered (⟨{}, none⟩, .fresh ["home"]) = (s, fs) ∧ s.ReadsBack := by
  have hdesc : Schema.Describes "t" [⟨"a", { kind := .int }⟩] :=
    ⟨by decide +kernel, by decide +kernel, List.cons_ne_nil _ _⟩
  have hstorable : Catalog.storableColumns [] [⟨"a", .integer, false⟩] = .ok [⟨"a", { kind := .int }⟩] := rfl
  obtain ⟨s₁, fs₁, c₁, d₁, hx₁, h₁, hc₁, hindices₁, hindex₁⟩ := createTable_first fits_numbered.suits
    fits_numbered.own (by decide +kernel) (by decide) hstorable hdesc false
  have hnil₁ : d₁.indexEntries "t" "j" = [] := by
    rw [indexEntries, hindices₁]
    rfl
  obtain ⟨s₂, fs₂, c₂, d₂, hx₂, h₂, new, ix, rfl, -, hnew⟩ := h₁.createIndex ["a"] .btree rfl
    (by decide +kernel) hc₁ rfl hnil₁ (List.cons_ne_nil _ _) rfl (by decide +kernel)
  refine ⟨s₂, fs₂, by rw [numbered, run, hx₁, run, hx₂, run], fun c hc => ?_⟩
  rintro ⟨t, i⟩ ix' hx'
  rw [← eq_of_opened h₂.opened hc, h₂.models.index, index_withIndex] at hx'
  split at hx'
  · cases hx'
    have hix : (d₁.withIndex "t" "j" new (some ix)).index "t" "j" = some ix :=
      (index_withIndex d₁ "t" "j" new (some ix) "t" "j").trans (if_pos ⟨rfl, rfl⟩)
    obtain ⟨_, -, hstands⟩ := h₂.sound.regular.stands "t" "j" ix hix
    obtain ⟨hcolumns, hunique⟩ := Prod.mk.inj (hstands.definition.symm.trans
      (definition_withIndex hnil₁ (List.cons_ne_nil "a" []) (by decide) hnew (some ix)))
    have hc₂ : (d₁.withIndex "t" "j" new (some ix)).table "t" = some ⟨[⟨"a", { kind := .int }⟩], []⟩ := hc₁
    have hexact : ix.Exact [] := h₂.sound.exact_of_table hc₂ hix
    rw [Index.ReadsBack, hexact.document_of_nil, hcolumns, hunique]
    decide +kernel
  · rw [hindex₁] at hx'
    cases hx'

theorem restart_run_numbered : ∃ s fs,
    Location.Fits {} (.of (numbered ++ renumbered)) (.fresh ["home"]) (numbered ++ renumbered) ∧
    (Sites.of (numbered ++ renumbered)).exclusive = true ∧
    run numbered (⟨{}, none⟩, .fresh ["home"]) = (s, fs) ∧ s.ReadsBack ∧
    answers renumbered (⟨{}, none⟩, fs) = answers renumbered (s, fs) ∧
    (run renumbered (⟨{}, none⟩, fs)).2 = (run renumbered (s, fs)).2 ∧
    ∀ t, AgreeWholly t (run renumbered (s, fs)) (run renumbered (⟨{}, none⟩, fs)) := by
  obtain ⟨s, fs, hrun, hread⟩ := readsBack_numbered
  exact ⟨s, fs, fits_numbered, rfl, hrun, hread, restart_run fits_numbered rfl hrun hread⟩

end Session

end Rowbase
