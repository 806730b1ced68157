import Rowbase.Proofs.Session.Changes
import Rowbase.Proofs.Session.Reopening

/-! # Runs

A session carries out statements one after the other, whether they succeed or fail. Where it begins with a
place that suits what the statements name, its database is in order after each of them. -/
namespace Rowbase

open Act Database

/-- Carries out statements one after the other, whatever becomes of each. -/
def Session.run : List Language.Statement → Session × Files → Session × Files
  | [], state => state
  | s :: rest, state => run rest ((execute s).apply state.1 state.2).2

/-- Whether statements can be carried out on a database that begins at a place: all relations and indices
that they name, and those of the catalog, can have files there. -/
structure Location.Fits (l : Location) (sites : Sites) (fs : Files) (statements : List Language.Statement) :
    Prop where
  suits : l.Suits sites fs
  own : ∀ name ∈ Schema.names, .relation name ∈ sites
  named : ∀ s ∈ statements, ∀ site ∈ s.sites, site ∈ sites

/-- The relations and indices that statements name and those of the catalog, with a file for each. -/
def Sites.of (statements : List Language.Statement) : Sites :=
  ⟨Schema.names.map .relation ++ statements.flatMap Language.Statement.sites, true⟩

theorem Location.fits_iff {l : Location} {sites : Sites} {fs : Files} {statements : List Language.Statement} :
    l.Fits sites fs statements ↔ l.Suits sites fs ∧ (∀ name ∈ Schema.names, Site.relation name ∈ sites.all) ∧
      ∀ s ∈ statements, ∀ site ∈ s.sites, site ∈ sites.all :=
  ⟨fun h => ⟨h.suits, h.own, h.named⟩, fun ⟨h, ho, hn⟩ => ⟨h, ho, hn⟩⟩

instance (l : Location) (sites : Sites) (fs : Files) (statements : List Language.Statement) :
    Decidable (l.Fits sites fs statements) := decidable_of_iff' _ Location.fits_iff

namespace Session

/-- Whether a session opens a catalog that models a database in order, and a new session would open it, too. -/
structure Opens (l : Location) (sites : Sites) (d : Database) (s : Session) (fs : Files) (c : Catalog)
    (fs' : Files) : Prop where
  location : s.location = l
  opened : opened.apply s fs = (.ok c, { s with catalog := some c }, fs')
  reopened : ∃ c', Session.opened.apply ⟨l, none⟩ fs = (.ok c', ⟨l, some c'⟩, fs') ∧
    Models l sites.shared c' fs' d.dormant
  models : Models l sites c fs' d
  sound : d.Sound l sites
  coherent : d.description.Coherent

variable {l : Location} {sites : Sites} {s : Session} {c : Catalog} {fs fs' : Files} {d d' : Database}
  {statement : Language.Statement} {statements : List Language.Statement}

/-! ## The first statement -/

theorem fresh_description (h : d.Fresh) :
    d.description = ⟨Schema.names, Models.ownColumns Schema.names, []⟩ := by
  rw [Database.description, h.tables, h.columns, h.indices]
  rfl

theorem fresh_describesItself (h : d.Fresh) : d.description.DescribesItself := by
  rw [fresh_description h, Description.DescribesItself]
  decide

theorem fresh_coherent (h : d.Fresh) : d.description.Coherent := by
  rw [fresh_description h]
  have hother : ∀ t, t ∉ Schema.names →
      (⟨Schema.names, Models.ownColumns Schema.names, []⟩ : Description).columnsOf t = [] := by
    intro t hn
    refine List.filter_eq_nil_iff.2 fun e he hc => hn ?_
    obtain ⟨name, hname, he⟩ := List.mem_flatMap.1 he
    obtain ⟨column, -, rfl⟩ := List.mem_map.1 he
    rw [← of_decide_eq_true hc]
    exact hname
  have hown : ∀ t ∈ Schema.names,
      ((⟨Schema.names, Models.ownColumns Schema.names, []⟩ : Description).columnsOf t).map ColumnEntry.name ≠ [] ∧
      (((⟨Schema.names, Models.ownColumns Schema.names, []⟩ : Description).columnsOf t).map
        ColumnEntry.name).Nodup := by decide
  exact {
    tables_nodup := by decide
    own := fun _ hn => hn
    column_table := fun e he => by
      obtain ⟨name, hname, he⟩ := List.mem_flatMap.1 he
      obtain ⟨column, -, rfl⟩ := List.mem_map.1 he
      exact hname
    columns_ne_nil := fun t ht hnil => (hown t ht).1 (congrArg (List.map _) hnil)
    columns_nodup := fun t => by
      by_cases hn : t ∈ Schema.names
      · exact (hown t hn).2
      · rw [hother t hn]
        exact List.nodup_nil
    index_table := fun _ he => absurd he List.not_mem_nil
    index_column := fun _ he => absurd he List.not_mem_nil
    parts := fun _ _ => ⟨[], .btree, List.nodup_nil, rfl⟩ }

theorem opened_of_setUp (h : Catalog.setUp.apply (.blank l) fs = (.ok (), c, fs')) :
    opened.apply ⟨l, none⟩ fs = (.ok c, ⟨l, some c⟩, fs') := by
  rw [apply, opened]
  dsimp only
  rw [h]

/-- Where a database can begin, a session begins with one that has nothing but its own description. -/
theorem opens_of_suits (h : l.Suits sites fs) (hs : ∀ name ∈ Schema.names, .relation name ∈ sites) :
    ∃ d c fs', Opens l sites d ⟨l, none⟩ fs c fs' ∧ d.Fresh := by
  obtain ⟨c, fs', d, hx, hm, hd⟩ := Models.setUp h hs
  have hopened := opened_of_setUp hx
  have hdormant : Models l sites.shared c fs' d.dormant := by
    rw [hd.dormant]
    exact hm.shared
  exact ⟨d, c, fs', ⟨rfl, hopened, ⟨c, hopened, hdormant⟩, hm, hd.sound, fresh_coherent hd⟩, hd⟩

/-! ## One more statement -/

theorem opened_some (s : Session) (c : Catalog) (fs : Files) :
    opened.apply { s with catalog := some c } fs = (.ok c, { s with catalog := some c }, fs) := rfl

/-- What is read of a session that opens is read of its catalog. -/
theorem apply_onCatalog {α : Type} (h : opened.apply s fs = (.ok c, { s with catalog := some c }, fs'))
    (x : Act StorageError Catalog α) : (onCatalog x).apply s fs =
      ((x.apply c fs').1, { s with catalog := some (x.apply c fs').2.1 }, (x.apply c fs').2.2) := by
  rw [onCatalog]
  exact apply_bind_ok (x := monadLift opened) h _

theorem apply_execute (h : opened.apply s fs = (.ok c, { s with catalog := some c }, fs'))
    (statement : Language.Statement) : (execute statement).apply s fs = (((carryOut statement).apply c fs').1,
      { s with catalog := some ((carryOut statement).apply c fs').2.1 },
      ((carryOut statement).apply c fs').2.2) := by
  have hopened : (opened.adapt Refusal.storage).apply s fs = (.ok c, { s with catalog := some c }, fs') := by
    rw [apply_adapt, h]
    rfl
  rw [execute, onCatalog]
  exact apply_bind_ok hopened _

/-- A session that has a catalog of a database in order opens it as it is. -/
theorem opens_of_models (hl : s.location = l) (hm : Models l sites c fs d) (hd : d.Sound l sites)
    (hc : d.description.Coherent) : Opens l sites d { s with catalog := some c } fs c fs where
  location := hl
  opened := opened_some s c fs
  reopened := (hm.setUp_again hd.regular).imp fun _ ⟨hx, h⟩ => ⟨opened_of_setUp hx, h⟩
  models := hm
  sound := hd
  coherent := hc

/-- A statement leaves a database in order: it does what it is for, or fails and leaves the database as it
was. -/
theorem Opens.execute (h : Opens l sites d s fs c fs') (hs : ∀ site ∈ statement.sites, site ∈ sites) :
    ∃ res c₁ fs₁ d₁, (execute statement).apply s fs = (res, { s with catalog := some c₁ }, fs₁) ∧
      Opens l sites d₁ { s with catalog := some c₁ } fs₁ c₁ fs₁ ∧
      ((∃ e, res = .error e) ∧ d.Same d₁ ∨ (∃ a, res = .ok a) ∧ d.Changes statement d₁) := by
  have happly := apply_execute h.opened statement
  cases settles_carryOut h.models h.sound hs with
  | @refused e c₁ fs₁ d₁ hp ha hm hd hsame =>
    rw [ha] at happly
    refine ⟨_, c₁, fs₁, d₁, happly, opens_of_models h.location hm hd ?_, .inl ⟨⟨e, rfl⟩, hsame⟩⟩
    rw [hsame.description]
    exact h.coherent
  | @done a c₁ fs₁ d₁ hp ha hm hd hchanges =>
    rw [ha] at happly
    exact ⟨_, c₁, fs₁, d₁, happly, opens_of_models h.location hm hd
      (h.coherent.step (hchanges.step h.models h.sound)), .inr ⟨⟨a, rfl⟩, hchanges⟩⟩

/-- After any number of statements the database is in order, and the files are as the session has left them, unless
it has not begun. What no step takes away from the catalog's description is still there. -/
theorem Opens.run_keeping {P : Description → Prop} (hP : ∀ D D', D.Coherent → D.Step D' → P D → P D') :
    ∀ (statements : List Language.Statement) {d : Database} {s : Session} {c : Catalog}
    {fs fs' : Files}, Opens l sites d s fs c fs' → d.Fresh ∨ fs' = fs → P d.description →
    (∀ s ∈ statements, ∀ site ∈ s.sites, site ∈ sites) →
    ∃ d₁ c₁ fs₁, Opens l sites d₁ (run statements (s, fs)).1 (run statements (s, fs)).2 c₁ fs₁ ∧
      (d₁.Fresh ∨ fs₁ = (run statements (s, fs)).2) ∧ P d₁.description
  | [], d, _, c, _, fs', h, hfs, hp, _ => ⟨d, c, fs', h, hfs, hp⟩
  | statement :: rest, d, s, c, fs, fs', h, _, hp, hs => by
    obtain ⟨res, c₁, fs₁, d₁, hx, h₁, hres⟩ := h.execute (hs statement (.head _))
    have hp₁ : P d₁.description := by
      rcases hres with ⟨-, hsame⟩ | ⟨-, hchanges⟩
      · rw [hsame.description]
        exact hp
      · exact hP _ _ h.coherent (hchanges.step h.models h.sound) hp
    rw [Session.run, hx]
    exact Opens.run_keeping hP rest h₁ (.inr rfl) hp₁ fun s hm => hs s (.tail _ hm)

/-- The catalog goes on to say of its own tables which columns they have. -/
theorem opens_run_own (h : l.Fits sites fs statements) : ∃ d c fs',
    Opens l sites d (run statements (⟨l, none⟩, fs)).1 (run statements (⟨l, none⟩, fs)).2 c fs' ∧
      (d.Fresh ∨ fs' = (run statements (⟨l, none⟩, fs)).2) ∧ d.description.DescribesItself := by
  obtain ⟨d, c, fs', hopens, hfresh⟩ := opens_of_suits h.suits h.own
  exact hopens.run_keeping (fun _ _ hc hs hp => hp.step hc hs) statements (.inl hfresh)
    (fresh_describesItself hfresh) h.named

theorem opens_run_settled (h : l.Fits sites fs statements) : ∃ d c fs',
    Opens l sites d (run statements (⟨l, none⟩, fs)).1 (run statements (⟨l, none⟩, fs)).2 c fs' ∧
      (d.Fresh ∨ fs' = (run statements (⟨l, none⟩, fs)).2) := by
  obtain ⟨d, c, fs', hopens, hfs, -⟩ := opens_run_own h
  exact ⟨d, c, fs', hopens, hfs⟩

theorem opens_run (h : l.Fits sites fs statements) : ∃ d c fs',
    Opens l sites d (run statements (⟨l, none⟩, fs)).1 (run statements (⟨l, none⟩, fs)).2 c fs' := by
  obtain ⟨d, c, fs', hopens, -⟩ := opens_run_settled h
  exact ⟨d, c, fs', hopens⟩

end Session

end Rowbase
