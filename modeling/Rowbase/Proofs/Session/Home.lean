import Rowbase.Proofs.Frame.Statements

/-! # Databases that stay in their directory

As long as no table and no index has a name with a slash in it, a database stays in its directory: every file that a
statement makes, changes or removes is an entry of the directory. -/
namespace Rowbase.Session

open Act Database
open Catalog (AtHome Holds Ordinary)
open Files (Slashless Linkless Clear)

variable {l : Location} {own : Nat → Prop} {s s' : Session} {before fs fs' g : Files} {c : Catalog} {d : Database}
  {t : String} {statements : List Language.Statement} {statement : Language.Statement}
  {res : Except Refusal Answer}

/-- Whether a session opens a catalog that is at home in the directory of the database, and changes files there only. -/
structure Dwells (l : Location) (s : Session) (fs : Files) (c : Catalog) (g : Files) : Prop where
  opened : opened.apply s fs = (.ok c, { s with catalog := some c }, g)
  home : ∃ own, AtHome (l.Houses g) Slashless l own g c g
  files : ∀ names, ¬ l.Houses g names → g.fileAt? names = fs.fileAt? names

/-- A catalog that is at home in the directory can be told to have begun there just now. -/
theorem atHome_rebase {k : Files} (h : AtHome (l.Houses k) Slashless l own k c fs) :
    AtHome (l.Houses fs) Slashless l own fs c fs ∧
      ∀ names, ¬ l.Houses fs names → fs.fileAt? names = k.fileAt? names := by
  obtain ⟨d, hd, h⟩ := h
  have hhouses : l.Houses fs = l.Houses k := funext fun _ => propext h.placed.within.houses_iff
  rw [hhouses]
  exact ⟨⟨d, hd, h.rebase⟩, fun _ => h.placed.within.fileAt?_eq⟩

/-- A statement without such names changes files in the directory only. -/
theorem Dwells.execute (h : Dwells l s fs c g) (hnamed : ∀ name ∈ statement.named, Slashless name) : ∃ res c₁ fs₁,
    (execute statement).apply s fs = (res, { s with catalog := some c₁ }, fs₁) ∧
      Dwells l { s with catalog := some c₁ } fs₁ c₁ fs₁ ∧
      ∀ names, ¬ l.Houses fs₁ names → fs₁.fileAt? names = fs.fileAt? names := by
  obtain ⟨own, hhome⟩ := h.home
  have hleft := Catalog.preserves_carryOut hnamed c g hhome
  have hhouses : ∀ names, l.Houses ((carryOut statement).apply c g).2.2 names ↔ l.Houses g names := by
    obtain ⟨d, -, hb⟩ := hleft
    exact fun _ => hb.placed.within.houses_iff
  obtain ⟨hleft, hfiles⟩ := atHome_rebase hleft
  refine ⟨_, _, _, apply_execute h.opened statement, ⟨opened_some s _ _, ⟨own, hleft⟩, fun _ _ => rfl⟩,
    fun names hn => (hfiles names hn).trans (h.files names ?_)⟩
  rwa [← hhouses]

theorem slashless_own {name : String} (hn : name ∈ Schema.names) : Slashless name := by
  rcases Schema.mem_names.1 hn with rfl | rfl | rfl <;> decide

/-- A table with such a name leads to no own file. -/
theorem clear_of_slashless (h : Holds l own c fs d) (ht : Ordinary Slashless t) : Clear own fs (l.relationPath t) where
  made := h.made
  misses id hid hf := by
    obtain ⟨name, hn, hf'⟩ := (h.owned id).1 hid
    obtain ⟨names, hl, hnode⟩ := Files.find_eq_ok.1 hf
    obtain ⟨names', hl', hnode'⟩ := Files.find_eq_ok.1 hf'
    cases h.sole id hid names names' hnode hnode'
    exact ht.2 (Files.eq_of_locate (slashless_own hn) ht.1 hl' hl ▸ hn)

/-- Where a database can begin, a session begins in the directory. -/
theorem dwells_of_suits (hlinkless : before.Linkless) (h : l.Suits Schema.sites before) :
    ∃ c g, Dwells l ⟨l, none⟩ before c g := by
  obtain ⟨c, g, d, own, hx, hholds, hfresh, hu, -⟩ := Catalog.holds_of_suits h hlinkless
  have hkeeps := Files.keepsFiles_makeDirectories before l.directory
  generalize hmade : (before.makeDirectories l.directory).2 = made at hkeeps
  have hblank : (Catalog.blank l).Placed (l.Houses made) (Site.Named Slashless) l made made :=
    Catalog.placed_blank (hkeeps.linkless hlinkless)
      (fun _ hn => Files.leads_houses (s := .relation _) (slashless_own hn)) fun _ => Files.leads_houses
  have hplaced := Catalog.placed_setUp (hmade ▸ Catalog.apply_makeDirectory h.directory) hblank
  rw [hx] at hplaced
  have hnames : d.Names Slashless := fun e he => by
    rw [hfresh.indices] at he
    exact absurd he List.not_mem_nil
  have hentries := Catalog.matches_of_unused (U := Ordinary Slashless) hholds hholds hu hu (.refl g) rfl
    fun _ ht => clear_of_slashless hholds ht
  obtain ⟨hhome, hfiles⟩ := atHome_rebase ⟨d, hnames, hplaced, hentries⟩
  exact ⟨c, g, opened_of_setUp hx, ⟨own, hhome⟩, fun names hn => (hfiles names hn).trans (hkeeps.fileAt?_eq names)⟩

/-- Any number of such statements leaves a session in the directory. -/
theorem Dwells.run : ∀ {statements : List Language.Statement} {s : Session} {fs : Files} {c : Catalog} {g : Files},
    Dwells l s fs c g → (∀ st ∈ statements, ∀ name ∈ st.named, Slashless name) →
      ∃ c₁ g₁, Dwells l (Session.run statements (s, fs)).1 (Session.run statements (s, fs)).2 c₁ g₁
  | [], _, _, c, g, h, _ => ⟨c, g, h⟩
  | statement :: rest, s, fs, _, _, h, hnamed => by
    obtain ⟨res, c₁, fs₁, hx, h₁, -⟩ := h.execute (hnamed statement (.head _))
    rw [Session.run, hx]
    exact h₁.run fun st hm => hnamed st (.tail _ hm)

/-- After any run in which no name has a slash in it, every file that one more such statement makes, changes or removes
is an entry of the directory of the database. -/
theorem housed_run (hlinkless : before.Linkless) (hsuits : l.Suits Schema.sites before)
    (hrun : run statements (⟨l, none⟩, before) = (s, fs))
    (hnamed : ∀ st ∈ statements ++ [statement], ∀ name ∈ st.named, Slashless name)
    (hx : (execute statement).apply s fs = (res, s', fs')) :
    ∀ names, fs'.fileAt? names ≠ fs.fileAt? names → l.Houses fs' names := by
  obtain ⟨c, g, hbegun⟩ := dwells_of_suits hlinkless hsuits
  obtain ⟨c₁, g₁, h⟩ := hbegun.run fun st hm => hnamed st (List.mem_append_left _ hm)
  rw [hrun] at h
  obtain ⟨res, c₂, fs₂, hexecute, -, hfiles⟩ := h.execute (hnamed statement (List.mem_append_right _ (.head _)))
  cases hx.symm.trans hexecute
  exact fun names hne => by_contra fun hn => hne (hfiles names hn)

/-- Statements that make a table and an index whose names lead upwards and nowhere when they stand alone. -/
def dotted : List Language.Statement := [.createTable ".." [⟨"a", .integer, false⟩] false]

theorem housed_run_dotted : ∃ s fs res s' fs', run dotted (⟨{}, none⟩, .fresh ["home"]) = (s, fs) ∧
    (execute (.createIndex "." ".." ["a"] .btree)).apply s fs = (res, s', fs') ∧
    ∀ names, fs'.fileAt? names ≠ fs.fileAt? names → Location.Houses {} fs' names := by
  have hsuits : Location.Suits {} Schema.sites (.fresh ["home"]) := by decide +kernel
  have hnamed : ∀ st ∈ dotted ++ [.createIndex "." ".." ["a"] .btree], ∀ name ∈ st.named, Slashless name := by decide
  rcases hrun : run dotted (⟨{}, none⟩, .fresh ["home"]) with ⟨s, fs⟩
  rcases hx : (execute (.createIndex "." ".." ["a"] .btree)).apply s fs with ⟨res, s', fs'⟩
  exact ⟨s, fs, res, s', fs', rfl, hx, housed_run (Files.linkless_fresh ["home"]) hsuits hrun hnamed hx⟩

end Rowbase.Session
