import Rowbase.Proofs.Session.Agreement

/-! # Indices that are not made

CREATE INDEX takes back what it did if it fails, whichever files the indices may share. It leaves an index
behind only where the file system refuses to remove what may be at the index's path. -/
namespace Rowbase

open Act Database

namespace Session

variable {l : Location} {sites : Sites} {s s' : Session} {c c' : Catalog} {fs fs' fs₁ fs₁' before : Files}
  {d d' : Database} {t i : String} {columns : List String} {kind : Language.IndexKind}
  {statements : List Language.Statement} {e : Refusal}

/-- A session opens a database in order whether or not indices may share files. -/
theorem Opens.shared (h : Opens l sites d s fs c fs') : Opens l sites.shared d s fs c fs' where
  location := h.location
  opened := h.opened
  reopened := h.reopened
  models := h.models.shared
  sound := {
    regular := { h.sound.regular with
      stands := fun t i ix hx => (h.sound.regular.stands t i ix hx).imp fun _ ⟨hc, hs⟩ => ⟨hc, { hs with }⟩ }
    exact := h.sound.exact }
  coherent := h.coherent

/-- Whether the rows that go in, the rows that can be found and deleted, and the tables that can be dropped in one
state are so in another. -/
structure Permits (state state' : Session × Files) : Prop where
  insert : ∀ t names values, (execute (.insert t names values)).Succeeds state.1 state.2 →
    (execute (.insert t names values)).Succeeds state'.1 state'.2
  delete : ∀ t condition, (execute (.delete t condition)).Succeeds state.1 state.2 →
    (execute (.delete t condition)).Succeeds state'.1 state'.2
  dropTable : ∀ t, (execute (.dropTable t)).Succeeds state.1 state.2 →
    (execute (.dropTable t)).Succeeds state'.1 state'.2

/-- Sessions with databases that cannot be told from each other permit the same. -/
theorem Opens.permits (h : Opens l sites d s fs c fs₁) (h' : Opens l sites d' s' fs' c' fs₁')
    (hsame : d.Same d') : Permits (s, fs) (s', fs') where
  insert t names values hok := by
    obtain ⟨row, htakes⟩ :=
      (h.succeeds_iff (.insert t names values) (settles_insert h.models h.sound)).1 hok
    exact (h'.succeeds_iff (.insert t names values) (settles_insert h'.models h'.sound)).2
      ⟨row, hsame.takes h.sound h'.sound htakes⟩
  delete t condition hok := by
    obtain ⟨hs, hfinds⟩ := (h.succeeds_iff (.delete t condition) (settles_delete h.models h.sound)).1 hok
    exact (h'.succeeds_iff (.delete t condition) (settles_delete h'.models h'.sound)).2
      ⟨hs, hsame.finds h'.models h.sound h'.sound hfinds⟩
  dropTable t hok := by
    have ht := (h.succeeds_iff (.dropTable t) (settles_dropTable h.models h.sound t)).1 hok
    exact (h'.succeeds_iff (.dropTable t) (settles_dropTable h'.models h'.sound t)).2 fun hn =>
      ht ((hsame.table_eq_none t).1 hn)

/-- After any run a CREATE INDEX that is refused leaves no trace, where the file system does not refuse the name of
the index's file: all tables stay as they can be seen, the catalog's own among them, and what could be inserted,
deleted or dropped before still can be. -/
theorem createIndex_refused_run (h : l.Fits sites before statements)
    (hrun : run statements (⟨l, none⟩, before) = (s, fs))
    (hx : (execute (.createIndex i t columns kind)).apply s fs = (.error e, s', fs'))
    (hname : ¬ fs.Refuses (l.indexPath t i)) :
    Legible (s, fs) ∧ (∀ u, AgreeOn u (s, fs) (s', fs')) ∧ Permits (s, fs) (s', fs') := by
  obtain ⟨d, c, fs₁, hopens, hfs⟩ := opens_run_settled h
  rw [hrun] at hopens hfs
  have hshared := hopens.shared
  have happly := apply_execute hopens.opened (.createIndex i t columns kind)
  rw [hx] at happly
  cases hshared.models.createIndex hshared.sound (fun hexclusive => nomatch hexclusive) columns kind with
  | @refused _ c₁ fs₂ d₁ ha hm hd hsame =>
    have hcoherent : d₁.description.Coherent := by
      rw [hsame.description]
      exact hopens.coherent
    have h₁ := opens_of_models hopens.location hm hd hcoherent
    rw [show (carryOut (.createIndex i t columns kind)).apply c fs₁ = _ from ha] at happly
    cases happly
    exact ⟨hopens.legible.1, fun u => hshared.agreeOn h₁ (hsame.at u), hshared.permits h₁ hsame⟩
  | stuck ha hb hr =>
    -- where nothing has been done yet there is no table to make an index for
    rcases hfs with hfresh | rfl
    · obtain ⟨⟨ct, hc, -⟩, -⟩ := hb
      rw [hfresh.table] at hc
      cases hc
    · exact absurd hr hname
  | made ha =>
    rw [show (carryOut (.createIndex i t columns kind)).apply c fs₁ = _ from ha] at happly
    cases happly

/-! ## A unique index over rows of one key -/

/-- Statements that make a table with two equal rows. -/
def doubled : List Language.Statement :=
  [.createTable "t" [⟨"a", .integer, false⟩] false, .insert "t" none [.literal (.integer 1)],
    .insert "t" none [.literal (.integer 1)]]

/-- The statement that makes a unique index for them. -/
def single : Language.Statement := .createIndex "i" "t" ["a"] .btree

theorem fits_doubled : Location.Fits {} (.of (doubled ++ [single])) (.fresh ["home"]) doubled := by
  decide +kernel

theorem opens_doubled : ∃ d s fs c ct, run doubled (⟨{}, none⟩, .fresh ["home"]) = (s, fs) ∧
    Opens {} (.of (doubled ++ [single])) d s fs c fs ∧ d.table "t" = some ct ∧
    ∃ h h', ct.rows.live = [(h, .ofList [("a", .integer 1)]), (h', .ofList [("a", .integer 1)])] := by
  have hdesc : Schema.Describes "t" [⟨"a", { kind := .int }⟩] :=
    ⟨by decide +kernel, by decide +kernel, List.cons_ne_nil _ _⟩
  have hstorable : Catalog.storableColumns [] [⟨"a", .integer, false⟩] = .ok [⟨"a", { kind := .int }⟩] := rfl
  obtain ⟨s₁, fs₁, c₁, d₁, hx₁, h₁, hc₁, hindices₁, -⟩ := createTable_first fits_doubled.suits fits_doubled.own
    (by decide +kernel) (by decide) hstorable hdesc false
  have hnames₁ : d₁.indexNames "t" = [] := by
    rw [indexNames, hindices₁]
    exact List.mergeSort_nil
  -- without indices every row goes in that makes a record
  have hnone : ∀ {d : Database}, d₁.Like d → ∀ i ∈ d.indexNames "t", ∀ ix, d.index "t" i = some ix →
      ix.Admits (Row.filled [⟨"a", { kind := .int }⟩] (.ofList [("a", .integer 1)])) := by
    intro d hlike i hi
    rw [hlike.indexNames, hnames₁] at hi
    exact absurd hi List.not_mem_nil
  obtain ⟨s₂, fs₂, c₂, d₂, hx₂, h₂, ct₁, handle₁, hct₁, hlike₂, hlive₂⟩ := h₁.insert
    (⟨_, hc₁, rfl, ⟨_, rfl⟩, hnone (.refl d₁)⟩ :
      d₁.Takes "t" none [.literal (.integer 1)] (.ofList [("a", .integer 1)]))
  rw [hc₁] at hct₁
  cases hct₁
  obtain ⟨⟨_, rows₂⟩, hc₂, rfl⟩ := hlike₂.table_some hc₁
  obtain ⟨s₃, fs₃, c₃, d₃, hx₃, h₃, ct₂, handle₂, hct₂, hlike₃, hlive₃⟩ := h₂.insert
    (⟨_, hc₂, rfl, ⟨_, rfl⟩, hnone hlike₂⟩ : d₂.Takes "t" none [.literal (.integer 1)] (.ofList [("a", .integer 1)]))
  rw [hc₂] at hct₂
  cases hct₂
  obtain ⟨ct₃, hc₃, -⟩ := hlike₃.table_some hc₂
  refine ⟨d₃, s₃, fs₃, c₃, ct₃, ?_, h₃, hc₃, handle₁, handle₂, ?_⟩
  · rw [doubled, run, hx₁, run, hx₂, run, hx₃, run]
  · rw [← live_of_table hc₃, hlive₃, if_pos rfl, hlive₂, if_pos rfl, live_of_table hc₁]
    rfl

/-- A unique index is refused for them. -/
theorem single_refused : ∃ s fs e s' fs', run doubled (⟨{}, none⟩, .fresh ["home"]) = (s, fs) ∧
    (execute single).apply s fs = (.error e, s', fs') ∧ ¬ fs.Refuses (Location.indexPath {} "t" "i") := by
  obtain ⟨d, s, fs, c, ct, hrun, hopens, hc, h, h', hrows⟩ := opens_doubled
  have hsite : .index "t" "i" ∈ Sites.of (doubled ++ [single]) := by decide
  have hrefuses : ¬ fs.Refuses (Location.indexPath {} "t" "i") := fun ⟨_, hne, hr⟩ =>
    hne (hopens.models.apart.remove_error hsite hr)
  have hsites : ∀ site ∈ single.sites, site ∈ Sites.of (doubled ++ [single]) := fun _ hm =>
    List.mem_singleton.1 hm ▸ hsite
  obtain ⟨res, c₁, fs₁, d₁, hx, h₁, ⟨⟨e, rfl⟩, -⟩ | ⟨-, ⟨-, hnil, -⟩, new, ix, rfl, -, hnew⟩⟩ :=
    hopens.execute hsites
  · exact ⟨s, fs, e, _, fs₁, hrun, hx, hrefuses⟩
  · -- the index would have both rows under one key
    have hix : (d.withIndex "t" "i" new (some ix)).index "t" "i" = some ix :=
      (index_withIndex d "t" "i" new (some ix) "t" "i").trans (if_pos ⟨rfl, rfl⟩)
    obtain ⟨_, -, hstands⟩ := h₁.sound.regular.stands "t" "i" ix hix
    obtain ⟨hcolumns, hunique⟩ := Prod.mk.inj (hstands.definition.symm.trans
      (definition_withIndex hnil (List.cons_ne_nil "a" []) (by decide) hnew (some ix)))
    have hexact : ix.Exact ct.rows.live := h₁.sound.exact_of_table hc hix
    have hascending := (hopens.models.ascending (hopens.sound.regular.content_eq hc)).live
    have hkey : ix.keyOf (.ofList [("a", .integer 1)]) = .ok [.integer 1] := by
      rw [Index.keyOf, hcolumns]
      rfl
    rw [hrows] at hexact hascending
    have hsame := (hexact.mirrors hascending).distinct hunique _ (.head _) _ (.tail _ (.head _)) [.integer 1]
      hkey hkey rfl
    exact absurd (Prod.mk.inj hsame).1 (List.pairwise_cons.1 hascending |>.1 h' (.head _)).ne

theorem createIndex_refused_run_doubled : ∃ s fs e s' fs',
    Location.Fits {} (.of (doubled ++ [single])) (.fresh ["home"]) doubled ∧
    run doubled (⟨{}, none⟩, .fresh ["home"]) = (s, fs) ∧ (execute single).apply s fs = (.error e, s', fs') ∧
    ¬ fs.Refuses (Location.indexPath {} "t" "i") ∧
    Legible (s, fs) ∧ (∀ u, AgreeOn u (s, fs) (s', fs')) ∧ Permits (s, fs) (s', fs') := by
  obtain ⟨s, fs, e, s', fs', hrun, hx, hname⟩ := single_refused
  exact ⟨s, fs, e, s', fs', fits_doubled, hrun, hx, hname, createIndex_refused_run fits_doubled hrun hx hname⟩

end Session

end Rowbase
