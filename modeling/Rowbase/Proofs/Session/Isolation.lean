import Rowbase.Proofs.Session.Entries

/-! # Tables apart

A statement writes one table at most. Where no two indices share a file, every other table stays as it is,
with its rows, its indices and their files, whether the statement succeeds or fails. -/
namespace Rowbase

open Act Database

/-- The table that a statement may write. -/
def Language.Statement.writes : Language.Statement → Option String
  | .insert t _ _ | .delete t _ | .createTable t _ _ | .dropTable t | .createIndex _ t _ _ | .dropIndex _ t =>
    some t
  | _ => none

namespace Database

variable {l : Location} {sites : Sites} {c : Catalog} {fs : Files} {d d' : Database} {t i u : String}

/-- The entries about an index are those about it among the entries about its table. -/
theorem indexEntries_eq_filter (d : Database) (t i : String) : d.indexEntries t i =
    (d.indices.live.filter fun e => e.2.table = t).filter fun e => e.2.index = i := by
  rw [List.filter_filter, indexEntries]
  refine List.filter_congr fun e _ => ?_
  rw [Bool.and_comm, ← Bool.decide_and]

/-- A table stays the same with the entries about it, its rows and its indices. -/
theorem sameAt_of_eq (hn : u ∉ Schema.names) (hcolumns : d'.columnsOf u = d.columnsOf u)
    (hindices : (d'.indices.live.filter fun e => e.2.table = u) = d.indices.live.filter fun e => e.2.table = u)
    (htable : d'.table u = d.table u) (hindex : ∀ i, d'.index u i = d.index u i) : d.SameAt d' u where
  columnsOf := hcolumns
  indexNames := by rw [indexNames, hindices, indexNames]
  definition i := by
    rw [Database.definition, indexEntries_eq_filter, hindices, ← indexEntries_eq_filter, Database.definition]
  rows := by rw [live, htable, live]
  content := by
    rw [content_of_not_mem hn, content_of_not_mem hn, htable]
    cases hc : d.table u with
    | none => exact .inl ⟨rfl, rfl⟩
    | some ct => exact .inr ⟨ct, ct, rfl, rfl, rfl, rfl⟩
  index i := by
    rw [hindex]
    cases hx : d.index u i with
    | none => exact .inl ⟨rfl, rfl⟩
    | some ix => exact .inr ⟨ix, ix, rfl, rfl, .refl ix⟩

theorem sameAt_withTable {columns : List Column} {handle : Handle} {added : List (Handle × ColumnEntry)}
    (hn : u ∉ Schema.names) (hne : u ≠ t) (hadded : ∀ e ∈ added, e.2.table = t) :
    d.SameAt (d.withTable t columns handle added) u :=
  sameAt_of_eq hn (by rw [columnsOf_append hadded rfl, if_neg hne]) rfl
    (by rw [table_withTable, if_neg hne]) fun _ => rfl

theorem sameAt_withIndex {new : List (Handle × IndexEntry)} {o : Option Index} (hn : u ∉ Schema.names)
    (hne : u ≠ t) (hnew : ∀ e ∈ new, e.2.table = t ∧ e.2.index = i) : d.SameAt (d.withIndex t i new o) u := by
  refine sameAt_of_eq hn rfl ?_ rfl fun j => by rw [index_withIndex, if_neg fun h => hne h.1]
  have hnone : new.filter (fun e => decide (e.2.table = u)) = [] :=
    List.filter_eq_nil_iff.2 fun e hm hc => hne ((of_decide_eq_true hc).symm.trans (hnew e hm).1)
  change List.filter _ (Tape.live (d.indices ++ Tape.ofLive new)) = _
  rw [Tape.live_append, Tape.live_ofLive, List.filter_append, hnone, List.append_nil]

/-- The entries about the indices of other tables stay. -/
theorem filter_withoutIndices (ha : d.indices.Ascending) (names : List String) (hne : u ≠ t) :
    ((d.withoutIndices t names).indices.live.filter fun e => e.2.table = u) =
      d.indices.live.filter fun e => e.2.table = u := by
  rw [live_withoutIndices t names d ha, List.filter_filter]
  refine List.filter_congr fun e _ => ?_
  by_cases he : e.2.table = u
  · simp [he, hne]
  · simp [he]

theorem sameAt_withoutIndex (ha : d.indices.Ascending) (hn : u ∉ Schema.names) (hne : u ≠ t) :
    d.SameAt (d.withoutIndex t i) u :=
  sameAt_of_eq hn rfl (filter_withoutIndices ha [i] hne) rfl fun j => by
    rw [index_withoutIndex, if_neg fun h => hne h.1]

theorem sameAt_withoutTable (hc : d.columns.Ascending) (ha : d.indices.Ascending) (names : List String)
    (hn : u ∉ Schema.names) (hne : u ≠ t) : d.SameAt ((d.withoutIndices t names).withoutTable t) u := by
  obtain ⟨-, hcolumns, htable⟩ := table_withoutIndices t names d
  refine sameAt_of_eq hn ?_ (filter_withoutIndices ha names hne) ?_ fun j => ?_
  · rw [columnsOf_withoutTable (by rwa [hcolumns]), if_neg hne, columnsOf, columnEntries, hcolumns, columnsOf,
      columnEntries]
  · rw [table_withoutTable, if_neg hne, htable]
  · change (d.withoutIndices t names).index u j = _
    rw [index_withoutIndices, if_neg fun h => hne h.1]

/-- What a statement does to a database leaves the tables that it does not write as they are. -/
theorem Changes.sameAt {s : Language.Statement} (hc : d.Changes s d') (h : Models l sites c fs d)
    (hn : u ∉ Schema.names) (hw : s.writes ≠ some u) : d.SameAt d' u := by
  have hother : ∀ {t}, s.writes = some t → u ≠ t := by
    rintro t ht rfl
    exact hw ht
  cases s with
  | select | update | showTables | showColumns | showIndex => exact Same.at hc u
  | insert t names values =>
    obtain ⟨row, -, ct, handle, -, hlike, hlive⟩ := hc
    exact hlike.sameAt ((hlive u).trans (if_neg (hother rfl)))
  | delete t condition =>
    obtain ⟨-, -, hs, -, hlike, hlive⟩ := hc
    exact hlike.sameAt ((hlive u).trans (if_neg (hother rfl)))
  | createTable t declared ifNotExists =>
    rcases hc with ⟨-, rfl⟩ | ⟨-, columns, -, -, handle, added, hadded, rfl⟩
    · exact (Same.refl _).at u
    · refine sameAt_withTable hn (hother rfl) fun e he => ?_
      obtain ⟨column, -, hcolumn⟩ := List.mem_map.1 (hadded ▸ List.mem_map_of_mem he)
      rw [← hcolumn, ColumnEntry.about]
  | dropTable t =>
    obtain ⟨-, rfl⟩ := hc
    exact sameAt_withoutTable (Models.ascending_roll (roll_columns d) h) h.ascending_indices _ hn (hother rfl)
  | createIndex i t columns kind =>
    obtain ⟨-, new, ix, rfl, -, hnew⟩ := hc
    exact sameAt_withIndex hn (hother rfl) (about_of_atPlace hnew)
  | dropIndex i t =>
    obtain ⟨-, rfl⟩ := hc
    exact sameAt_withoutIndex h.ascending_indices hn (hother rfl)

end Database

namespace Session

variable {l : Location} {sites : Sites} {s s' : Session} {c c' : Catalog} {fs fs' fs₁ fs₁' : Files}
  {d d' : Database} {u : String} {statement : Language.Statement} {statements more : List Language.Statement}

/-- Whether a table is in one state as it was in another: sessions see the same of it and of all entries of its
indices, both those that run there and new ones, and its indices have the files that they had. -/
structure Untouched (l : Location) (u : String) (state state' : Session × Files) : Prop where
  running : AgreeWholly u state state'
  renewed : AgreeWholly u (⟨l, none⟩, state.2) (⟨l, none⟩, state'.2)
  files : ∃ names, sees state (Catalog.indexNames u) = .ok names ∧
    ∀ i ∈ names, ∃ bytes, state.2.read (l.indexPath u i) = .ok bytes ∧ state'.2.read (l.indexPath u i) = .ok bytes

/-- A table on which databases agree is untouched, where no two indices share a file. -/
theorem Opens.untouched (h : Opens l sites d s fs c fs₁) (h' : Opens l sites d' s' fs' c' fs₁')
    (hexclusive : sites.exclusive = true) (hfs : d.Fresh ∨ fs₁ = fs) (hfs' : d'.Fresh ∨ fs₁' = fs')
    (hs : d.SameAt d' u) : Untouched l u (s, fs) (s', fs') where
  running := h.agreeWholly h' hs
  renewed := h.agreeWholly_reopened h' hexclusive hs
  files := by
    refine ⟨d.indexNames u, (sees_of_opened h.opened _).trans (h.models.value_indexNames u), fun i hi => ?_⟩
    have hentries : d.indexEntries u i ≠ [] := mem_indexNames.1 hi
    have hentries' : d'.indexEntries u i ≠ [] := by
      rw [← hs.indexNames] at hi
      exact mem_indexNames.1 hi
    -- a database that lists an index has begun, so nothing is made when it is opened
    obtain rfl := hfs.resolve_left fun hfresh => hentries (hfresh.indexEntries_eq_nil u i)
    obtain rfl := hfs'.resolve_left fun hfresh => hentries' (hfresh.indexEntries_eq_nil u i)
    obtain ⟨ix, hx⟩ := h.sound.regular.exists_index hentries
    have hread := h.models.read_index h.sound.regular hexclusive hx
    have hsame := h.models.read_congr h'.models h.sound h'.sound hexclusive hs (mt definition_eq_nil.1 hentries)
    exact ⟨ix.document.bytes, hread, hsame.trans hread⟩

/-- A statement that does not write a table leaves a database that agrees on it, whether it succeeds or fails. -/
theorem Opens.sameAt_execute (h : Opens l sites d s fs c fs₁) (hs : ∀ site ∈ statement.sites, site ∈ sites)
    (hn : u ∉ Schema.names) (hw : statement.writes ≠ some u) :
    let state := ((Session.execute statement).apply s fs).2
    ∃ d' c', Opens l sites d' state.1 state.2 c' state.2 ∧ d.SameAt d' u := by
  obtain ⟨res, c', fs', d', hx, h', hends⟩ := h.execute hs
  rw [hx]
  refine ⟨d', c', h', ?_⟩
  rcases hends with ⟨-, hsame⟩ | ⟨-, hchanges⟩
  · exact hsame.at u
  · exact hchanges.sameAt h.models hn hw

/-- So do any number of such statements. -/
theorem Opens.sameAt_run (hn : u ∉ Schema.names) :
    ∀ (more : List Language.Statement) {d : Database} {s : Session} {c : Catalog} {fs fs₁ : Files},
      Opens l sites d s fs c fs₁ → d.Fresh ∨ fs₁ = fs → (∀ s ∈ more, ∀ site ∈ s.sites, site ∈ sites) →
      (∀ s ∈ more, s.writes ≠ some u) → ∃ d' c' fs',
        Opens l sites d' (Session.run more (s, fs)).1 (Session.run more (s, fs)).2 c' fs' ∧
          (d'.Fresh ∨ fs' = (Session.run more (s, fs)).2) ∧ d.SameAt d' u
  | [], d, _, c, _, fs₁, h, hfs, _, _ => ⟨d, c, fs₁, h, hfs, (Same.refl d).at u⟩
  | statement :: rest, _, _, _, _, _, h, _, hs, hw => by
    obtain ⟨d₁, c₁, h₁, hfirst⟩ := h.sameAt_execute (hs statement (.head _)) hn (hw statement (.head _))
    obtain ⟨d', c', fs', h', hfs', hrest⟩ := Opens.sameAt_run hn rest h₁ (.inr rfl)
      (fun s hm => hs s (.tail _ hm)) fun s hm => hw s (.tail _ hm)
    rw [Session.run]
    exact ⟨d', c', fs', h', hfs', hfirst.trans hrest⟩

theorem run_append (more : List Language.Statement) : ∀ (statements : List Language.Statement)
    (state : Session × Files), run (statements ++ more) state = run more (run statements state)
  | [], _ => rfl
  | _ :: statements, _ => run_append more statements _

/-- After any run, whatever statements on other tables follow and whether these succeed or fail: what can be seen
of a table and its indices stays, for the session that carries them out and for new ones, and so do the files of the
indices. -/
theorem untouched_run (h : l.Fits sites fs (statements ++ more)) (hexclusive : sites.exclusive = true)
    (hn : u ∉ Schema.names) (hw : ∀ s ∈ more, s.writes ≠ some u) :
    Legible (run statements (⟨l, none⟩, fs)) ∧
      Untouched l u (run statements (⟨l, none⟩, fs)) (run (statements ++ more) (⟨l, none⟩, fs)) := by
  have hfirst : l.Fits sites fs statements :=
    ⟨h.suits, h.own, fun s hm => h.named s (List.mem_append_left _ hm)⟩
  obtain ⟨d, c, fs', hopens, hfs⟩ := opens_run_settled hfirst
  obtain ⟨d₁, c₁, fs₁, hopens₁, hfs₁, hsame⟩ := hopens.sameAt_run hn more hfs
    (fun s hm => h.named s (List.mem_append_right _ hm)) hw
  rw [run_append]
  exact ⟨hopens.legible.1, hopens.untouched hopens₁ hexclusive hfs hfs₁ hsame⟩

/-- Statements on another table than the one with two indices: the second row is refused, and so is the second
index. -/
def elsewhere : List Language.Statement :=
  [.createTable "t-i" [⟨"c", .integer, false⟩] false, .createIndex "j" "t-i" ["c"] .btree,
    .insert "t-i" none [.literal (.integer 1)], .insert "t-i" none [.literal (.integer 1)],
    .createIndex "k" "t-i" ["d"] .hash, .delete "t-i" none, .dropTable "t-i"]

theorem untouched_run_elsewhere :
    Location.Fits {} (.of (taken ++ elsewhere)) (.fresh ["home"]) (taken ++ elsewhere) ∧
      (Sites.of (taken ++ elsewhere)).exclusive = true ∧ "t" ∉ Schema.names ∧
      (∀ s ∈ elsewhere, s.writes ≠ some "t") ∧ Legible (run taken (⟨{}, none⟩, .fresh ["home"])) ∧
      Untouched {} "t" (run taken (⟨{}, none⟩, .fresh ["home"]))
        (run (taken ++ elsewhere) (⟨{}, none⟩, .fresh ["home"])) := by
  have h : Location.Fits {} (.of (taken ++ elsewhere)) (.fresh ["home"]) (taken ++ elsewhere) := by
    decide +kernel
  have hw : ∀ s ∈ elsewhere, s.writes ≠ some "t" := by decide
  exact ⟨h, rfl, by decide, hw, untouched_run h rfl (by decide) hw⟩

end Session

end Rowbase
