import Rowbase.Proofs.Session.Accepting
import Rowbase.Proofs.Session.Grouping

/-! # What sessions see

Sessions see the columns, the rows and the indices of a table, and what is found in these. If databases agree
on a table, the sessions that have them see the same of it, and so do new sessions that find them in the files.
A statement that is refused is one that no session can see anything of. -/
namespace Rowbase

open Act Database

/-! ## Databases that agree on a table -/

theorem Database.SameAt.dormant {d d' : Database} {t : String} (h : d.SameAt d' t) :
    d.dormant.SameAt d'.dormant t where
  columnsOf := h.columnsOf
  indexNames := h.indexNames
  definition := h.definition
  rows := h.rows
  content := h.content
  index _ := .inl ⟨rfl, rfl⟩

namespace Models

variable {l : Location} {sites : Sites} {c c' : Catalog} {fs fs' : Files} {d d' : Database} {t i : String}

theorem value_rowsOf_none (h : Models l sites c fs d) (hd : d.Described) (hc : d.content t = none) :
    (Catalog.rowsOf t).value c fs = .error (.relation (.relationMissing t)) := h.value_keyedRows_none hd hc

theorem rowsOf_congr (h : Models l sites c fs d) (h' : Models l sites c' fs' d') (hd : d.Described)
    (hd' : d'.Described) (hs : d.SameAt d' t) :
    (Catalog.rowsOf t).value c' fs' = (Catalog.rowsOf t).value c fs := by
  rcases hs.content with ⟨hc, hc'⟩ | ⟨ct, ct', hc, hc', -, hl⟩
  · rw [h.value_rowsOf_none hd hc, h'.value_rowsOf_none hd' hc']
  · rw [h.value_rowsOf hd hc, h'.value_rowsOf hd' hc', hl]

/-- Where no two indices share a file, the file of an index depends on the rows of its table alone. -/
theorem read_congr (h : Models l sites c fs d) (h' : Models l sites c' fs' d') (hd : d.Sound l sites)
    (hd' : d'.Sound l sites) (hexclusive : sites.exclusive = true) (hs : d.SameAt d' t)
    (hdef : (d.definition t i).1 ≠ []) : fs'.read (l.indexPath t i) = fs.read (l.indexPath t i) := by
  have hentries : d.indexEntries t i ≠ [] := mt Database.definition_eq_nil.2 hdef
  obtain ⟨ix, hx⟩ := hd.regular.exists_index hentries
  rcases hs.index i with ⟨-, hnone⟩ | ⟨ix₁, ix', hx₁, hx', halike⟩
  · cases hx.symm.trans hnone
  · cases hx.symm.trans hx₁
    rw [h.read_index hd.regular hexclusive hx, h'.read_index hd'.regular hexclusive hx',
      (hd.exact t i ix hx).document_eq (hs.exact hd' hx') halike.name halike.columns halike.unique]

end Models

/-! ## Sessions -/

namespace Session

variable {l : Location} {sites : Sites} {s s' : Session} {c c' : Catalog} {fs fs' fs₁ fs₁' : Files}
  {d d' : Database} {t : String} {statements : List Language.Statement} {statement : Language.Statement} {e : Refusal}

/-- What a session gets from an act on its catalog. -/
def sees {α : Type} (state : Session × Files) (x : Act StorageError Catalog α) : Except StorageError α :=
  ((onCatalog x : Act StorageError Session α).apply state.1 state.2).1

theorem sees_of_opened (h : opened.apply s fs = (.ok c, { s with catalog := some c }, fs')) {α : Type}
    (x : Act StorageError Catalog α) : sees (s, fs) x = x.value c fs' := by
  rw [sees, apply_onCatalog h]
  rfl

/-- Whether sessions in two states see the same of a table: its columns, its rows, its indices, and what is found
in them under every key. -/
structure AgreeOn (t : String) (state state' : Session × Files) : Prop where
  columns : sees state' (Catalog.columnsOf t) = sees state (Catalog.columnsOf t)
  rows : sees state' (Catalog.rowsOf t) = sees state (Catalog.rowsOf t)
  indices : sees state' (Catalog.indexNames t) = sees state (Catalog.indexNames t)
  definition : ∀ i, sees state' (Catalog.indexDefinition t i) = sees state (Catalog.indexDefinition t i)
  found : ∀ i key, sees state' (Catalog.onIndex t i (Index.lookup key)) =
    sees state (Catalog.onIndex t i (Index.lookup key))

/-- Whether a session can read the rows of all tables that are listed. -/
def Legible (state : Session × Files) : Prop :=
  ∀ t, sees state (Catalog.tableExists t) = .ok true → ∃ rows, sees state (Catalog.rowsOf t) = .ok rows

theorem agreeOn_of_models (hx : opened.apply s fs = (.ok c, { s with catalog := some c }, fs₁))
    (hx' : opened.apply s' fs' = (.ok c', { s' with catalog := some c' }, fs₁')) (h : Models l sites c fs₁ d)
    (h' : Models l sites c' fs₁' d') (hd : d.Described) (hd' : d'.Described) (hs : d.SameAt d' t)
    (hfound : ∀ i key, (Catalog.onIndex t i (Index.lookup key)).value c' fs₁' =
      (Catalog.onIndex t i (Index.lookup key)).value c fs₁) : AgreeOn t (s, fs) (s', fs') where
  columns := by
    rw [sees_of_opened hx, sees_of_opened hx', h.value_columnsOf, h'.value_columnsOf, hs.columnsOf]
  rows := by
    rw [sees_of_opened hx, sees_of_opened hx']
    exact h.rowsOf_congr h' hd hd' hs
  indices := by
    rw [sees_of_opened hx, sees_of_opened hx', h.value_indexNames, h'.value_indexNames, hs.indexNames]
  definition i := by
    rw [sees_of_opened hx, sees_of_opened hx', h.value_indexDefinition, h'.value_indexDefinition, hs.definition]
  found i key := by
    rw [sees_of_opened hx, sees_of_opened hx']
    exact hfound i key

/-- Sessions whose databases agree on a table see the same of it. -/
theorem Opens.agreeOn (h : Opens l sites d s fs c fs₁) (h' : Opens l sites d' s' fs' c' fs₁')
    (hs : d.SameAt d' t) : AgreeOn t (s, fs) (s', fs') :=
  agreeOn_of_models h.opened h'.opened h.models h'.models h.sound.regular.toDescribed
    h'.sound.regular.toDescribed hs fun _ key => Plan.lookup_congr h.models h'.models h.sound h'.sound hs key

/-- Where no two indices share a file, new sessions that find such databases see the same, too. -/
theorem Opens.agreeOn_reopened (h : Opens l sites d s fs c fs₁) (h' : Opens l sites d' s' fs' c' fs₁')
    (hexclusive : sites.exclusive = true) (hs : d.SameAt d' t) : AgreeOn t (⟨l, none⟩, fs) (⟨l, none⟩, fs') := by
  obtain ⟨c₂, hx, hm⟩ := h.reopened
  obtain ⟨c₂', hx', hm'⟩ := h'.reopened
  exact agreeOn_of_models hx hx' hm hm' h.sound.regular.toDescribed.dormant
    h'.sound.regular.toDescribed.dormant hs.dormant fun i key =>
      hm.load_look_dormant_congr hm' (hs.definition i)
        (h.models.read_congr h'.models h.sound h'.sound hexclusive hs) _

theorem legible_of_models (hx : opened.apply s fs = (.ok c, { s with catalog := some c }, fs₁))
    (h : Models l sites c fs₁ d) (hd : d.Described)
    (hlisted : ∀ t, d.tableHandles t ≠ [] ↔ ∃ ct, d.content t = some ct) : Legible (s, fs) := by
  intro t ht
  rw [sees_of_opened hx, value_tableExists h] at ht
  obtain ⟨ct, hc⟩ := (hlisted t).1 fun hnil => by
    rw [hnil] at ht
    cases ht
  exact ⟨_, (sees_of_opened hx _).trans (h.value_rowsOf hd hc)⟩

theorem Opens.legible (h : Opens l sites d s fs c fs₁) : Legible (s, fs) ∧ Legible (⟨l, none⟩, fs) := by
  obtain ⟨c', hx, hm⟩ := h.reopened
  have hd := h.sound.regular
  exact ⟨legible_of_models h.opened h.models hd.toDescribed hd.listed_iff,
    legible_of_models hx hm hd.toDescribed.dormant hd.listed_iff⟩

/-! ## Statements that are refused -/

/-- A statement that is refused leaves a database that cannot be told from the one before. -/
theorem Opens.refused (h : Opens l sites d s fs c fs₁) (hs : ∀ site ∈ statement.sites, site ∈ sites)
    (hx : (Session.execute statement).apply s fs = (.error e, s', fs')) :
    ∃ d' c', Opens l sites d' s' fs' c' fs' ∧ d.Same d' := by
  obtain ⟨res, c', fs'', d', hx', h', ⟨-, hsame⟩ | ⟨⟨a, rfl⟩, -⟩⟩ := h.execute hs
  · rw [hx] at hx'
    cases hx'
    exact ⟨d', c', h', hsame⟩
  · rw [hx] at hx'
    cases hx'

/-- After any run an INSERT that is refused changes nothing that a session can see of any table: neither the one
that carried it out nor a new one. -/
theorem insert_refused_run {values : List Language.Expr} {names : Option (List String)}
    {before : Files} (h : l.Fits sites before statements) (hexclusive : sites.exclusive = true)
    (hrun : run statements (⟨l, none⟩, before) = (s, fs))
    (hx : (execute (.insert t names values)).apply s fs = (.error e, s', fs')) :
    Legible (s, fs) ∧ Legible (⟨l, none⟩, fs) ∧
      ∀ u, AgreeOn u (s, fs) (s', fs') ∧ AgreeOn u (⟨l, none⟩, fs) (⟨l, none⟩, fs') := by
  obtain ⟨d, c, fs₁, hopens⟩ := opens_run h
  rw [hrun] at hopens
  have hsites : ∀ site ∈ (Language.Statement.insert t names values).sites, site ∈ sites := nofun
  obtain ⟨d', c', hopens', hsame⟩ := hopens.refused hsites hx
  exact ⟨hopens.legible.1, hopens.legible.2, fun u => ⟨hopens.agreeOn hopens' (hsame.at u),
    hopens.agreeOn_reopened hopens' hexclusive (hsame.at u)⟩⟩

/-- A unique index refuses a second row with the key of the first. -/
theorem insert_refused_taken : ∃ s fs e s' fs', run taken (⟨{}, none⟩, .fresh ["home"]) = (s, fs) ∧
    (execute (.insert "t" none [.literal (.integer 1), .literal (.text "x")])).apply s fs = (.error e, s', fs') := by
  obtain ⟨d, s, fs, c, ct, handle, hrun, hopens, hc, hcols, hrows, -, hdef⟩ := opens_taken
  have hsites : ∀ site ∈ (Language.Statement.insert "t" none
      [.literal (.integer 1), .literal (.text "x")]).sites, site ∈ Sites.of taken := nofun
  obtain ⟨res, c₁, fs₁, d₁, hx, -, ⟨⟨e, rfl⟩, -⟩ | ⟨-, row, ⟨ct', hc', hgiven, -, hroom⟩, -⟩⟩ :=
    hopens.execute hsites
  · exact ⟨s, fs, e, _, fs₁, hrun, hx⟩
  · rw [hc] at hc'
    cases hc'
    rw [hcols] at hgiven hroom
    cases hgiven
    -- the index has the key of the row that is there
    have hentries : d.indexEntries "t" "j" ≠ [] := fun hnil => by
      have := definition_eq_nil.2 hnil
      rw [hdef] at this
      cases this
    obtain ⟨ix, ct', hix, -, hstands⟩ := hopens.sound.regular.index_of_mem (mem_indexNames.2 hentries)
    obtain ⟨hcolumns, hunique⟩ := Prod.mk.inj (hstands.definition.symm.trans hdef)
    have hkey : ∀ row : Row, row.get? "a" = some (.integer 1) → ix.keyOf row = .ok [.integer 1] := by
      intro row hrow
      rw [Index.keyOf, hcolumns, Row.valuesOf, List.mapM_cons, Row.value, hrow]
      rfl
    have hexact := hopens.sound.exact_of_table hc hix
    rw [hrows] at hexact
    refine absurd ⟨hunique, rfl, ?_⟩ (hroom "j" (mem_indexNames.2 hentries) ix hix _ (hkey _ rfl))
    have htaken : ix.hasKey [.integer 1] takenRow = true := Index.hasKey_iff.2 (hkey takenRow rfl)
    rw [hexact.handles_eq]
    simp [htaken]

theorem insert_refused_run_taken : ∃ s fs e s' fs',
    Location.Fits {} (.of taken) (.fresh ["home"]) taken ∧ (Sites.of taken).exclusive = true ∧
    run taken (⟨{}, none⟩, .fresh ["home"]) = (s, fs) ∧
    (execute (.insert "t" none [.literal (.integer 1), .literal (.text "x")])).apply s fs = (.error e, s', fs') ∧
    Legible (s, fs) ∧ Legible (⟨{}, none⟩, fs) ∧
      ∀ u, AgreeOn u (s, fs) (s', fs') ∧ AgreeOn u (⟨{}, none⟩, fs) (⟨{}, none⟩, fs') := by
  obtain ⟨s, fs, e, s', fs', hrun, hx⟩ := insert_refused_taken
  exact ⟨s, fs, e, s', fs', fits_taken, rfl, hrun, hx, insert_refused_run fits_taken rfl hrun hx⟩

end Session

end Rowbase
