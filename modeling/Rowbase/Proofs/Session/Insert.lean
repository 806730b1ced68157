import Rowbase.Proofs.Database.Midway
import Rowbase.Proofs.Database.Rolls
import Rowbase.Proofs.Session.Outcome

/-! # Inserting a row

A row that is inserted comes into its table and then, one by one, into the indices. If one of them has
no room for its key, it is taken out of all that have it, and the database is as it was but for a handle
that is used up. -/
namespace Rowbase

namespace Database

variable {d : Database} {t : String} {ct : Content} {handle : Handle} {stored : Row}

/-- Whether a row can come to the end of a table, under a handle behind all that are taken. -/
structure Receives (d : Database) (t : String) (ct : Content) (handle : Handle) (stored : Row) : Prop where
  table : d.table t = some ct
  fits : stored.Stored ct.columns
  ascending : Tape.Ascending (ct.rows ++ [(handle, some stored)])

theorem Receives.fresh (hr : d.Receives t ct handle stored) : handle ∉ ct.rows.handles := fun hm => by
  have hasc := hr.ascending
  rw [Tape.Ascending, Tape.handles_append] at hasc
  exact ((List.pairwise_append.1 hasc).2.2 handle hm handle (.head _)).ne rfl

theorem Receives.nodup (hr : d.Receives t ct handle stored) :
    ((ct.rows.live ++ [(handle, stored)]).map Prod.fst).Nodup := by
  rw [← live_append_some]
  exact hr.ascending.nodup_live

/-- Whether a database has a new row in a table and in some of its indices. -/
abbrev Adding (d : Database) (t : String) (ct : Content) (handle : Handle) (stored : Row)
    (done : List String) (d' : Database) : Prop :=
  d.Midway t ⟨ct.columns, ct.rows ++ [(handle, some stored)]⟩ (ct.rows.live ++ [(handle, stored)]) done d'

/-- Whether a database is another one with a row at the end of a table. -/
def Gains (d : Database) (t : String) (row : Row) (d' : Database) : Prop :=
  ∃ ct handle, d.table t = some ct ∧ d.Like d' ∧
    ∀ t', d'.live t' = if t' = t then d.live t ++ [(handle, Row.filled ct.columns row)] else d.live t'

end Database

namespace Models

open Database

variable {l : Location} {sites : Sites} {c : Catalog} {fs : Files} {d d' : Database}
  {t i : String} {ct : Content} {handle : Handle} {stored : Row} {done : List String}

/-! ## Taking a row back -/

/-- What is undone when a row that is in some indices is taken back. -/
def undoLog (t : String) (handle : Handle) (stored : Row) (done : List String) : List Change :=
  done.map (Change.indexed t · handle stored) ++ [.inserted t handle]

/-- A row goes out of an index that it came into. -/
theorem undoIndexed (hd : d.Sound l sites) (hr : d.Receives t ct handle stored) (hi : i ∈ d.indexNames t)
    (hn : i ∉ done) (h : Models l sites c fs d') (hm : d.Adding t ct handle stored (i :: done) d') :
    ∃ c' fs' d₂, (Change.indexed t i handle stored).undo.apply c fs = (.ok (), c', fs') ∧
      Models l sites c' fs' d₂ ∧ d.Adding t ct handle stored done d₂ := by
  obtain ⟨ix, hx, hs⟩ := hm.index_of_mem hd hi
  have hlast : (handle, stored) ∈ ct.rows.live ++ [(handle, stored)] := List.mem_append_right _ (.head _)
  obtain ⟨ix', c', fs', ha, h', halike, hl, hexact⟩ :=
    h.unindex hx hs (hm.exact_done (.head _) hx) hr.nodup hlast
  rw [Tape.live_concat_filter_ne hr.fresh, ← live_of_table hr.table] at hexact
  exact ⟨c', fs', _, ha, h', hm.revert hn hx halike hl hexact⟩

/-- A row that is in no index any more goes out of its table and leaves nothing behind but its handle. -/
theorem undoInserted (hd : d.Sound l sites) (hr : d.Receives t ct handle stored)
    (h : Models l sites c fs d') (hm : d.Adding t ct handle stored [] d') :
    ∃ res c' fs' d₂, (Change.inserted t handle).undo.apply c fs = (res, c', fs') ∧
      Models l sites c' fs' d₂ ∧ d.Same d₂ ∧ d₂.Sound l sites := by
  obtain ⟨res, c', fs', hx, -, h'⟩ := h.clearRow (hd.regular.like hm.like).toDescribed
    (hd.regular.not_mem_of_table hr.table) hm.table handle
  refine ⟨res, c', fs', _, hx, h', (hm.setTable _).undone hd ?_⟩
  dsimp only
  rw [Tape.live_clear, live_append_some, Tape.live_concat_filter_ne hr.fresh, live_of_table hr.table]

/-- A row that is taken back leaves nothing behind but its handle. -/
theorem rollBack_undoLog (hd : d.Sound l sites) (hr : d.Receives t ct handle stored) :
    ∀ (done : List String) (c : Catalog) (fs : Files) (d' : Database), done.Nodup →
      (∀ i ∈ done, i ∈ d.indexNames t) → Models l sites c fs d' →
      d.Adding t ct handle stored done d' → ∃ c' fs' d₂,
        (rollBack (undoLog t handle stored done)).apply c fs = (.ok (), c', fs') ∧
        Models l sites c' fs' d₂ ∧ d.Same d₂ ∧ d₂.Sound l sites
  | [], c, fs, d', _, _, h, hm => by
    obtain ⟨res, c', fs', d₂, hx, h'⟩ := undoInserted hd hr h hm
    exact ⟨c', fs', d₂, apply_rollBack_cons_of (.inserted t handle) hx, h'⟩
  | i :: done, c, fs, d', hdone, hnames, h, hm => by
    obtain ⟨hn, hdone⟩ := List.nodup_cons.1 hdone
    obtain ⟨c₁, fs₁, d₁, hx, h₁, hm₁⟩ := undoIndexed hd hr (hnames i (.head _)) hn h hm
    obtain ⟨c', fs', d₂, hroll, h'⟩ := rollBack_undoLog hd hr done c₁ fs₁ d₁ hdone
      (fun j hj => hnames j (.tail _ hj)) h₁ hm₁
    exact ⟨c', fs', d₂, (apply_rollBack_cons_of (.indexed t i handle stored) hx).trans hroll, h'⟩

/-! ## Adding a row -/

/-- Whether all indices of a table take a row. -/
def Admit (d : Database) (t : String) (stored : Row) (names : List String) : Prop :=
  ∀ i ∈ names, ∀ ix, d.index t i = some ix → ix.Admits stored

/-- One index takes a new row, or refuses it and is as it was. -/
theorem insertIndexed (hd : d.Sound l sites) (hr : d.Receives t ct handle stored) (hi : i ∈ d.indexNames t)
    (hn : i ∉ done) (h : Models l sites c fs d') (hm : d.Adding t ct handle stored done d') :
    (∃ e c', ¬ Admit d t stored [i] ∧ Models l sites c' fs d' ∧
      (Catalog.onIndex t i (Index.insert handle stored)).apply c fs = (.error e, c', fs)) ∨
    ∃ c' fs' d₂, Admit d t stored [i] ∧ Models l sites c' fs' d₂ ∧
      d.Adding t ct handle stored (i :: done) d₂ ∧
      (Catalog.onIndex t i (Index.insert handle stored)).apply c fs = (.ok (), c', fs') := by
  obtain ⟨ix, hx, hs⟩ := hm.index_of_mem hd hi
  obtain ⟨key, hk⟩ : ∃ key, ix.keyOf stored = .ok key := hs.exists_key hr.fits
  have hadmit : Admit d t stored [i] ↔ ∃ ix', ix.add key handle = .ok ix' := by
    obtain ⟨ix₀, _, h0, -, -⟩ := hd.regular.index_of_mem hi
    rw [← Index.admits_iff_add hk, ← hm.admits_iff hd hn hx h0]
    refine ⟨fun ha => ha i (.head _) ix₀ h0, fun ha j hj ix₁ h1 => ?_⟩
    cases List.mem_singleton.1 hj
    rw [h0] at h1
    cases h1
    exact ha
  rcases h.insertInto hx hs.loaded hs.path_eq hs.site hk handle with
    ⟨e, c', ha, h', hins⟩ | ⟨ix', c', fs', ha, hins, h'⟩
  · refine .inl ⟨e, c', fun had => ?_, h', hins⟩
    obtain ⟨ix', hok⟩ := hadmit.1 had
    rw [ha] at hok
    cases hok
  · have hexact := hm.exact_other (fun h => hn h.2) hx
    rw [live_of_table hr.table] at hexact
    exact .inr ⟨c', fs', _, hadmit.2 ⟨ix', ha⟩, h', hm.finish hx (Index.alike_add ha)
      (Index.add_description ha).2.2.2.2.2 (hexact.add hk ha), hins⟩

/-- A row goes into one index after the other, or is taken back. -/
theorem indexRow (hd : d.Sound l sites) (hr : d.Receives t ct handle stored) :
    ∀ (rest done : List String) (c : Catalog) (fs : Files) (d' : Database),
      (rest ++ done).Perm (d.indexNames t) → Models l sites c fs d' →
      d.Adding t ct handle stored done d' →
      Settles l sites d (Catalog.indexRow t handle stored (undoLog t handle stored done) rest) c fs
        (Admit d t stored rest) fun d₂ => d.Like d₂ ∧
          ∀ t', d₂.live t' = if t' = t then d.live t ++ [(handle, stored)] else d.live t'
  | [], done, c, fs, d', hperm, h, hm => by
    have hlive := hm.live
    dsimp only at hlive
    rw [live_append_some, ← live_of_table hr.table] at hlive
    rw [Adding, ← live_append_some] at hm
    exact .done (fun i hi => absurd hi List.not_mem_nil) rfl h
      (hm.sound hd fun i hi => hperm.mem_iff.2 hi) ⟨hm.like, hlive⟩
  | i :: rest, done, c, fs, d', hperm, h, hm => by
    have hnodup : i ∉ rest ++ done ∧ (rest ++ done).Nodup :=
      List.nodup_cons.1 (hperm.nodup_iff.2 (nodup_indexNames d t))
    have hn : i ∉ done := fun hi => hnodup.1 (List.mem_append_right _ hi)
    have hcons : Admit d t stored (i :: rest) ↔ Admit d t stored [i] ∧ Admit d t stored rest := by
      rw [Admit, List.forall_mem_cons, Admit, List.forall_mem_singleton, Admit]
    rw [Catalog.indexRow]
    rcases insertIndexed hd hr (hperm.mem_iff.1 (.head _)) hn h hm with
      ⟨e, c₁, had, h₁, hx⟩ | ⟨c₁, fs₁, d₁, had, h₁, hm₁, hx⟩
    · obtain ⟨c', fs', d₂, hroll, h₂, hsame, hsound⟩ := rollBack_undoLog hd hr done c₁ fs d'
        (List.nodup_append.1 hnodup.2).2.1
        (fun j hj => hperm.mem_iff.1 (List.mem_append_right _ hj)) h₁ hm
      have hfailed := Act.apply_onFailure_error hx (rollBack (undoLog t handle stored done))
      rw [hroll] at hfailed
      exact .refused (fun ha => had (hcons.1 ha).1) (Act.apply_bind_error hfailed _) h₂ hsound hsame
    · have hrest := indexRow hd hr rest (i :: done) c₁ fs₁ d₁ (List.perm_middle.trans hperm) h₁ hm₁
      refine (hrest.of_apply (Act.apply_bind_ok (Act.apply_onFailure_ok hx _) _)).mono ?_ fun _ _ hq => hq
      rw [hcons, and_iff_right had]

/-- Whether a table and all its indices take a row. -/
def Accepts (d : Database) (t : String) (ct : Content) (row : Row) : Prop :=
  ct.Takes t row ∧ Admit d t (Row.filled ct.columns row) (d.indexNames t)

/-- A row that the table and all its indices take is there afterwards; any other leaves the database as
it was. -/
theorem insertRow (h : Models l sites c fs d) (hd : d.Sound l sites) (hc : d.table t = some ct)
    (row : Row) :
    Settles l sites d (Catalog.insertRow t row (d.indexNames t)) c fs (Accepts d t ct row)
      (d.Gains t row) := by
  have hn := hd.regular.not_mem_of_table hc
  rw [Catalog.insertRow]
  rcases h.addRow hd.regular.toDescribed hn hc row with
    ⟨e, c₁, ht, h₁, hx⟩ | ⟨handle, c₁, fs₁, ht, hx, h₁⟩
  · exact .refused (fun ha => ht ha.1) (Act.apply_bind_error hx _) h₁ hd (.refl d)
  · have hm : d.Adding t ct handle (Row.filled ct.columns row) [] _ := hd.midway hc _ _
    have hc₁ := (content_of_not_mem hn).trans hm.table
    have hlast : (handle, Row.filled ct.columns row) ∈
        Tape.live (ct.rows ++ [(handle, some (Row.filled ct.columns row))]) := by
      rw [live_append_some]
      exact List.mem_append_right _ (.head _)
    have hr : d.Receives t ct handle (Row.filled ct.columns row) :=
      ⟨hc, h₁.stored_row hc₁ hlast, h₁.ascending hc₁⟩
    obtain ⟨c₂, hread, h₂⟩ := h₁.readRow (hd.regular.like hm.like).toDescribed hc₁ hlast
    refine .of_apply (Act.apply_bind_ok hx _) (.of_apply (Act.apply_bind_ok
      (Act.apply_onFailure_ok hread _) _) ?_)
    refine (indexRow hd hr (d.indexNames t) [] c₂ fs₁ _ (List.append_nil _ ▸ .refl _) h₂ hm).mono
      ?_ fun d₂ _ hq => ⟨ct, handle, hc, hq⟩
    rw [Accepts, and_iff_right ht]

end Models

/-! ## The statement -/

/-- The row that columns and as many values make. -/
def givenRow (names : List String) (values : List Language.Expr) : Except Refusal Row :=
  if names.length = values.length then Catalog.giveValues .empty (names.zip values)
  else .error (.valueCount values.length names.length)

/-- What INSERT does once it is clear which columns get values. -/
def Catalog.insertGiven (t : String) (names : List String) (values : List Language.Expr) :
    Act Refusal Catalog Answer := do
  let row ← .result (givenRow names values)
  let indices ← indexNames t
  insertRow t row indices
  return .ofMessage s!"successfully inserted 1 row into {t}{withIndices indices.length}"

/-- The columns that get values. -/
def Catalog.givenNames (t : String) : Option (List String) → Act Refusal Catalog (List String)
  | some names => pure names
  | none => do return (← columnsOf t).map Column.name

theorem Catalog.insert_eq (t : String) (names : Option (List String)) (values : List Language.Expr) :
    insert t names values = (do
      checkWritable t
      checkListed t
      let names ← givenNames t names
      insertGiven t names values) := by
  have hgiven : ∀ names, insertGiven t names values = if names.length = values.length then do
        let row ← .result (giveValues .empty (names.zip values))
        let indices ← indexNames t
        insertRow t row indices
        return .ofMessage s!"successfully inserted 1 row into {t}{withIndices indices.length}"
      else throw (.valueCount values.length names.length) := by
    intro names
    rw [insertGiven, givenRow]
    split <;> rfl
  rw [insert]
  congr 1
  funext _
  congr 1
  funext _
  cases names with
  | some names =>
    dsimp only
    rw [givenNames, pure_bind, pure_bind, hgiven]
    rfl
  | none =>
    dsimp only
    rw [givenNames, bind_assoc]
    congr 1
    funext columns
    rw [pure_bind, pure_bind, hgiven]
    rfl

section
variable {l : Location} {sites : Sites} {c : Catalog} {fs : Files} {d d' : Database} {t : String}
  {ct : Content} {names : Option (List String)} {values : List Language.Expr}

/-- Whether a database takes the row that columns and values make. -/
def Database.Takes (d : Database) (t : String) (names : Option (List String)) (values : List Language.Expr)
    (row : Row) : Prop :=
  ∃ ct, d.table t = some ct ∧ givenRow (names.getD (ct.columns.map Column.name)) values = .ok row ∧
    Models.Accepts d t ct row

/-- A database that cannot be told from another takes the same rows. -/
theorem Database.Same.takes (hs : d.Same d') (hd : d.Sound l sites) (hd' : d'.Sound l sites) {row : Row}
    (h : d.Takes t names values row) : d'.Takes t names values row := by
  obtain ⟨ct, hc, hg, ⟨data, hrec⟩, htaken⟩ := h
  obtain ⟨ct', hc', he⟩ := hs.table_some hc
  refine ⟨ct', hc', he.symm ▸ hg, ⟨data, he.symm ▸ hrec⟩, fun i hi ix' hx' => ?_⟩
  rw [hs.indexNames] at hi
  rcases hs.index t i with ⟨h1, -⟩ | ⟨ix, ix₁, h1, h2, halike, -⟩
  · rw [h1] at hx'
    cases hx'
  · rw [h2] at hx'
    cases hx'
    rw [he]
    exact ((hd.exact t i ix h1).admits_iff ((hs.at t).exact hd' h2) halike.name halike.columns halike.unique
      _).2 (htaken i hi ix h1)

theorem settles_insertGiven (h : Models l sites c fs d) (hd : d.Sound l sites) (hc : d.table t = some ct)
    (hn : names.getD (ct.columns.map Column.name) = given) :
    Settles l sites d (Catalog.insertGiven t given values) c fs
      (∃ row, d.Takes t names values row) fun d' => ∃ row, d.Takes t names values row ∧ d.Gains t row d' := by
  refine (looks_result _).settles_bind h hd (fun e he => ?_) fun row c₁ hr h₁ => ?_
  · rintro ⟨row, ct', hc', hg, -⟩
    rw [hc] at hc'
    cases hc'
    rw [hn, show givenRow given values = .error e from he] at hg
    cases hg
  · have hr : givenRow given values = .ok row := hr
    have htakes : (∃ row', d.Takes t names values row') ↔ Models.Accepts d t ct row := by
      refine ⟨?_, fun ha => ⟨row, ct, hc, hn ▸ hr, ha⟩⟩
      rintro ⟨row', ct', hc', hg, ha⟩
      rw [hc] at hc'
      cases hc'
      rw [hn, hr] at hg
      cases hg
      exact ha
    obtain ⟨c₂, h₂, hnames⟩ := (looks_indexNames t).known h₁ (h₁.value_indexNames t) Refusal.storage
    refine .of_apply (hnames _) (.bind_pure (.adapt ?_ _) fun _ => _)
    exact (h₂.insertRow hd hc row).mono htakes.symm fun d' ha hq => ⟨row, ⟨ct, hc, hn ▸ hr, ha⟩, hq⟩

/-- INSERT adds the row that its values make, if the table and all its indices take it. -/
theorem settles_insert (h : Models l sites c fs d) (hd : d.Sound l sites) :
    Settles l sites d (Catalog.insert t names values) c fs
      (∃ row, d.Takes t names values row) fun d' => ∃ row, d.Takes t names values row ∧ d.Gains t row d' := by
  rw [Catalog.insert_eq]
  refine settles_checked h hd ?_ fun ct c₁ hc h₁ => ?_
  · rintro ⟨row, ct, hc, -⟩ hnone
    rw [hc] at hnone
    cases hnone
  · cases names with
    | some names => exact settles_insertGiven h₁ hd hc rfl
    | none =>
      have hn := hd.regular.not_mem_of_table hc
      obtain ⟨c₂, h₂, hcols⟩ := (looks_columnsOf t).known h₁ (h₁.value_columnsOf t) Refusal.storage
      rw [Catalog.givenNames, bind_assoc]
      refine .of_apply (hcols _) ?_
      rw [pure_bind, hd.regular.columns t hn, hc]
      exact settles_insertGiven h₂ hd hc rfl

end

end Rowbase
