import Rowbase.Proofs.Heap.Relation

/-! # A relation is an ordered list of rows

Whatever is done to a relation after it was made, its file behaves as a list of rows: inserting adds
one at the end, deleting takes one out, and nothing else changes the list, not even closing the
relation or describing it anew. The list is kept beside the run, from what the acts return alone. -/
namespace Rowbase.Relation

open Heap (blockCount)

/-- What can be done to a relation. -/
inductive Op where
  | insert (row : Row)
  | delete (h : Handle)
  | select (condition : Option Row)
  | project (h : Handle) (columns : List String)
  | close
  /-- The relation is described anew, as at the start of another session. -/
  | reopen

/-- A relation during a run, with what the run has returned so far. -/
structure Trace where
  relation : Relation
  files : Files
  /-- All handles that were returned. -/
  issued : List Handle
  /-- The rows that were inserted and not deleted since. -/
  rows : List (Handle × Row)

variable {r₀ : Relation} {t : Trace}

/-- The trace after an act that changed no rows. -/
def Trace.after (t : Trace) (s : Except StorageError α × Relation × Files) : Trace :=
  { t with relation := s.2.1, files := s.2.2 }

/-- The trace after something was done to a relation that was first described as `r₀`. -/
def Trace.step (r₀ : Relation) (t : Trace) : Op → Trace
  | .insert row =>
    let s := (Relation.insert row).apply t.relation t.files
    match s.1 with
    | .ok h =>
      { t.after s with issued := t.issued ++ [h], rows := t.rows ++ [(h, Row.filled r₀.columns row)] }
    | .error _ => t.after s
  | .delete h =>
    let s := (Relation.delete h).apply t.relation t.files
    match s.1 with
    | .ok () => { t.after s with rows := t.rows.filter fun e => e.1 ≠ h }
    | .error _ => t.after s
  | .select condition => t.after ((Relation.select condition).apply t.relation t.files)
  | .project h columns => t.after ((Relation.project h columns).apply t.relation t.files)
  | .close => t.after (Relation.close.apply t.relation t.files)
  | .reopen => { t with relation := r₀ }

/-- The trace after a run. -/
def Trace.run (r₀ : Relation) (t : Trace) (ops : List Op) : Trace := ops.foldl (step r₀) t

/-- Where a run starts: the relation was just made. -/
def Trace.start (r₀ : Relation) (fs : Files) : Trace where
  relation := (create.apply r₀ fs).2.1
  files := (create.apply r₀ fs).2.2
  issued := []
  rows := []

/-- Whether the list of rows is what the relation's tape says. -/
structure Trace.Sound (r₀ : Relation) (t : Trace) (id : Nat) (tape : Tape Row) : Prop where
  name : t.relation.name = r₀.name
  columns : t.relation.columns = r₀.columns
  path : t.relation.file.path = r₀.file.path
  holds : t.relation.Holds t.files id tape
  issued : tape.handles = t.issued
  rows : tape.live = t.rows

variable {id : Nat} {tape : Tape Row}

theorem Trace.Sound.opened (hs : t.Sound r₀ id tape) {α : Type} {x : Act StorageError Relation α}
    {a : Except StorageError α}
    (hx : x.apply t.relation t.files =
      (a, t.relation.openAt id (blockCount (t.files.bytes id)), t.files)) :
    (t.after (x.apply t.relation t.files)).Sound r₀ id tape := by
  rw [hx]
  exact ⟨hs.name, hs.columns, hs.path, hs.holds.openAt, hs.issued, hs.rows⟩

/-- Each step takes a list that the tape agrees with to one that the tape agrees with. -/
theorem Trace.Sound.step (hr : r₀.file.file = none) (hs : t.Sound r₀ id tape) (op : Op) :
    ∃ tape', (t.step r₀ op).Sound r₀ id tape' := by
  cases op with
  | insert row =>
    cases hrec : t.relation.record row with
    | error e =>
      have hx := hs.holds.insert_refused hrec
      refine ⟨tape, ?_⟩
      simp only [Trace.step, hx]
      exact ⟨hs.name, hs.columns, hs.path, hs.holds.openAt, hs.issued, hs.rows⟩
    | ok data =>
      obtain ⟨h, bytes, hx, hholds⟩ := hs.holds.insert_stored hrec
      rw [hs.columns] at hholds
      refine ⟨tape ++ [(h, some (Row.filled r₀.columns row))], ?_⟩
      simp only [Trace.step, hx]
      refine ⟨hs.name, hs.columns, hs.path, hholds, ?_, ?_⟩
      · rw [Tape.handles_append, hs.issued]
        rfl
      · rw [Tape.live_append, hs.rows]
        rfl
  | delete h =>
    by_cases hm : ∃ row, (h, row) ∈ tape.live
    · obtain ⟨row, hm⟩ := hm
      obtain ⟨bytes, hx, -, hholds⟩ := hs.holds.delete hm
      refine ⟨tape.clear h, ?_⟩
      simp only [Trace.step, hx]
      refine ⟨hs.name, hs.columns, hs.path, hholds, ?_, ?_⟩
      · rw [Tape.handles_clear, hs.issued]
        rfl
      · rw [Tape.live_clear, hs.rows]
    · obtain ⟨e, hx⟩ := hs.holds.delete_missing (not_exists.1 hm)
      refine ⟨tape, ?_⟩
      simp only [Trace.step, hx]
      exact ⟨hs.name, hs.columns, hs.path, hs.holds.openAt, hs.issued, hs.rows⟩
  | select condition => exact ⟨tape, hs.opened (hs.holds.select condition)⟩
  | project h columns => exact ⟨tape, hs.opened (hs.holds.project h columns)⟩
  | close =>
    exact ⟨tape, hs.name, hs.columns, hs.path, hs.holds.closed rfl rfl rfl rfl, hs.issued, hs.rows⟩
  | reopen =>
    exact ⟨tape, rfl, rfl, rfl, hs.holds.closed hs.name.symm hs.columns.symm hs.path.symm hr,
      hs.issued, hs.rows⟩

theorem Trace.Sound.run (hr : r₀.file.file = none) (ops : List Op) :
    ∀ {t : Trace} {tape : Tape Row}, t.Sound r₀ id tape →
      ∃ tape', (t.run r₀ ops).Sound r₀ id tape' := by
  induction ops with
  | nil => exact fun hs => ⟨_, hs⟩
  | cons op ops ih =>
    intro t tape hs
    obtain ⟨tape', hs'⟩ := hs.step hr op
    exact ih hs'

theorem Trace.sound_start {fs : Files} (hc : (create.apply r₀ fs).1 = .ok ()) :
    ∃ id, (Trace.start r₀ fs).Sound r₀ id [] := by
  cases hf : fs.create r₀.file.path with
  | error fault =>
    obtain ⟨e, hx⟩ := exists_create_error r₀ fault
    rw [hx hf] at hc
    cases hc
  | ok made =>
    obtain ⟨id, fs'⟩ := made
    obtain ⟨bytes, hx, hholds⟩ := create_of_create hf
    refine ⟨id, ?_⟩
    rw [Trace.start, hx]
    exact ⟨rfl, rfl, rfl, hholds, rfl, rfl⟩

/-! ## What the list tells -/

/-- Whether a relation answers as the list of rows kept beside its run does. -/
structure Trace.Faithful (t : Trace) : Prop where
  /-- All rows are listed in the order in which they came. -/
  select : ((Relation.select none).apply t.relation t.files).1 = .ok (t.rows.map Prod.fst)
  /-- A row is read as it was inserted. -/
  project : ∀ h row, (h, row) ∈ t.rows →
    ((Relation.project h []).apply t.relation t.files).1 = .ok row
  /-- A row that is there can be deleted. -/
  delete : ∀ h row, (h, row) ∈ t.rows →
    ((Relation.delete h).apply t.relation t.files).1 = .ok ()
  /-- Nothing is read or deleted where no row is. -/
  missing : ∀ h, (∀ row, (h, row) ∉ t.rows) →
    (∃ e, ((Relation.delete h).apply t.relation t.files).1 = .error e) ∧
      ∀ columns, ∃ e, ((Relation.project h columns).apply t.relation t.files).1 = .error e
  /-- A new handle comes after all that were ever returned. -/
  fresh : ∀ row h, ((Relation.insert row).apply t.relation t.files).1 = .ok h →
    ∀ h' ∈ t.issued, h'.Before h
  /-- Inserting changes what is read behind no other handle. -/
  insert_frame : ∀ row h columns,
    let s := (Relation.insert row).apply t.relation t.files
    s.1 ≠ .ok h →
      ((Relation.project h columns).apply s.2.1 s.2.2).1.toOption =
          ((Relation.project h columns).apply t.relation t.files).1.toOption ∧
        (h ∈ t.issued → ((Relation.project h columns).apply s.2.1 s.2.2).1 =
          ((Relation.project h columns).apply t.relation t.files).1)
  /-- Deleting changes what is read behind no other handle. -/
  delete_frame : ∀ h h' columns, h' ≠ h →
    let s := (Relation.delete h).apply t.relation t.files
    ((Relation.project h' columns).apply s.2.1 s.2.2).1 =
      ((Relation.project h' columns).apply t.relation t.files).1

theorem toOption_bind {ε α β : Type} {x y : Except ε α} (h : ∀ a, x = .ok a ↔ y = .ok a)
    (f : α → Except ε β) : (x >>= f).toOption = (y >>= f).toOption := by
  cases x with
  | ok a => rw [(h a).1 rfl]
  | error e =>
    cases y with
    | ok a => cases (h a).2 rfl
    | error e' => rfl

theorem rowIn_congr {r : Relation} {n n' : Nat} {tape tape' : Tape Row} {h : Handle}
    (hn : h.block ≤ n) (hn' : h.block ≤ n') (ht : tape'.row? h = tape.row? h) :
    r.rowIn n' tape' h = r.rowIn n tape h := by
  rw [rowIn, rowIn, ht]
  have hc : (h.block = 0 ∨ n' < h.block) ↔ (h.block = 0 ∨ n < h.block) := by omega
  rw [if_congr hc rfl rfl]

section
variable {r : Relation} {fs : Files} (hs : r.Holds fs id tape)
include hs

/-- The handle of a new row comes after all those on the tape. -/
theorem Holds.before_of_insert {row : Row} {h : Handle} (hx : ((Relation.insert row).apply r fs).1 = .ok h) :
    ∀ h' ∈ tape.handles, h'.Before h := by
  cases hrec : r.record row with
  | error e =>
    rw [hs.insert_refused hrec] at hx
    cases hx
  | ok data =>
    obtain ⟨_, bytes, hx', hholds⟩ := hs.insert_stored hrec
    rw [hx'] at hx
    cases hx
    have hasc := hholds.ascending
    rw [Tape.Ascending, Tape.handles_append] at hasc
    exact fun h' hm => (List.pairwise_append.1 hasc).2.2 h' hm h (List.mem_singleton_self _)

/-- What is read behind a handle is the same after an insert that returned another one. If the handle is not on the
tape, the read fails, but after the insert its block may be there and the error another one. -/
theorem Holds.project_after_insert {row : Row} {h : Handle}
    (hne : ((Relation.insert row).apply r fs).1 ≠ .ok h) (columns : List String) :
    let s := (Relation.insert row).apply r fs
    ((Relation.project h columns).apply s.2.1 s.2.2).1.toOption =
        ((Relation.project h columns).apply r fs).1.toOption ∧
      (h ∈ tape.handles → ((Relation.project h columns).apply s.2.1 s.2.2).1 =
        ((Relation.project h columns).apply r fs).1) := by
  cases hrec : r.record row with
  | error e =>
    rw [hs.insert_refused hrec]
    dsimp only
    rw [hs.project, hs.openAt.project]
    exact ⟨rfl, fun _ => rfl⟩
  | ok data =>
    obtain ⟨h₁, bytes, hx, hholds⟩ := hs.insert_stored hrec
    rw [hx] at hne ⊢
    dsimp only
    rw [hs.project, hholds.project]
    have hrow : ∀ row', (h, row') ∈ (tape ++ [(h₁, some (Row.filled r.columns row))]).live ↔
        (h, row') ∈ tape.live := by
      intro row'
      rw [Tape.mem_live, Tape.mem_live, List.mem_append, List.mem_singleton]
      exact or_iff_left fun he => hne (congrArg Except.ok (congrArg Prod.fst he).symm)
    refine ⟨toOption_bind (fun row' => ?_) _, fun hm => ?_⟩
    · rw [hs.rowIn_eq_ok_iff, ← hrow]
      exact hholds.rowIn_eq_ok_iff
    · have hm' : h ∈ Tape.handles (tape ++ [(h₁, some (Row.filled r.columns row))]) := by
        rw [Tape.handles_append]
        exact List.mem_append_left _ hm
      exact congrArg (· >>= _) (rowIn_congr (hs.block_le hm).2 (hholds.block_le hm').2
        (hs.ascending.row?_congr hholds.ascending hrow))

/-- What is read behind a handle is the same after a delete behind another one. -/
theorem Holds.project_after_delete {h h' : Handle} (hne : h' ≠ h) (columns : List String) :
    let s := (Relation.delete h).apply r fs
    ((Relation.project h' columns).apply s.2.1 s.2.2).1 = ((Relation.project h' columns).apply r fs).1 := by
  by_cases hm : ∃ row, (h, row) ∈ tape.live
  · obtain ⟨row, hm⟩ := hm
    obtain ⟨bytes, hx, hcount, hholds⟩ := hs.delete hm
    rw [hx]
    dsimp only
    rw [hs.project, hholds.project, Files.bytes_setBytes_self hs.stored, hcount]
    have hrow : ∀ row', (h', row') ∈ (tape.clear h).live ↔ (h', row') ∈ tape.live := by
      intro row'
      rw [Tape.live_clear, List.mem_filter]
      exact and_iff_left (decide_eq_true hne)
    refine congrArg (· >>= _) ?_
    change r.rowIn _ _ h' = _
    rw [rowIn, rowIn, hs.ascending.row?_congr hholds.ascending hrow]
  · obtain ⟨e, hx⟩ := hs.delete_missing (not_exists.1 hm)
    rw [hx]
    dsimp only
    rw [hs.project, hs.openAt.project]
    rfl

end

/-- A relation answers as its list of rows does if the list is what the tape says. -/
theorem Trace.Sound.faithful (hs : t.Sound r₀ id tape) : t.Faithful where
  select := by
    rw [hs.holds.select, ← hs.rows]
    change List.map Prod.fst <$> tape.live.filterM (fun _ => (pure true : Except StorageError Bool)) = _
    rw [filterM_pure, List.filter_true]
    rfl
  project h row hm := by
    rw [← hs.rows] at hm
    rw [hs.holds.project, hs.holds.rowIn_eq_ok_iff.2 hm]
    rfl
  delete h row hm := by
    rw [← hs.rows] at hm
    obtain ⟨bytes, hx, -⟩ := hs.holds.delete hm
    rw [hx]
  missing h hm := by
    rw [← hs.rows] at hm
    obtain ⟨e, hx⟩ := hs.holds.delete_missing hm
    refine ⟨⟨e, by rw [hx]⟩, fun columns => ?_⟩
    rw [hs.holds.project]
    cases hrow : t.relation.rowIn (blockCount (t.files.bytes id)) tape h with
    | error e => exact ⟨e, rfl⟩
    | ok row => exact absurd (hs.holds.rowIn_eq_ok_iff.1 hrow) (hm row)
  fresh row h hx := by
    rw [← hs.issued]
    exact hs.holds.before_of_insert hx
  insert_frame row h columns := by
    rw [← hs.issued]
    exact fun hne => hs.holds.project_after_insert hne columns
  delete_frame h h' columns hne := hs.holds.project_after_delete hne columns

/-- Whatever is done to a relation after it was made, it answers as its list of rows does. -/
theorem faithful_run (name : String) (columns : List Column) (path : String) (fs : Files)
    (hc : (create.apply (describe name columns path) fs).1 = .ok ()) (ops : List Op) :
    ((Trace.start (describe name columns path) fs).run (describe name columns path) ops).Faithful := by
  obtain ⟨id, hs⟩ := Trace.sound_start hc
  obtain ⟨tape, hs⟩ := hs.run rfl ops
  exact hs.faithful

/-- A relation that is described anew after a row was deleted still has the other. -/
theorem faithful_run_reopened :
    (create.apply (describe "t" [⟨"a", { kind := .int }⟩] "t.db") (.fresh [])).1 = .ok () ∧
      ((Trace.start (describe "t" [⟨"a", { kind := .int }⟩] "t.db") (.fresh [])).run
        (describe "t" [⟨"a", { kind := .int }⟩] "t.db")
        [.insert (.ofList [("a", .integer 1)]), .insert .empty, .delete ⟨1, 1⟩, .reopen]).Faithful :=
  ⟨by decide +kernel, faithful_run "t" _ "t.db" (.fresh []) (by decide +kernel) _⟩

end Rowbase.Relation
