import Rowbase.Proofs.Heap.Relation

/-! # Storing is all or nothing

Storing a row changes the file once or twice: a blank block may be added, and then the record is written. `storing`
does this step by step, with each change made at once, and does just what inserting does: all that can fail comes before
the first change, since a record that was encoded fits a blank block. So a row that is refused leaves every block as it
is, and a row that makes a record is stored in the last block or in a new one. -/
namespace Rowbase.Relation

open Act
open Heap (blockCount)

variable {r r' : Relation} {fs fs' : Files} {row : Row} {data : ByteArray} {page : Heap.Page} {id n : Nat}
  {tape : Tape Row} {e : StorageError}

/-! ## Storing step by step -/

/-- Adds a blank block at the end of the file. -/
def growing : Act StorageError Relation Heap.Page :=
  .change fun r fs => do
    let (page, file, fs) ← r.file.grow fs
    return (page, { r with file }, fs)

/-- The page that is tried first: that of the last block, or a new one if there is none. -/
def pageToTry : Act StorageError Relation Heap.Page := do
  if (← .thing).file.last = 0 then growing else .look fun r fs => r.file.get fs r.file.last

/-- Writes a page where it belongs. -/
def putting (page : Heap.Page) : Act StorageError Relation Unit :=
  .change fun r fs => do return ((), r, ← r.file.put fs page)

/-- Writes a page with a record added to it. -/
def adding (data : ByteArray) (page : Heap.Page) : Act StorageError Relation Handle := do
  let (record, page) ← .result (page.add data)
  putting page
  return ⟨page.block, record⟩

/-- Adds a record to the page that is tried first, or to a new one if there is no room for it. -/
def placing (data : ByteArray) : Act StorageError Relation Handle := do
  let page ← pageToTry
  adding data (← if page.hasRoom data.size then pure page else growing)

/-- Stores a row and returns its handle. Each change of the file is made at once, and kept whatever fails after it. -/
def storing (row : Row) : Act StorageError Relation Handle := do
  opening
  placing (← .look fun r _ => r.record row)

theorem apply_growing (r : Relation) (id n : Nat) (fs : Files) : ∃ fs',
    (r.openAt id n).file.grow fs = .ok (.blank (n + 1), (r.openAt id (n + 1)).file, fs') ∧
      growing.apply (r.openAt id n) fs = (.ok (.blank (n + 1)), r.openAt id (n + 1), fs') :=
  ⟨_, rfl, rfl⟩

/-- A record is added to a page that has room for it. -/
theorem apply_adding (r : Relation) (id n : Nat) (fs : Files) (hroom : page.hasRoom data.size = true) : ∃ fs',
    (r.openAt id n).file.put fs (page.withRecord data) = .ok fs' ∧
      (adding data page).apply (r.openAt id n) fs =
        (.ok ⟨page.block, page.recordCount + 1⟩, r.openAt id n, fs') := by
  have hput : ∃ fs', (r.openAt id n).file.put fs (page.withRecord data) = .ok fs' ∧
      (putting (page.withRecord data)).apply (r.openAt id n) fs = (.ok (), r.openAt id n, fs') := ⟨_, rfl, rfl⟩
  obtain ⟨fs', hput, hx⟩ := hput
  refine ⟨fs', hput, ?_⟩
  rw [adding, Heap.Page.add_of_hasRoom hroom, apply_bind_ok (apply_result _ _ fs), apply_bind_ok hx,
    Heap.Page.block_withRecord]
  rfl

/-- What storing a record comes to in an open file of `n` blocks: the last block cannot be read, has room for the
record, or has none, and then a block is added. -/
inductive Placed (r : Relation) (id n : Nat) (fs : Files) (data : ByteArray) :
    Except StorageError Handle × Relation × Files → Prop
  | unreadable {e : StorageError} (hn : n ≠ 0) (hget : (r.openAt id n).file.get fs n = .error e) :
    Placed r id n fs data (.error e, r.openAt id n, fs)
  | inLast {page : Heap.Page} {fs' : Files} (hget : (r.openAt id n).file.get fs n = .ok page)
    (hroom : page.hasRoom data.size = true) :
    Placed r id n fs data (.ok ⟨n, page.recordCount + 1⟩, r.openAt id n, fs')
  | inNew {fs' : Files} (hfull : ∀ page, (r.openAt id n).file.get fs n = .ok page → page.hasRoom data.size = false) :
    Placed r id n fs data (.ok ⟨n + 1, 1⟩, r.openAt id (n + 1), fs')

theorem append_of_unreadable (he : Heap.encode r.columns row = .ok data) (hlast : r.file.last ≠ 0)
    (hget : r.file.get fs r.file.last = .error e) : r.append fs row = .error e := by
  simp only [append, he, Except.mapError, bind, Except.bind, if_neg hlast, hget]

theorem apply_pageToTry_of_ne (r : Relation) (id : Nat) (fs : Files) (hn : n ≠ 0) :
    pageToTry.apply (r.openAt id n) fs = ((r.openAt id n).file.get fs n, r.openAt id n, fs) := by
  have hlast : (r.openAt id n).file.last ≠ 0 := hn
  rw [pageToTry, apply_bind_ok (apply_thing _ fs), if_neg hlast]
  rfl

theorem apply_pageToTry_zero (r : Relation) (id : Nat) (fs : Files) :
    pageToTry.apply (r.openAt id 0) fs = growing.apply (r.openAt id 0) fs := by
  rw [pageToTry, apply_bind_ok (apply_thing _ fs)]
  exact congrFun (if_pos rfl) _

/-- Step by step or not, a record that was encoded is placed alike. What comes of it says whether the last block can be
read and has room. -/
theorem exists_placed (he : Heap.encode r.columns row = .ok data) (id n : Nat) (fs : Files) : ∃ out,
    (Act.change fun r fs => r.append fs row).apply (r.openAt id n) fs = out ∧
      (placing data).apply (r.openAt id n) fs = out ∧ Placed r id n fs data out := by
  obtain ⟨-, -, -, hsize⟩ := Heap.encode_eq_ok he
  have hblank := (Heap.Page.hasRoom_blank (n + 1) data.size).2 hsize
  obtain ⟨fs₁, hgrow, hgrowing⟩ := apply_growing r id n fs
  obtain ⟨fs₂, hput, hadding⟩ := apply_adding r id (n + 1) fs₁ hblank
  rw [Heap.Page.recordCount_blank] at hadding
  by_cases hn : n = 0
  · subst hn
    have happ := append_of_empty (r := r.openAt id 0) he rfl hgrow hblank hput
    rw [Heap.Page.recordCount_blank] at happ
    refine ⟨_, apply_change_ok happ, ?_, .inNew fun page hget => ?_⟩
    · rw [placing, apply_bind_ok ((apply_pageToTry_zero r id fs).trans hgrowing), if_pos hblank,
        apply_bind_ok (apply_pure _ _ _), hadding]
      rfl
    · rw [show (r.openAt id 0).file.get fs 0 = _ from Heap.BlockFile.get_openAt_of_gt (.inl rfl)] at hget
      cases hget
  · cases hget : (r.openAt id n).file.get fs n with
    | error e =>
      refine ⟨_, apply_change_error (append_of_unreadable (r := r.openAt id n) he hn hget), ?_, .unreadable hn hget⟩
      rw [placing, apply_bind_error ((apply_pageToTry_of_ne r id fs hn).trans (by rw [hget]))]
    | ok page =>
      have hlast := (apply_pageToTry_of_ne r id fs hn).trans (by rw [hget])
      have hblock := Heap.BlockFile.block_of_get hget
      rw [placing, apply_bind_ok hlast]
      cases hroom : page.hasRoom data.size with
      | true =>
        obtain ⟨fs', hput, hadding⟩ := apply_adding r id n fs hroom
        have happ := append_of_room (r := r.openAt id n) he hn hget hroom hput
        rw [hblock] at happ hadding
        refine ⟨_, apply_change_ok happ, ?_, .inLast hget hroom⟩
        rw [if_pos rfl, apply_bind_ok (apply_pure _ _ _), hadding]
      | false =>
        have happ := append_of_no_room (r := r.openAt id n) he hn hget (by rw [hroom]; exact Bool.false_ne_true) hgrow
          hblank hput
        rw [Heap.Page.recordCount_blank] at happ
        refine ⟨_, apply_change_ok happ, ?_, .inNew fun page' hget' => ?_⟩
        · rw [if_neg Bool.false_ne_true, apply_bind_ok hgrowing, hadding]
          rfl
        · cases hget.symm.trans hget'
          exact hroom

/-! ## Relations that were inserted into and deleted from -/

/-- Whether a relation was made, or taken over with an empty file, and has only been inserted into and deleted from
since, successfully or not. -/
inductive Grown : Relation → Files → Prop
  | made {name path : String} {columns : List Column} {fs fs' : Files} {r : Relation}
    (h : create.apply (describe name columns path) fs = (.ok (), r, fs')) : Grown r fs'
  | adopted {name path : String} {columns : List Column} {fs fs' : Files} {r : Relation} {id : Nat}
    (hfind : fs.find path = .ok id) (hempty : fs.contents[id]? = some .empty)
    (h : createIfMissing.apply (describe name columns path) fs = (.ok (), r, fs')) : Grown r fs'
  | inserted {r : Relation} {fs : Files} (h : Grown r fs) (row : Row) :
    Grown ((insert row).apply r fs).2.1 ((insert row).apply r fs).2.2
  | deleted {r : Relation} {fs : Files} (h : Grown r fs) (handle : Handle) :
    Grown ((delete handle).apply r fs).2.1 ((delete handle).apply r fs).2.2

/-- Whether a relation is open and holds a tape. -/
def Working (r : Relation) (fs : Files) : Prop := ∃ id tape, r.Holds fs id tape ∧ r.file.file = some id

theorem Holds.working (hr : r.Holds fs id tape) : (r.openAt id (blockCount (fs.bytes id))).Working fs :=
  ⟨id, tape, hr.openAt, rfl⟩

theorem working_made {name path : String} {columns : List Column}
    (h : create.apply (describe name columns path) fs = (.ok (), r, fs')) : r.Working fs' := by
  cases hf : fs.create path with
  | error fault =>
    obtain ⟨e, hx⟩ := exists_create_error (describe name columns path) fault
    cases h.symm.trans (hx hf)
  | ok made =>
    obtain ⟨id, fs₁⟩ := made
    obtain ⟨bytes, hx, hholds⟩ := create_of_create (r := describe name columns path) hf
    cases h.symm.trans hx
    exact ⟨id, [], hholds, rfl⟩

theorem working_adopted {name path : String} {columns : List Column} (hfind : fs.find path = .ok id)
    (hempty : fs.contents[id]? = some .empty)
    (h : createIfMissing.apply (describe name columns path) fs = (.ok (), r, fs')) : r.Working fs' := by
  obtain ⟨hs, hbytes⟩ := Array.getElem?_eq_some_iff.1 hempty
  have hb : fs.bytes id = .empty := by
    rw [Files.bytes, Array.getD, dif_pos hs]
    exact hbytes
  have hr := holds_empty (r := describe name columns path) hfind hs hb rfl
  rw [createIfMissing_of_find (r := describe name columns path) hfind, hr.opening] at h
  cases h
  exact hr.working

theorem Working.inserted (hr : r.Working fs) (row : Row) :
    ((insert row).apply r fs).2.1.Working ((insert row).apply r fs).2.2 := by
  obtain ⟨id, tape, hr, -⟩ := hr
  cases hd : r.record row with
  | error e =>
    rw [hr.insert_refused hd]
    exact hr.working
  | ok data =>
    obtain ⟨h, bytes, hx, hholds⟩ := hr.insert_stored hd
    rw [hx]
    exact ⟨id, _, hholds, rfl⟩

theorem Working.deleted (hr : r.Working fs) (h : Handle) :
    ((delete h).apply r fs).2.1.Working ((delete h).apply r fs).2.2 := by
  obtain ⟨id, tape, hr, -⟩ := hr
  by_cases hm : ∃ row, (h, row) ∈ tape.live
  · obtain ⟨row, hm⟩ := hm
    obtain ⟨bytes, hx, -, hholds⟩ := hr.delete hm
    rw [hx]
    exact ⟨id, _, hholds, rfl⟩
  · obtain ⟨e, hx⟩ := hr.delete_missing (not_exists.1 hm)
    rw [hx]
    exact hr.working

theorem Grown.working (hg : r.Grown fs) : r.Working fs := by
  induction hg with
  | made h => exact working_made h
  | adopted hfind hempty h => exact working_adopted hfind hempty h
  | inserted h row ih => exact ih.inserted row
  | deleted h handle ih => exact ih.deleted handle

/-! ## Storing in them -/

/-- A row that is refused is refused before anything is stored. -/
theorem Holds.storing_refused (hr : r.Holds fs id tape) (he : r.record row = .error e) :
    (storing row).apply r fs = (.error e, r.openAt id (blockCount (fs.bytes id)), fs) := by
  have hlook : (Act.look fun r _ => r.record row).apply (r.openAt id (blockCount (fs.bytes id))) fs =
      (.error e, r.openAt id (blockCount (fs.bytes id)), fs) := by
    rw [apply_look]
    exact congrArg (·, _, _) he
  rw [storing, apply_bind_ok hr.opening, apply_bind_error hlook]

/-- A row that makes a record is stored alike, step by step or not. -/
theorem Holds.placed (hr : r.Holds fs id tape) (hd : r.record row = .ok data) : ∃ out,
    (insert row).apply r fs = out ∧ (storing row).apply r fs = out ∧
      Placed r id (blockCount (fs.bytes id)) fs data out := by
  obtain ⟨hc, he⟩ := record_eq_ok hd
  obtain ⟨out, happend, hplacing, hplaced⟩ := exists_placed he id (blockCount (fs.bytes id)) fs
  refine ⟨out, ?_, ?_, hplaced⟩
  · have hcomplete : (r.openAt id (blockCount (fs.bytes id))).complete row = .ok (Row.filled r.columns row) := hc
    rw [insert, apply_bind_ok hr.opening, ← happend, apply_change, apply_change, hcomplete]
    rfl
  · have hlook : (Act.look fun r _ => r.record row).apply (r.openAt id (blockCount (fs.bytes id))) fs =
        (.ok data, r.openAt id (blockCount (fs.bytes id)), fs) := by
      rw [apply_look]
      exact congrArg (·, _, _) hd
    rw [storing, apply_bind_ok hr.opening, apply_bind_ok hlook, hplacing]

/-- All blocks can be read, so a record that is placed gets a handle. -/
theorem Holds.exists_handle {out : Except StorageError Handle × Relation × Files} (hr : r.Holds fs id tape)
    (hopen : r.file.file = some id) (hplaced : Placed r id (blockCount (fs.bytes id)) fs data out) :
    ∃ h r' fs', out = (.ok h, r', fs') ∧ r'.file.last = h.block ∧
      ((∃ page, r.file.get fs r.file.last = .ok page ∧ page.hasRoom data.size = true) ∧ h.block = r.file.last ∨
        (∀ page, r.file.get fs r.file.last = .ok page → page.hasRoom data.size = false) ∧
          h.block = r.file.last + 1) := by
  have hself := hr.openAt_eq hopen
  have hlast : r.file.last = blockCount (fs.bytes id) := congrArg (·.file.last) hself.symm
  cases hplaced with
  | unreadable hn hget =>
    cases hget.symm.trans (Heap.BlockFile.get_openAt (Nat.pos_of_ne_zero hn) (Nat.le_refl _))
  | inLast hget hroom =>
    rw [hself, ← hlast] at hget
    exact ⟨_, _, _, rfl, rfl, .inl ⟨⟨_, hget, hroom⟩, hlast.symm⟩⟩
  | inNew hfull =>
    rw [hself, ← hlast] at hfull
    exact ⟨_, _, _, rfl, rfl, .inr ⟨hfull, congrArg (· + 1) hlast.symm⟩⟩

/-- A row is stored as a whole or not at all. Inserting is storing step by step, where a change once made is never taken
back; where it fails, no block is new and none has changed, and the row is what is at fault, never that there is no room
for it. A row that makes a record is stored in the last block, or in a new one if the last block has no room. -/
theorem insert_whole (hg : r.Grown fs) (row : Row) :
    (insert row).apply r fs = (storing row).apply r fs ∧
      (∀ e r' fs', (insert row).apply r fs = (.error e, r', fs') →
        r' = r ∧ fs' = fs ∧ r.record row = .error e ∧ ∀ block size, e ≠ .noRoom block size) ∧
      ∀ data, r.record row = .ok data → ∃ h r' fs', (insert row).apply r fs = (.ok h, r', fs') ∧
        r'.file.last = h.block ∧
          ((∃ page, r.file.get fs r.file.last = .ok page ∧ page.hasRoom data.size = true) ∧
              h.block = r.file.last ∨
            (∀ page, r.file.get fs r.file.last = .ok page → page.hasRoom data.size = false) ∧
              h.block = r.file.last + 1) := by
  obtain ⟨id, tape, hr, hopen⟩ := hg.working
  cases hd : r.record row with
  | error e =>
    have hinsert := hr.insert_refused hd
    have hstoring := hr.storing_refused hd
    rw [hr.openAt_eq hopen] at hinsert hstoring
    refine ⟨hinsert.trans hstoring.symm, fun e' r' fs' h => ?_, fun data h => by cases h⟩
    cases hinsert.symm.trans h
    refine ⟨rfl, rfl, rfl, fun block size he => ?_⟩
    subst he
    rcases record_eq_error hd with ⟨_, h⟩ | ⟨_, h⟩ <;> cases h
  | ok data =>
    obtain ⟨out, hinsert, hstoring, hplaced⟩ := hr.placed hd
    obtain ⟨h, r', fs', rfl, hplace⟩ := hr.exists_handle hopen hplaced
    refine ⟨hinsert.trans hstoring.symm, fun e _ _ herror => ?_, fun data' hdata => ?_⟩
    · cases hinsert.symm.trans herror
    · cases hdata
      exact ⟨h, r', fs', hinsert, hplace⟩

/-- A relation that was just made takes a row, and refuses one with a column that it does not have. -/
theorem insert_whole_made :
    let s := create.apply (describe "t" [⟨"a", { kind := .int }⟩] "t.db") (.fresh [])
    s.1 = .ok () ∧
      (∃ e, (insert (.ofList [("b", .integer 1)])).apply s.2.1 s.2.2 = (.error e, s.2.1, s.2.2)) ∧
      ∃ h r' fs', (insert (.ofList [("a", .integer 1)])).apply s.2.1 s.2.2 = (.ok h, r', fs') ∧
        r'.file.last = h.block := by
  intro s
  have hmade : s.1 = .ok () := by decide +kernel
  have hx : create.apply (describe "t" [⟨"a", { kind := .int }⟩] "t.db") (.fresh []) = (.ok (), s.2.1, s.2.2) :=
    Prod.ext hmade rfl
  have hg : Grown s.2.1 s.2.2 := .made hx
  refine ⟨hmade, ?_, ?_⟩
  · have hfails : ((insert (.ofList [("b", .integer 1)])).apply s.2.1 s.2.2).1.toOption = none := by decide +kernel
    generalize hx : (insert (.ofList [("b", .integer 1)])).apply s.2.1 s.2.2 = out at hfails ⊢
    obtain ⟨_ | h, r', fs'⟩ := out
    · obtain ⟨rfl, rfl, -⟩ := (insert_whole hg _).2.1 _ _ _ hx
      exact ⟨_, rfl⟩
    · cases hfails
  · obtain ⟨h, r', fs', hx, hlast, -⟩ := (insert_whole hg (.ofList [("a", .integer 1)])).2.2 ⟨#[1, 1, 0, 0, 0]⟩
      (by decide +kernel)
    exact ⟨h, r', fs', hx, hlast⟩

end Rowbase.Relation
