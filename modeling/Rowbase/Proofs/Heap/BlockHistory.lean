import Rowbase.Proofs.Heap.Relation
import Rowbase.Proofs.Sites

/-! # A file of blocks keeps the pages that were written last

Whatever is done with a file of blocks, made, opened, closed, removed or described anew, it behaves as the list of the
pages that were written into it: a block reads as the page that was written there last, and writing a page leaves all
other blocks alone. The list is kept beside the run, from what the calls return alone. Nothing is asked of the bytes
that are in the file when the run starts; they may end in the middle of a block. -/
namespace Rowbase.Heap

variable {bytes : ByteArray} {p : Page} {written : List Page} {block other : Nat}

/-! ## The bytes of a file with a page written into it -/

/-- The bytes with a page written where it belongs, behind zeros if they do not reach so far. -/
def withPage (bytes : ByteArray) (p : Page) : ByteArray :=
  Bytes.overwrite (bytes ++ Bytes.zeros (BlockFile.offset p.block + p.bytes.size - bytes.size))
    (BlockFile.offset p.block) p.bytes

/-- The bytes of a block, as far as there are any. -/
def blockBytes (bytes : ByteArray) (block : Nat) : ByteArray :=
  bytes.extract (BlockFile.offset block) (BlockFile.offset block + blockSize)

theorem pageAt_withPage_self (bytes : ByteArray) (p : Page) : pageAt (withPage bytes p) p.block = p := by
  refine pageAt_eq rfl ?_
  rw [← p.size_bytes]
  refine Bytes.extract_overwrite_self ?_
  rw [ByteArray.size_append, Bytes.size_zeros]
  omega

/-- A page is written over one that was there, or becomes the last. -/
theorem blockCount_withPage (h1 : 1 ≤ p.block) :
    blockCount (withPage bytes p) = max (blockCount bytes) p.block := by
  rw [blockCount, withPage, Bytes.size_overwrite, ByteArray.size_append, Bytes.size_zeros, p.size_bytes,
    blockCount, BlockFile.offset, blockSize]
  omega

/-- The bytes of all other blocks stay, those behind the last whole block too. -/
theorem blockBytes_withPage_of_ne (h1 : 1 ≤ p.block) (h2 : p.block ≤ blockCount bytes + 1) (ho : 1 ≤ other)
    (hne : other ≠ p.block) : blockBytes (withPage bytes p) other = blockBytes bytes other := by
  have hbeside : BlockFile.offset other + blockSize ≤ BlockFile.offset p.block ∨
      BlockFile.offset p.block + p.bytes.size ≤ BlockFile.offset other := by
    rw [p.size_bytes, BlockFile.offset, BlockFile.offset, blockSize]
    omega
  have hreached : BlockFile.offset p.block ≤ bytes.size := by
    rw [blockCount, blockSize] at h2
    rw [BlockFile.offset, blockSize]
    omega
  -- the page leaves no gap, so the zeros lie behind the start of the page and not behind its end
  have hzeros : (Bytes.zeros (BlockFile.offset p.block + p.bytes.size - bytes.size)).extract
      (BlockFile.offset other - bytes.size) (BlockFile.offset other + blockSize - bytes.size) = .empty := by
    rw [← ByteArray.size_eq_zero_iff, ByteArray.size_extract, Bytes.size_zeros]
    omega
  rw [blockBytes, withPage, Bytes.extract_overwrite_of_disjoint ?_ hbeside, ByteArray.extract_append, hzeros,
    ByteArray.append_empty, blockBytes]
  rw [ByteArray.size_append, Bytes.size_zeros]
  omega

/-- Whether the page that was written last into each block is the one that lies there, and none lies elsewhere. -/
def Shows (written : List Page) (bytes : ByteArray) : Prop :=
  ∀ block, written.find? (fun p => p.block = block) =
    if 1 ≤ block ∧ block ≤ blockCount bytes then some (pageAt bytes block) else none

/-- The pages that bytes have as their blocks. -/
def pages (bytes : ByteArray) : List Page := (List.range' 1 (blockCount bytes)).map (pageAt bytes)

theorem shows_pages (bytes : ByteArray) : Shows (pages bytes) bytes := by
  intro block
  cases hfound : (pages bytes).find? (fun p => p.block = block) with
  | none =>
    rw [if_neg]
    rintro ⟨h1, h2⟩
    have hmem : pageAt bytes block ∈ pages bytes :=
      List.mem_map_of_mem (List.mem_range'_1.2 ⟨h1, by omega⟩)
    exact List.find?_eq_none.1 hfound _ hmem (decide_eq_true (block_pageAt bytes block))
  | some p =>
    obtain ⟨i, hi, rfl⟩ := List.mem_map.1 (List.mem_of_find?_eq_some hfound)
    have hb := List.find?_some hfound
    obtain rfl : (pageAt bytes i).block = block := of_decide_eq_true hb
    rw [block_pageAt]
    obtain ⟨h1, h2⟩ := List.mem_range'_1.1 hi
    rw [if_pos ⟨h1, by omega⟩]

theorem Shows.write (hs : Shows written bytes) (h1 : 1 ≤ p.block) (h2 : p.block ≤ blockCount bytes + 1) :
    Shows (p :: written) (withPage bytes p) := by
  intro block
  rw [blockCount_withPage h1, List.find?_cons]
  by_cases hb : p.block = block
  · subst hb
    rw [decide_eq_true rfl, if_pos ⟨h1, Nat.le_max_right ..⟩, pageAt_withPage_self]
  · rw [decide_eq_false hb]
    dsimp only
    rw [hs block]
    by_cases ho : 1 ≤ block
    · have hpage : pageAt (withPage bytes p) block = pageAt bytes block :=
        pageAt_congr (blockBytes_withPage_of_ne h1 h2 ho (Ne.symm hb))
      rw [hpage]
      congr 1
      exact propext ⟨by omega, by omega⟩
    · rw [if_neg (fun h => ho h.1), if_neg (fun h => ho h.1)]

namespace BlockFile

/-! ## Calls

What each call does, one step after the other. -/

def opening : Act StorageError BlockFile Unit := .change fun b fs => do return ((), ← b.opened fs, fs)

def getting (block : Nat) : Act StorageError BlockFile Page := .look fun b fs => b.get fs block

def putting (p : Page) : Act StorageError BlockFile Unit := .change fun b fs => do return ((), b, ← b.put fs p)

/-- The new block is written, and counted after that. -/
def growing : Act StorageError BlockFile Page := do
  let p ← .look fun b _ => .ok (Page.blank (b.last + 1))
  putting p
  .update fun b => { b with last := p.block }
  return p

/-- Makes the file, with nothing in it. -/
def making : Act StorageError BlockFile Nat := .change fun b fs =>
  match fs.create b.path with
  | .error .alreadyExists => .error (.relation (.relationExists b.relation))
  | .error e => .error (.file e)
  | .ok (id, fs) => .ok (id, b, fs)

/-- The file is made and open before the first block is written. -/
def creating : Act StorageError BlockFile Unit := do
  let id ← making
  .update fun b => { b with file := some id, last := 0 }
  discard growing

/-- The file is closed and its blocks are forgotten before it is removed. -/
def dropping : Act StorageError BlockFile Unit := do
  .update dropped
  .change fun b fs => do return ((), b, ← b.remove fs)

/-- Adding a block is one change. -/
theorem growing_eq : growing = .change grow := by
  funext ⟨b, fs⟩
  change growing.apply b fs = (Act.change grow).apply b fs
  rw [growing, Act.apply_bind, Act.apply_look]
  dsimp only
  rw [Act.apply_bind, putting, Act.apply_change, Act.apply_change, grow]
  cases b.put fs (Page.blank (b.last + 1)) <;> rfl

/-- Making a file is one change, because a file that was made can be written. -/
theorem creating_eq : creating = .change fun b fs => do
    let (b, fs) ← b.create fs
    return ((), b, fs) := by
  funext ⟨b, fs⟩
  change creating.apply b fs = (Act.change _).apply b fs
  rw [creating, Act.apply_bind, making, Act.apply_change, Act.apply_change, create]
  cases fs.create b.path with
  | error e => cases e <;> rfl
  | ok made => rfl

theorem apply_creating (b : BlockFile) (fs : Files) : creating.apply b fs = match b.create fs with
    | .ok (b', fs') => (.ok (), b', fs')
    | .error e => (.error e, b, fs) := by
  rw [creating_eq, Act.apply_change]
  cases b.create fs <;> rfl

/-! ## Runs -/

/-- What can be done with a file of blocks. -/
inductive Op where
  | create
  | opening
  | close
  | grow
  | put (p : Page)
  | get (block : Nat)
  | drop
  /-- The file at the path is described anew, for some relation, and is not open then. -/
  | renew (relation : String)

/-- A file of blocks during a run, with what the run has written. -/
structure Trace where
  file : BlockFile
  files : Files
  /-- The pages that were written into the file since it was made, the last first. -/
  written : List Page

/-- The trace after a call, which has written nothing if it fails. -/
def Trace.after (t : Trace) (x : Act StorageError BlockFile α) (write : α → List Page → List Page) : Trace :=
  match x.apply t.file t.files with
  | (.ok a, file, files) => ⟨file, files, write a t.written⟩
  | (.error _, file, files) => ⟨file, files, t.written⟩

/-- The trace after something was done with the file. -/
def Trace.step (t : Trace) : Op → Trace
  | .create => t.after creating fun _ _ => [.blank 1]
  | .opening => t.after opening fun _ written => written
  | .close => t.after (.update closed) fun _ written => written
  | .grow => t.after growing fun p written => p :: written
  | .put p => t.after (putting p) fun _ written => p :: written
  | .get block => t.after (getting block) fun _ written => written
  | .drop => t.after dropping fun _ _ => []
  | .renew relation => { t with file := { relation, path := t.file.path } }

/-- The trace after a run. -/
def Trace.run (t : Trace) (ops : List Op) : Trace := ops.foldl step t

/-- Where a run starts: the file is not open, and if it is there it has some pages. -/
def Trace.start (relation path : String) (fs : Files) : Trace where
  file := { relation, path }
  files := fs
  written := match fs.read path with
    | .ok bytes => pages bytes
    | .error _ => []

/-- Whether something may be done with the file: a page is put only where the file lists a block. -/
def Op.Fits (b : BlockFile) : Op → Prop
  | .put p => p.block ∈ b.blocks
  | _ => True

/-- Whether whatever is done during a run may be done at its time. -/
def Trace.Allows (t : Trace) : List Op → Prop
  | [] => True
  | op :: ops => op.Fits t.file ∧ (t.step op).Allows ops

instance (b : BlockFile) : DecidablePred (Op.Fits b)
  | .put p => inferInstanceAs (Decidable (p.block ∈ b.blocks))
  | .create | .opening | .close | .grow | .get _ | .drop | .renew _ => isTrue trivial

instance Trace.decidableAllows : (t : Trace) → DecidablePred t.Allows
  | _, [] => isTrue trivial
  | t, op :: ops =>
    have := decidableAllows (t.step op) ops
    inferInstanceAs (Decidable (op.Fits t.file ∧ (t.step op).Allows ops))

/-- The page that was written last into a block. -/
def Trace.lastWritten (t : Trace) (block : Nat) : Option Page := t.written.find? fun p => p.block = block

/-- The bytes that the file has for a block. -/
def Trace.blockBytes (t : Trace) (block : Nat) : Except Files.Fault ByteArray := do
  return Heap.blockBytes (← t.files.read t.file.path) block

/-- Whether the file keeps its word: what it says of itself, what can be read of it, and what a call leaves alone. -/
structure Trace.Faithful (t : Trace) : Prop where
  /-- While the file is open, the number of its last block is that of its whole blocks. -/
  last : t.file.isOpen = true →
    ∃ bytes, t.files.read t.file.path = .ok bytes ∧ t.file.last = bytes.size / 4096
  /-- Just the blocks of an open file can be read. -/
  get_iff : ∀ block, (∃ p, t.file.get t.files block = .ok p) ↔
    t.file.isOpen = true ∧ 1 ≤ block ∧ block ≤ t.file.last
  /-- What is read from a block is what was written there last. -/
  get_written : ∀ block p, t.file.get t.files block = .ok p → t.lastWritten block = some p
  /-- While the file is open, a block can be added, and pages can be put. -/
  writes : t.file.isOpen = true →
    (growing.apply t.file t.files).1 = .ok (.blank (t.file.last + 1)) ∧
      ∀ p, ((putting p).apply t.file t.files).1 = .ok ()
  /-- No block but the new one is changed. -/
  grow_other : ∀ block, 1 ≤ block → block ≠ t.file.last + 1 →
    (t.step .grow).blockBytes block = t.blockBytes block
  /-- No block but that of the page is changed. -/
  put_other : ∀ p, p.block ∈ t.file.blocks → ∀ block, 1 ≤ block → block ≠ p.block →
    (t.step (.put p)).blockBytes block = t.blockBytes block
  /-- Where the file is there, it is not made. -/
  create_there : ∀ id, t.files.find t.file.path = .ok id →
    (creating.apply t.file t.files).1 = .error (.relation (.relationExists t.file.relation))
  /-- If the file is not made, nothing is changed. -/
  create_refused : ∀ e, (creating.apply t.file t.files).1 = .error e →
    (creating.apply t.file t.files).2 = (t.file, t.files)

/-! ## Calls on a file that is open, and on one that is not -/

variable {b : BlockFile} {fs fs' : Files} {id n : Nat}

theorem openAt_eq (hf : b.file = some id) (hn : b.last = n) : b.openAt id n = b := by
  rw [openAt, ← hf, ← hn]

theorem file_of_not_isOpen (h : ¬ b.isOpen = true) : b.file = none := by
  rwa [isOpen, Option.isSome_iff_ne_none, not_not] at h

theorem openFile_of_closed (h : b.file = none) : b.openFile = .error (.relation (.notOpen b.relation)) := by
  rw [openFile, h]

theorem put_of_closed (h : b.file = none) (fs : Files) (p : Page) :
    b.put fs p = .error (.relation (.notOpen b.relation)) := by
  rw [put, openFile_of_closed h]
  rfl

theorem grow_of_closed (h : b.file = none) (fs : Files) :
    b.grow fs = .error (.relation (.notOpen b.relation)) := by
  rw [grow, put_of_closed h]
  rfl

theorem get_of_closed (h : b.file = none) : b.get fs block ≠ .ok p := by
  intro hget
  rw [get, openFile_of_closed h] at hget
  split at hget <;> cases hget

theorem put_withPage (b : BlockFile) (id n : Nat) (fs : Files) (p : Page) :
    (b.openAt id n).put fs p = .ok (fs.setBytes id (withPage (fs.bytes id) p)) := rfl

theorem grow_withPage (b : BlockFile) (id n : Nat) (fs : Files) :
    (b.openAt id n).grow fs = .ok (Page.blank (n + 1), b.openAt id (n + 1),
      fs.setBytes id (withPage (fs.bytes id) (Page.blank (n + 1)))) := rfl

theorem opened_of_find (hf : b.file = none) (hfind : fs.find b.path = .ok id) :
    b.opened fs = .ok (b.openAt id (blockCount (fs.bytes id))) := by
  rw [opened, isOpen, hf]
  simp only [Option.isSome_none, Bool.false_eq_true, if_false, hfind]
  rfl

theorem opened_of_missing (hf : b.file = none) (hfind : ∀ id, fs.find b.path ≠ .ok id) :
    ∃ e, b.opened fs = .error e := by
  rw [opened, isOpen, hf]
  simp only [Option.isSome_none, Bool.false_eq_true, if_false]
  split
  · exact ⟨_, rfl⟩
  · exact ⟨_, rfl⟩
  · rename_i hok
    exact absurd hok (hfind _)

theorem create_of_find (hfind : fs.find b.path = .ok id) :
    b.create fs = .error (.relation (.relationExists b.relation)) := by
  rw [create, Files.alreadyExists_of_find hfind]

theorem create_of_error {fault : Files.Fault} (h : fs.create b.path = .error fault) :
    ∃ e, b.create fs = .error e := by
  rw [create, h]
  cases fault <;> exact ⟨_, rfl⟩

theorem create_withPage (h : fs.create b.path = .ok (id, fs')) :
    b.create fs = .ok (b.openAt id 1, fs'.setBytes id (withPage (fs'.bytes id) (.blank 1))) :=
  create_of_grow h (grow_withPage b id 0 fs')

/-! ## What every call keeps -/

/-- How the file, the file system and the pages that were written belong together. -/
inductive Trace.Sound (t : Trace) : Prop
  /-- The file is not there, so it is not open and no page lies in it. -/
  | absent (missing : ∀ id, t.files.find t.file.path ≠ .ok id) (closed : t.file.file = none)
      (written : t.written = [])
  /-- The file is there and shows what was written. If it is open, it is this one, and its blocks are counted. -/
  | present (id : Nat) (find : t.files.find t.file.path = .ok id) (stored : id < t.files.contents.size)
      (file : t.file.file = none ∨ t.file.file = some id ∧ t.file.last = blockCount (t.files.bytes id))
      (shows : Shows t.written (t.files.bytes id))

variable {t : Trace} {op : Op} {ops : List Op}

/-! ### What a step is, taken as one change -/

theorem Trace.step_create (t : Trace) : t.step .create = match t.file.create t.files with
    | .ok (b, fs) => ⟨b, fs, [.blank 1]⟩
    | .error _ => t := by
  rw [step, after, apply_creating]
  cases t.file.create t.files <;> rfl

theorem Trace.step_opening (t : Trace) : t.step .opening = match t.file.opened t.files with
    | .ok b => { t with file := b }
    | .error _ => t := by
  rw [step, after, opening, Act.apply_change]
  cases t.file.opened t.files <;> rfl

theorem Trace.step_grow (t : Trace) : t.step .grow = match t.file.grow t.files with
    | .ok (p, b, fs) => ⟨b, fs, p :: t.written⟩
    | .error _ => t := by
  rw [step, after, growing_eq, Act.apply_change]
  cases t.file.grow t.files <;> rfl

theorem Trace.step_put (t : Trace) (p : Page) : t.step (.put p) = match t.file.put t.files p with
    | .ok fs => ⟨t.file, fs, p :: t.written⟩
    | .error _ => t := by
  rw [step, after, putting, Act.apply_change]
  cases t.file.put t.files p <;> rfl

theorem Trace.step_get (t : Trace) (block : Nat) : t.step (.get block) = t := by
  rw [step, after, getting, Act.apply_look]
  cases t.file.get t.files block <;> rfl

theorem Trace.step_drop (t : Trace) : t.step .drop = match t.file.remove t.files with
    | .ok fs => ⟨t.file.dropped, fs, []⟩
    | .error _ => ⟨t.file.dropped, t.files, t.written⟩ := by
  have hremove : t.file.dropped.remove t.files = t.file.remove t.files := rfl
  rw [step, after, dropping, Act.apply_bind_ok (Act.apply_update _ _ _), Act.apply_change, hremove]
  cases t.file.remove t.files <;> rfl

/-! ### One step -/

/-- Writing a page into the file, over another one or behind all others, shows it. -/
theorem Trace.Sound.write (hfind : fs.find b.path = .ok id) (hstored : id < fs.contents.size)
    (hshows : Shows written (fs.bytes id)) (h1 : 1 ≤ p.block) (h2 : p.block ≤ blockCount (fs.bytes id) + 1)
    (hn : n = max (blockCount (fs.bytes id)) p.block) :
    Sound ⟨b.openAt id n, fs.setBytes id (withPage (fs.bytes id) p), p :: written⟩ := by
  have hbytes := Files.bytes_setBytes_self hstored (b := withPage (fs.bytes id) p)
  refine .present id (Files.find_setBytes.trans hfind) ?_ (.inr ⟨rfl, ?_⟩) ?_
  · rw [Files.size_setBytes]
    exact hstored
  · rw [hbytes, blockCount_withPage h1]
    exact hn
  · rw [hbytes]
    exact hshows.write h1 h2

theorem Trace.Sound.create (h : t.Sound) : (t.step .create).Sound := by
  rw [step_create]
  cases h with
  | present id find stored file shows =>
    rw [create_of_find find]
    exact .present id find stored file shows
  | absent missing closed written =>
    cases hmade : t.files.create t.file.path with
    | error fault =>
      obtain ⟨e, he⟩ := create_of_error hmade
      rw [he]
      exact .absent missing closed written
    | ok made =>
      obtain ⟨id, fs⟩ := made
      rw [create_withPage hmade]
      obtain ⟨names, hl, hnone, rfl, rfl⟩ := Files.create_eq_ok.1 hmade
      have hempty : (t.files.push names .empty).bytes t.files.contents.size = .empty := Files.bytes_push_self
      refine .write (Files.find_push (Files.locateFile_eq_ok.1 hl).2 hnone) ?_ ?_ (Nat.le_refl 1) ?_ ?_
      · rw [Files.size_push]
        exact Nat.lt_succ_self _
      · rw [hempty]
        exact shows_pages .empty
      · exact Nat.succ_le_succ (Nat.zero_le _)
      · rw [hempty]
        rfl

theorem Trace.Sound.opening (h : t.Sound) : (t.step .opening).Sound := by
  rw [step_opening]
  cases h with
  | absent missing closed written =>
    obtain ⟨e, he⟩ := opened_of_missing closed missing
    rw [he]
    exact .absent missing closed written
  | present id find stored file shows =>
    rcases file with closed | ⟨hid, hlast⟩
    · rw [opened_of_find closed find]
      exact .present id find stored (.inr ⟨rfl, rfl⟩) shows
    · have hopen : t.file.opened t.files = .ok t.file := by
        rw [opened, isOpen, hid]
        rfl
      rw [hopen]
      exact .present id find stored (.inr ⟨hid, hlast⟩) shows

theorem Trace.Sound.close (h : t.Sound) : (t.step .close).Sound := by
  cases h with
  | absent missing _ written => exact .absent missing rfl written
  | present id find stored _ shows => exact .present id find stored (.inl rfl) shows

theorem Trace.Sound.grow (h : t.Sound) : (t.step .grow).Sound := by
  rw [step_grow]
  cases h with
  | absent missing closed written =>
    rw [grow_of_closed closed]
    exact .absent missing closed written
  | present id find stored file shows =>
    rcases file with closed | ⟨hid, hlast⟩
    · rw [grow_of_closed closed]
      exact .present id find stored (.inl closed) shows
    · rw [← openAt_eq hid hlast, grow_withPage]
      refine .write find stored shows (Nat.le_add_left ..) (Nat.le_refl _) ?_
      exact (Nat.max_eq_right (Nat.le_succ _)).symm

theorem Trace.Sound.put (h : t.Sound) (hp : p.block ∈ t.file.blocks) : (t.step (.put p)).Sound := by
  rw [step_put]
  cases h with
  | absent missing closed written =>
    rw [put_of_closed closed]
    exact .absent missing closed written
  | present id find stored file shows =>
    rcases file with closed | ⟨hid, hlast⟩
    · rw [put_of_closed closed]
      exact .present id find stored (.inl closed) shows
    · obtain ⟨h1, h2⟩ := List.mem_range'_1.1 hp
      rw [hlast] at h2
      rw [← openAt_eq hid hlast, put_withPage]
      exact .write find stored shows h1 (by omega) (Nat.max_eq_left (by omega)).symm

theorem Trace.Sound.drop (h : t.Sound) : (t.step .drop).Sound := by
  rw [step_drop, remove]
  cases hr : t.files.remove t.file.path with
  | ok fs =>
    have hgone := Files.find_of_removed hr
    exact .absent (fun id hfind => nomatch hgone.symm.trans hfind) rfl rfl
  | error fault =>
    have hmissing : ∀ id, t.files.find t.file.path ≠ .ok id := fun id => Files.find_ne_of_remove hr
    have hwritten : t.written = [] := by
      cases h with
      | absent _ _ written => exact written
      | present id find => exact absurd find (hmissing id)
    rw [hwritten]
    cases fault <;> exact .absent hmissing rfl rfl

theorem Trace.Sound.renew (h : t.Sound) (relation : String) : (t.step (.renew relation)).Sound := by
  cases h with
  | absent missing _ written => exact .absent missing rfl written
  | present id find stored _ shows => exact .present id find stored (.inl rfl) shows

/-- Whatever may be done keeps the file and the written pages together. -/
theorem Trace.Sound.step (h : t.Sound) (hfits : op.Fits t.file) : (t.step op).Sound := by
  cases op with
  | create => exact h.create
  | opening => exact h.opening
  | close => exact h.close
  | grow => exact h.grow
  | put p => exact h.put hfits
  | get block => rwa [step_get]
  | drop => exact h.drop
  | renew relation => exact h.renew relation

/-! ## What a run keeps -/

theorem Trace.sound_start (relation path : String) {fs : Files}
    (hstored : ∀ id, fs.find path = .ok id → id < fs.contents.size) : (start relation path fs).Sound := by
  cases hfind : fs.find path with
  | error fault =>
    refine .absent (fun id hfound => nomatch hfind.symm.trans hfound) rfl ?_
    rw [start, Files.read, hfind]
    rfl
  | ok id =>
    refine .present id hfind (hstored id hfind) (.inl rfl) ?_
    have hread : fs.read path = .ok (fs.bytes id) := by
      rw [Files.read, hfind]
      rfl
    rw [start, hread]
    exact shows_pages _

theorem Trace.Sound.run (h : t.Sound) (hops : t.Allows ops) : (t.run ops).Sound := by
  induction ops generalizing t with
  | nil => exact h
  | cons op ops ih => exact ih (h.step hops.1) hops.2

/-! ## What a sound trace is good for -/

/-- A file that is open is there, and shows what was written. -/
theorem Trace.Sound.of_open (h : t.Sound) (hopen : t.file.isOpen = true) :
    ∃ id, t.files.find t.file.path = .ok id ∧ id < t.files.contents.size ∧
      t.file = t.file.openAt id (blockCount (t.files.bytes id)) ∧ Shows t.written (t.files.bytes id) := by
  have hne : t.file.file ≠ none := Option.isSome_iff_ne_none.1 hopen
  cases h with
  | absent _ closed => exact absurd closed hne
  | present id find stored file shows =>
    obtain ⟨hid, hlast⟩ := file.resolve_left hne
    exact ⟨id, find, stored, (openAt_eq hid hlast).symm, shows⟩

/-- Reading a block succeeds just if the file is open and has the block, and returns what was written there last. -/
theorem Trace.Sound.get_eq_ok (h : t.Sound) : t.file.get t.files block = .ok p ↔
    (t.file.isOpen = true ∧ 1 ≤ block ∧ block ≤ t.file.last) ∧ t.lastWritten block = some p := by
  by_cases hopen : t.file.isOpen = true
  · obtain ⟨id, -, -, hself, hshows⟩ := h.of_open hopen
    have hlast : t.file.last = blockCount (t.files.bytes id) := by rw [hself]; rfl
    by_cases hb : 1 ≤ block ∧ block ≤ blockCount (t.files.bytes id)
    · rw [lastWritten, hshows block, if_pos hb, hlast, and_iff_right ⟨hopen, hb⟩, hself, get_openAt hb.1 hb.2]
      exact ⟨fun h => congrArg some (Except.ok.inj h), fun h => congrArg Except.ok (Option.some.inj h)⟩
    · refine iff_of_false ?_ fun hok => hb ⟨hok.1.2.1, hlast ▸ hok.1.2.2⟩
      rw [hself, get_openAt_of_gt (by omega)]
      exact nofun
  · exact iff_of_false (get_of_closed (file_of_not_isOpen hopen)) fun hok => hopen hok.1.1

theorem Trace.Sound.exists_lastWritten (h : t.Sound) (hopen : t.file.isOpen = true) (h1 : 1 ≤ block)
    (h2 : block ≤ t.file.last) : ∃ p, t.lastWritten block = some p := by
  obtain ⟨id, -, -, hself, hshows⟩ := h.of_open hopen
  rw [hself] at h2
  exact ⟨_, (hshows block).trans (if_pos ⟨h1, h2⟩)⟩

theorem Trace.blockBytes_of_find (hfind : t.files.find t.file.path = .ok id) (block : Nat) :
    t.blockBytes block = .ok (Heap.blockBytes (t.files.bytes id) block) := by
  rw [Trace.blockBytes, Files.read, hfind]
  rfl

/-- Writing a page into the file changes no other block of it. -/
theorem Trace.blockBytes_write (hfind : t.files.find t.file.path = .ok id) (hstored : id < t.files.contents.size)
    (h1 : 1 ≤ p.block) (h2 : p.block ≤ blockCount (t.files.bytes id) + 1) (ho : 1 ≤ other)
    (hne : other ≠ p.block) (hpath : b.path = t.file.path) :
    Trace.blockBytes ⟨b, t.files.setBytes id (withPage (t.files.bytes id) p), written⟩ other =
      t.blockBytes other := by
  generalize hfs : t.files.setBytes id (withPage (t.files.bytes id) p) = fs
  have hbytes : fs.bytes id = withPage (t.files.bytes id) p := by rw [← hfs, Files.bytes_setBytes_self hstored]
  have hfound : fs.find b.path = .ok id := by rw [← hfs, Files.find_setBytes, hpath, hfind]
  rw [blockBytes_of_find (t := ⟨b, fs, written⟩) hfound, blockBytes_of_find hfind, hbytes,
    blockBytes_withPage_of_ne h1 h2 ho hne]

theorem Trace.Sound.grow_other (h : t.Sound) (ho : 1 ≤ other) (hne : other ≠ t.file.last + 1) :
    (t.step .grow).blockBytes other = t.blockBytes other := by
  rw [step_grow]
  by_cases hopen : t.file.isOpen = true
  · obtain ⟨id, hfind, hstored, hself, -⟩ := h.of_open hopen
    have hgrow := grow_withPage t.file id (blockCount (t.files.bytes id)) t.files
    rw [← hself] at hgrow
    rw [hgrow]
    rw [hself] at hne
    exact blockBytes_write hfind hstored (Nat.le_add_left ..) (Nat.le_refl _) ho hne rfl
  · rw [grow_of_closed (file_of_not_isOpen hopen)]

theorem Trace.Sound.put_other (h : t.Sound) (hp : p.block ∈ t.file.blocks) (ho : 1 ≤ other)
    (hne : other ≠ p.block) : (t.step (.put p)).blockBytes other = t.blockBytes other := by
  rw [step_put]
  by_cases hopen : t.file.isOpen = true
  · obtain ⟨id, hfind, hstored, hself, -⟩ := h.of_open hopen
    have hput := put_withPage t.file id (blockCount (t.files.bytes id)) t.files p
    rw [← hself] at hput
    rw [hput]
    obtain ⟨h1, h2⟩ := List.mem_range'_1.1 hp
    rw [hself] at h2
    have h2 : p.block < 1 + blockCount (t.files.bytes id) := h2
    exact blockBytes_write hfind hstored h1 (by omega) ho hne rfl
  · rw [put_of_closed (file_of_not_isOpen hopen)]

theorem Trace.Sound.faithful (h : t.Sound) : t.Faithful where
  last hopen := by
    obtain ⟨id, hfind, -, hself, -⟩ := h.of_open hopen
    refine ⟨t.files.bytes id, ?_, by rw [hself]; rfl⟩
    rw [Files.read, hfind]
    rfl
  get_iff block := by
    simp only [h.get_eq_ok]
    constructor
    · rintro ⟨p, hok, -⟩
      exact hok
    · intro hok
      obtain ⟨p, hp⟩ := h.exists_lastWritten hok.1 hok.2.1 hok.2.2
      exact ⟨p, hok, hp⟩
  get_written block p hget := (h.get_eq_ok.1 hget).2
  writes hopen := by
    obtain ⟨id, -, -, hself, -⟩ := h.of_open hopen
    rw [hself, growing_eq]
    exact ⟨rfl, fun _ => rfl⟩
  grow_other _ := h.grow_other
  put_other _ hp _ := h.put_other hp
  create_there id hfind := by
    rw [apply_creating, create_of_find hfind]
  create_refused e he := by
    rw [apply_creating] at he ⊢
    cases hmade : t.file.create t.files with
    | error e' => rfl
    | ok made =>
      rw [hmade] at he
      cases he

/-- **A file of blocks keeps the pages that were written last.** Whatever is done with the file at a path, in whatever
order, it is faithful all along. A file that is there at the start must have bytes, whatever they are. -/
theorem faithful_blocks (relation path : String) {fs : Files}
    (hstored : ∀ id, fs.find path = .ok id → id < fs.contents.size) (ops : List Op)
    (hops : (Trace.start relation path fs).Allows ops) : ((Trace.start relation path fs).run ops).Faithful :=
  ((Trace.sound_start relation path hstored).run hops).faithful

/-- A page with some bytes of its own. -/
def scribbled (block : Nat) : Page := (Page.blank block).setBytes 100 ⟨#[1, 2, 3]⟩

/-- A run that writes into both blocks of a file, opens it under another description, and makes it anew. -/
def remade : List Op :=
  [.create, .create, .grow, .put (scribbled 2), .put (scribbled 1), .close, .renew "u", .opening, .drop, .create,
    .put (scribbled 1), .get 1]

theorem faithful_blocks_remade :
    (∀ id, Files.find (.fresh []) "t.db" = .ok id → id < (Files.fresh []).contents.size) ∧
      (Trace.start "t" "t.db" (.fresh [])).Allows remade ∧
      ((Trace.start "t" "t.db" (.fresh [])).run remade).Faithful := by
  have hmissing : Files.find (.fresh []) "t.db" = .error .notFound := by decide +kernel
  have hstored : ∀ id, Files.find (.fresh []) "t.db" = .ok id → id < (Files.fresh []).contents.size :=
    fun id hfound => nomatch hmissing.symm.trans hfound
  have hallows : (Trace.start "t" "t.db" (.fresh [])).Allows remade := by decide +kernel
  exact ⟨hstored, hallows, faithful_blocks "t" "t.db" hstored remade hallows⟩

end BlockFile

end Rowbase.Heap
