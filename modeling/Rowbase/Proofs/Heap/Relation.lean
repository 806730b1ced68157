import Rowbase.Proofs.Acts
import Rowbase.Proofs.Files
import Rowbase.Proofs.Heap.Blocks
import Rowbase.Proofs.Heap.Record

/-! # Relations as tapes

A relation holds a tape if its file is whole and intact and its records, read in their order, are
what the tape says. Inserting writes a row at the end of the tape, deleting clears one, and all else
leaves the tape as it is; an act that fails does too. -/
namespace Rowbase

namespace Heap.BlockFile

variable {b : BlockFile} {fs : Files} {id n block : Nat} {p : Page}

/-- The file, open under a number. -/
def openAt (b : BlockFile) (id last : Nat) : BlockFile := { b with file := some id, last }

theorem get_eq (b : BlockFile) (fs : Files) (h : ¬ (block = 0 ∨ n < block)) : (b.openAt id n).get fs block =
    (do return .ofBytes block (← (fs.readAt id (offset block) blockSize).mapError StorageError.file)) := by
  have hfile : (b.openAt id n).openFile = .ok id := rfl
  rw [get, if_neg (show ¬ (block = 0 ∨ (b.openAt id n).last < block) from h)]
  simp only [hfile, bind, Except.bind]

/-- Every whole block can be read, whatever lies in it and behind the last one. -/
theorem get_openAt (h1 : 1 ≤ block) (h2 : block ≤ blockCount (fs.bytes id)) :
    (b.openAt id (blockCount (fs.bytes id))).get fs block = .ok (pageAt (fs.bytes id) block) := by
  have hsize : ((fs.bytes id).extract (offset block) (offset block + blockSize)).size = blockSize := by
    have hle := offset_add_le h1 h2
    have hwhole : blockCount (fs.bytes id) * blockSize ≤ (fs.bytes id).size := Nat.div_mul_le_self ..
    rw [ByteArray.size_extract]
    omega
  have hread : fs.readAt id (offset block) blockSize =
      .ok ((fs.bytes id).extract (offset block) (offset block + blockSize)) := by
    rw [Files.readAt]
    exact if_pos hsize
  rw [get_eq b fs (by omega), hread]
  rfl

theorem get_openAt_of_gt (h : block = 0 ∨ n < block) :
    (b.openAt id n).get fs block = .error (.relation (.blockOutOfRange block b.relation)) := by
  change (if block = 0 ∨ n < block then _ else _) = _
  rw [if_pos h]
  rfl

theorem block_of_get (h : b.get fs block = .ok p) : p.block = block := by
  rw [get] at h
  split at h
  · cases h
  · obtain ⟨_, -, h⟩ := bind_eq_ok.1 h
    obtain ⟨_, -, h⟩ := bind_eq_ok.1 h
    cases h
    rfl

theorem put_eq (b : BlockFile) (id n : Nat) (fs : Files) (p : Page) :
    (b.openAt id n).put fs p = .ok (fs.writeAt id (offset p.block) p.bytes) := rfl

theorem put_openAt (hi : Intact (fs.bytes id)) (hb : p.block = block) (h1 : 1 ≤ block)
    (h2 : block ≤ blockCount (fs.bytes id)) :
    (b.openAt id n).put fs p =
      .ok (fs.setBytes id (Bytes.overwrite (fs.bytes id) (offset block) p.bytes)) := by
  have hle := offset_add_le h1 h2
  have hs := hi.size_eq
  have hz : offset block + p.bytes.size - (fs.bytes id).size = 0 := by
    rw [p.size_bytes]
    omega
  have hzeros : Bytes.zeros 0 = ByteArray.empty := rfl
  rw [put_eq, hb, Files.writeAt, hz, hzeros, ByteArray.append_empty]

/-- A new block comes right behind the others. -/
theorem grow_openAt (hi : Intact (fs.bytes id)) (hn : blockCount (fs.bytes id) = n) :
    (b.openAt id n).grow fs = .ok (Page.blank (n + 1), b.openAt id (n + 1),
      fs.setBytes id (fs.bytes id ++ (Page.blank (n + 1)).bytes)) := by
  have hb : (Page.blank (n + 1)).block = n + 1 := by
    rw [Page.blank, Page.block_setPair, Page.ofBytes]
  have hs : (Page.blank (n + 1)).bytes.size = blockSize := (Page.blank (n + 1)).size_bytes
  have ho : offset (Page.blank (n + 1)).block = (fs.bytes id).size := by
    rw [hb, offset, hi.size_eq, hn, Nat.add_sub_cancel]
  have hput : (b.openAt id n).put fs (Page.blank (n + 1)) =
      .ok (fs.setBytes id (fs.bytes id ++ (Page.blank (n + 1)).bytes)) := by
    rw [put_eq, ho, Files.writeAt, Bytes.overwrite_append _ _ _ (by omega)]
  rw [grow, show (b.openAt id n).last = n from rfl, hput]
  rfl

theorem create_of_grow {fs₁ fs₂ : Files} {b' : BlockFile} (hc : fs.create b.path = .ok (id, fs₁))
    (hg : (b.openAt id 0).grow fs₁ = .ok (p, b', fs₂)) : b.create fs = .ok (b', fs₂) := by
  have hg : grow { b with file := some id, last := 0 } fs₁ = .ok (p, b', fs₂) := hg
  simp only [create, hc, hg, bind, Except.bind]
  rfl

end Heap.BlockFile

namespace Relation

open Heap (blockCount)

variable {r : Relation} {fs fs' : Files} {id : Nat} {tape : Tape Row} {row full : Row} {h : Handle}
  {data : ByteArray}

/-- The relation with its file open under a number. -/
def openAt (r : Relation) (id last : Nat) : Relation := { r with file := r.file.openAt id last }

/-- Whether a relation lies in the file `id` and its records are what a tape says. Its file may be
open or not; how many blocks there are is only kept while it is. -/
structure Holds (r : Relation) (fs : Files) (id : Nat) (tape : Tape Row) : Prop where
  find : fs.find r.file.path = .ok id
  stored : id < fs.contents.size
  file : r.file.file = none ∨ r.file.file = some id ∧ r.file.last = blockCount (fs.bytes id)
  intact : Heap.Intact (fs.bytes id)
  reads : (Heap.slots (fs.bytes id)).image r.decode = tape.image .ok

/-- The relation holds the tape as long as its file stays what it is. -/
theorem Holds.frame (hr : r.Holds fs id tape) (hf : fs'.find r.file.path = .ok id)
    (hs : id < fs'.contents.size) (hb : fs'.bytes id = fs.bytes id) : r.Holds fs' id tape where
  find := hf
  stored := hs
  file := by rw [hb]; exact hr.file
  intact := by rw [hb]; exact hr.intact
  reads := by rw [hb]; exact hr.reads

/-- A relation of the same name, columns and path holds the same if it is not open. -/
theorem Holds.closed (hr : r.Holds fs id tape) {r' : Relation} (hn : r'.name = r.name)
    (hc : r'.columns = r.columns) (hp : r'.file.path = r.file.path) (hf : r'.file.file = none) :
    r'.Holds fs id tape where
  find := by rw [hp]; exact hr.find
  stored := hr.stored
  file := .inl hf
  intact := hr.intact
  reads := by
    have : r'.decode = r.decode := by
      funext data
      rw [decode, decode, hn, hc]
    rw [this]
    exact hr.reads

theorem Holds.openAt (hr : r.Holds fs id tape) :
    (r.openAt id (blockCount (fs.bytes id))).Holds fs id tape where
  find := hr.find
  stored := hr.stored
  file := .inr ⟨rfl, rfl⟩
  intact := hr.intact
  reads := hr.reads

/-- A relation whose file is empty holds nothing. -/
theorem holds_empty (hf : fs.find r.file.path = .ok id) (hs : id < fs.contents.size) (hb : fs.bytes id = .empty)
    (hc : r.file.file = none) : r.Holds fs id [] where
  find := hf
  stored := hs
  file := .inl hc
  intact := by rw [hb]; exact Heap.intact_empty
  reads := by rw [hb]; rfl

/-- A relation that is open is as it was opened. -/
theorem Holds.openAt_eq (hr : r.Holds fs id tape) (hf : r.file.file = some id) :
    r.openAt id (blockCount (fs.bytes id)) = r := by
  rcases hr.file with hc | ⟨-, hlast⟩
  · cases hc.symm.trans hf
  · rw [Relation.openAt, Heap.BlockFile.openAt, ← hlast, ← hf]

theorem Holds.handles_eq (hr : r.Holds fs id tape) :
    (Heap.slots (fs.bytes id)).handles = tape.handles := by
  rw [← Tape.handles_image r.decode, hr.reads, Tape.handles_image]

theorem Holds.ascending (hr : r.Holds fs id tape) : tape.Ascending :=
  (Tape.ascending_iff_of_handles hr.handles_eq).1 (Heap.ascending_slots _)

theorem Holds.block_le (hr : r.Holds fs id tape) (hm : h ∈ tape.handles) :
    1 ≤ h.block ∧ h.block ≤ blockCount (fs.bytes id) := by
  rw [← hr.handles_eq] at hm
  exact Heap.block_le_of_mem_slots hm

theorem Holds.live_eq (hr : r.Holds fs id tape) :
    (Heap.slots (fs.bytes id)).live.map (fun e => (e.1, r.decode e.2)) =
      tape.live.map fun e => (e.1, Except.ok e.2) := by
  rw [← Tape.live_image, hr.reads, Tape.live_image]

/-- Behind every live record there is a row. -/
theorem Holds.exists_row (hr : r.Holds fs id tape) (hs : (h, some data) ∈ Heap.slots (fs.bytes id)) :
    ∃ row, (h, row) ∈ tape.live ∧ r.decode data = .ok row := by
  have hl := List.mem_map_of_mem (f := fun e : Handle × ByteArray => (e.1, r.decode e.2))
    (Tape.mem_live.2 hs)
  rw [hr.live_eq] at hl
  obtain ⟨⟨h', row⟩, hm, he⟩ := List.mem_map.1 hl
  obtain ⟨he, hd⟩ := Prod.mk.inj he
  dsimp only at he hd
  subst he
  exact ⟨row, hm, hd.symm⟩

/-- A row is live just if its record is and reads as the row. -/
theorem Holds.mem_live (hr : r.Holds fs id tape) :
    (h, row) ∈ tape.live ↔
      ∃ data, (h, some data) ∈ Heap.slots (fs.bytes id) ∧ r.decode data = .ok row := by
  constructor
  · intro hm
    have hm := List.mem_map_of_mem (f := fun e : Handle × Row => (e.1, (Except.ok e.2 : Except StorageError Row))) hm
    rw [← hr.live_eq] at hm
    obtain ⟨⟨h', data⟩, hs, he⟩ := List.mem_map.1 hm
    obtain ⟨h1, h2⟩ := Prod.mk.inj he
    dsimp only at h1
    subst h1
    exact ⟨data, Tape.mem_live.1 hs, h2⟩
  · rintro ⟨data, hs, hd⟩
    obtain ⟨row', hm, hd'⟩ := hr.exists_row hs
    rw [hd] at hd'
    cases hd'
    exact hm

/-! ## Reading -/

/-- What is found behind a handle in a relation of so many blocks that holds a tape. -/
def rowIn (r : Relation) (last : Nat) (tape : Tape Row) (h : Handle) : Except StorageError Row :=
  if h.block = 0 ∨ last < h.block then
    .error (.relation (.blockOutOfRange h.block r.file.relation))
  else match tape.row? h with
    | some row => .ok row
    | none => .error (.relation (.noRow h.block h.record r.name))

theorem Holds.rowIn_eq_ok_iff (hr : r.Holds fs id tape) :
    r.rowIn (blockCount (fs.bytes id)) tape h = .ok row ↔ (h, row) ∈ tape.live := by
  rw [← hr.ascending.row?_eq_some_iff, rowIn]
  constructor
  · intro ho
    split at ho
    · cases ho
    · split at ho
      · rename_i hrow
        cases ho
        exact hrow
      · cases ho
  · intro hrow
    have hm := hr.ascending.row?_eq_some_iff.1 hrow
    have hb := hr.block_le (tape.live_sublist.subset (List.mem_map_of_mem hm))
    dsimp only at hb
    rw [if_neg (by omega), hrow]

/-- The row behind a handle is the one that the tape has there. -/
theorem Holds.row_eq (hr : r.Holds fs id tape) (h : Handle) :
    (r.openAt id (blockCount (fs.bytes id))).row fs h = r.rowIn (blockCount (fs.bytes id)) tape h := by
  rw [rowIn]
  split
  · rename_i hb
    rw [row]
    change (((r.file.openAt id _).get fs h.block) >>= _) = _
    rw [Heap.BlockFile.get_openAt_of_gt hb]
    rfl
  · have h1 : 1 ≤ h.block := by omega
    have h2 : h.block ≤ blockCount (fs.bytes id) := by omega
    have hget : (r.openAt id (blockCount (fs.bytes id))).file.get fs h.block =
        .ok (Heap.pageAt (fs.bytes id) h.block) := Heap.BlockFile.get_openAt h1 h2
    simp only [row, hget, bind, Except.bind]
    cases hg : (Heap.pageAt (fs.bytes id) h.block).get? h.record with
    | some data =>
      have hs := Heap.mem_slots.2 ⟨h1, h2, (Heap.Page.get?_eq_some_iff rfl).1 hg⟩
      obtain ⟨row, hm, hd⟩ := hr.exists_row hs
      rw [hr.ascending.row?_eq_some_iff.2 hm]
      exact hd
    | none =>
      have hnone : ∀ row, (h, row) ∉ tape.live := fun row hm => by
        obtain ⟨data, hs, -⟩ := hr.mem_live.1 hm
        obtain ⟨-, -, hs⟩ := Heap.mem_slots.1 hs
        rw [(Heap.Page.get?_eq_some_iff rfl).2 hs] at hg
        cases hg
      rw [hr.ascending.row?_eq_none_iff.2 hnone]
      rfl

/-- Whether a row meets a condition, if there is one. -/
def picks (r : Relation) (condition : Option Row) (row : Row) : Except StorageError Bool :=
  match condition with
  | none => .ok true
  | some condition => row.meets condition r.name

theorem meets_of_decode (hd : r.decode data = .ok row) (condition : Option Row) :
    r.meets condition data = r.picks condition row := by
  cases condition with
  | none => rfl
  | some condition =>
    rw [meets, hd]
    rfl

theorem pageHandles_eq (condition : Option Row) (p : Heap.Page) :
    r.pageHandles condition p =
      List.map Prod.fst <$> p.slots.live.filterM fun e => r.meets condition e.2 := by
  rw [Heap.Page.live_slots, filterM_map, pageHandles, ← map_eq_pure_bind]
  rw [← comp_map]
  congr 1
  funext records
  rw [Function.comp, List.map_map]
  rfl

/-- Selecting goes through the live records of all blocks as if they were one list. -/
theorem handles_of_get (page : Nat → Heap.Page)
    (hp : ∀ block ∈ r.file.blocks, r.file.get fs block = .ok (page block)) (condition : Option Row) :
    r.handles fs condition = List.map Prod.fst <$>
      (r.file.blocks.flatMap fun block => (page block).slots.live).filterM fun e =>
        r.meets condition e.2 := by
  rw [handles, mapM_congr (g := fun block => List.map Prod.fst <$>
    (page block).slots.live.filterM fun e => r.meets condition e.2) fun block hb => ?_]
  · rw [← mapM_filterM_flatten, mapM_map_eq, ← map_eq_pure_bind, ← comp_map, ← comp_map]
    congr 1
    funext lists
    exact List.map_flatten.symm
  · simp only [hp block hb, bind, Except.bind]
    exact pageHandles_eq condition (page block)

/-- Choosing among records is choosing among the rows that they are read as. -/
theorem filterM_decode {records : List (Handle × ByteArray)} {rows : List (Handle × Row)}
    (h : records.map (fun e => (e.1, r.decode e.2)) = rows.map fun e => (e.1, .ok e.2))
    (condition : Option Row) :
    List.map Prod.fst <$> records.filterM (fun e => r.meets condition e.2) =
      List.map Prod.fst <$> rows.filterM fun e => r.picks condition e.2 := by
  induction records generalizing rows with
  | nil =>
    cases rows with
    | nil => rfl
    | cons e rows => cases h
  | cons e records ih =>
    cases rows with
    | nil => cases h
    | cons e' rows =>
      obtain ⟨he, ht⟩ := List.cons.inj h
      obtain ⟨hh, hd⟩ := Prod.mk.inj he
      rw [filterM_cons, filterM_cons, meets_of_decode hd]
      cases r.picks condition e'.2 with
      | error e => rfl
      | ok keep =>
        have ih := ih ht
        generalize records.filterM (fun e => r.meets condition e.2) = kept at ih ⊢
        generalize rows.filterM (fun e => r.picks condition e.2) = kept' at ih ⊢
        cases kept with
        | error _ =>
          cases kept' with
          | error _ => cases ih; rfl
          | ok _ => cases ih
        | ok kept =>
          cases kept' with
          | error _ => cases ih
          | ok kept' =>
            have ih : kept.map Prod.fst = kept'.map Prod.fst := Except.ok.inj ih
            cases keep with
            | true =>
              refine congrArg Except.ok ?_
              rw [if_pos rfl, if_pos rfl, List.map_cons, List.map_cons, hh, ih]
            | false => exact congrArg Except.ok ih

/-- What is selected of a relation is selected of the rows on its tape. -/
theorem Holds.handles (hr : r.Holds fs id tape) (condition : Option Row) :
    (r.openAt id (blockCount (fs.bytes id))).handles fs condition =
      List.map Prod.fst <$> tape.live.filterM fun e => r.picks condition e.2 := by
  have hl : ((r.openAt id (blockCount (fs.bytes id))).file.blocks.flatMap fun block =>
      (Heap.pageAt (fs.bytes id) block).slots.live) = (Heap.slots (fs.bytes id)).live := by
    rw [Heap.slots, Tape.live, List.filterMap_flatMap]
    rfl
  rw [handles_of_get (Heap.pageAt (fs.bytes id)) fun block hb => ?_, hl]
  · exact filterM_decode hr.live_eq condition
  · obtain ⟨h1, h2⟩ := List.mem_range'_1.1 hb
    have h2 : block < 1 + blockCount (fs.bytes id) := h2
    exact Heap.BlockFile.get_openAt (b := r.file) h1 (by omega)

/-! ## Writing -/

section
variable {page blank : Heap.Page} {file : Heap.BlockFile} {fs₁ fs₂ : Files}
  (he : Heap.encode r.columns row = .ok data)
include he

theorem append_of_room (hlast : r.file.last ≠ 0) (hget : r.file.get fs r.file.last = .ok page)
    (hr : page.hasRoom data.size = true)
    (hput : r.file.put fs (page.withRecord data) = .ok fs') :
    r.append fs row = .ok (⟨page.block, page.recordCount + 1⟩, r, fs') := by
  simp only [append, he, Except.mapError, bind, Except.bind, pure, Except.pure, if_neg hlast, hget,
    if_pos hr, Heap.Page.add_of_hasRoom hr, hput]
  rw [Heap.Page.block_withRecord]

theorem append_of_no_room (hlast : r.file.last ≠ 0) (hget : r.file.get fs r.file.last = .ok page)
    (hno : ¬ page.hasRoom data.size = true) (hgrow : r.file.grow fs = .ok (blank, file, fs₁))
    (hr : blank.hasRoom data.size = true)
    (hput : file.put fs₁ (blank.withRecord data) = .ok fs₂) :
    r.append fs row = .ok (⟨blank.block, blank.recordCount + 1⟩, { r with file }, fs₂) := by
  simp only [append, he, Except.mapError, bind, Except.bind, pure, Except.pure, if_neg hlast, hget,
    if_neg hno, hgrow, Heap.Page.add_of_hasRoom hr, hput]
  rw [Heap.Page.block_withRecord]

theorem append_of_empty (hlast : r.file.last = 0) (hgrow : r.file.grow fs = .ok (blank, file, fs₁))
    (hr : blank.hasRoom data.size = true)
    (hput : file.put fs₁ (blank.withRecord data) = .ok fs₂) :
    r.append fs row = .ok (⟨blank.block, blank.recordCount + 1⟩, { r with file }, fs₂) := by
  simp only [append, he, Except.mapError, bind, Except.bind, pure, Except.pure, if_pos hlast, hgrow,
    if_pos hr, Heap.Page.add_of_hasRoom hr, hput]
  rw [Heap.Page.block_withRecord]

end

/-- A record fits into a blank block that was just added, and is then behind all others. -/
theorem exists_put_blank {n : Nat} (hi : Heap.Intact (fs.bytes id)) (hid : id < fs.contents.size)
    (hn : blockCount (fs.bytes id) = n) (hr : (Heap.Page.blank (n + 1)).hasRoom data.size = true) :
    ∃ bytes, (r.file.openAt id (n + 1)).put
        (fs.setBytes id (fs.bytes id ++ (Heap.Page.blank (n + 1)).bytes))
        ((Heap.Page.blank (n + 1)).withRecord data) = .ok (fs.setBytes id bytes) ∧
      Heap.Intact bytes ∧ blockCount bytes = n + 1 ∧
      Heap.slots bytes = Heap.slots (fs.bytes id) ++ [(⟨n + 1, 1⟩, some data)] := by
  have hg := hi.grown hn
  have hc := Heap.blockCount_append (hn ▸ hi.size_eq) (Heap.Page.blank (n + 1))
  have hp := Heap.pageAt_append_self (hn ▸ hi.size_eq) (p := Heap.Page.blank (n + 1)) rfl
  have hb : ((Heap.Page.blank (n + 1)).withRecord data).block = n + 1 := by
    rw [Heap.Page.block_withRecord]
    rfl
  have hs := Heap.slots_overwrite_last hg hc
    (show (Heap.pageAt _ _).hasRoom data.size = true by rw [hp]; exact hr)
  rw [hp, Heap.slots_grown hi hn, Heap.Page.recordCount_blank] at hs
  have hbytes := Files.bytes_setBytes_self hid
    (b := fs.bytes id ++ (Heap.Page.blank (n + 1)).bytes)
  refine ⟨_, ?_, hg.overwrite (Heap.Page.intact_withRecord (Heap.Page.intact_blank _) hr) hb
    (by omega) (by omega), ?_, hs⟩
  · rw [Heap.BlockFile.put_openAt (by rw [hbytes]; exact hg) hb (by omega)
        (Nat.le_of_eq (by rw [hbytes, hc])), hbytes, Files.setBytes_setBytes]
  · rw [Heap.blockCount_overwrite, hc]

/-- A record that was encoded is stored behind all others. -/
theorem append_eq (hi : Heap.Intact (fs.bytes id)) (hid : id < fs.contents.size)
    (he : Heap.encode r.columns row = .ok data) :
    ∃ h last bytes, (r.openAt id (blockCount (fs.bytes id))).append fs row =
        .ok (h, r.openAt id last, fs.setBytes id bytes) ∧
      Heap.Intact bytes ∧ blockCount bytes = last ∧
      Heap.slots bytes = Heap.slots (fs.bytes id) ++ [(h, some data)] := by
  obtain ⟨-, -, -, hsize⟩ := Heap.encode_eq_ok he
  generalize hn : blockCount (fs.bytes id) = n
  have hr := (Heap.Page.hasRoom_blank (n + 1) data.size).2 hsize
  obtain ⟨bytes, hput, hbytes⟩ := exists_put_blank (r := r) hi hid hn hr
  have hgrow := Heap.BlockFile.grow_openAt (b := r.file) hi hn
  rcases Nat.eq_zero_or_pos n with rfl | hpos
  · have := append_of_empty (r := r.openAt id 0) he rfl hgrow hr hput
    rw [Heap.Page.recordCount_blank] at this
    exact ⟨_, _, bytes, this, hbytes⟩
  · have hget := Heap.BlockFile.get_openAt (b := r.file) hpos (Nat.le_of_eq hn.symm)
    rw [hn] at hget
    by_cases hroom : (Heap.pageAt (fs.bytes id) n).hasRoom data.size = true
    · obtain ⟨k, rfl⟩ : ∃ k, n = k + 1 := ⟨n - 1, by omega⟩
      have hp := hi.page (k + 1) hpos (by omega)
      have hb : ((Heap.pageAt (fs.bytes id) (k + 1)).withRecord data).block = k + 1 := by
        rw [Heap.Page.block_withRecord, Heap.block_pageAt]
      have hput := Heap.BlockFile.put_openAt (b := r.file) (n := k + 1) hi hb hpos (by omega)
      exact ⟨_, _, _, append_of_room (r := r.openAt id (k + 1)) he (Nat.succ_ne_zero k) hget hroom hput,
        hi.overwrite (Heap.Page.intact_withRecord hp hroom) hb hpos (by omega),
        by rw [Heap.blockCount_overwrite, hn], Heap.slots_overwrite_last hi hn hroom⟩
    · have := append_of_no_room (r := r.openAt id n) he (Nat.ne_of_gt hpos) hget hroom hgrow hr hput
      rw [Heap.Page.recordCount_blank] at this
      exact ⟨_, _, bytes, this, hbytes⟩

/-- The record that a row is stored as. -/
def record (r : Relation) (row : Row) : Except StorageError ByteArray := do
  (Heap.encode r.columns (← r.complete row)).mapError .relation

theorem record_eq_ok (h : r.record row = .ok data) :
    r.complete row = .ok (Row.filled r.columns row) ∧
      Heap.encode r.columns (Row.filled r.columns row) = .ok data := by
  obtain ⟨full, hc, h⟩ := bind_eq_ok.1 h
  cases complete_eq_ok hc
  exact ⟨hc, mapError_eq_ok.1 h⟩

/-- A row is refused for a column that is not there, or for a fault of the relation. -/
theorem record_eq_error {e : StorageError} (h : r.record row = .error e) :
    (∃ column, e = .unknownColumn column r.name) ∨ ∃ fault, e = .relation fault := by
  rcases bind_eq_error.1 h with h | ⟨full, -, h⟩
  · rw [complete] at h
    split at h
    · cases h
      exact .inl ⟨_, rfl⟩
    · rcases bind_eq_error.1 h with h | ⟨_, _, h⟩
      · obtain ⟨c, -, h⟩ := exists_of_mapM_eq_error h
        rcases bind_eq_error.1 h with h | ⟨_, _, h⟩
        · rw [cell] at h
          split at h <;> split at h <;> cases h <;> exact .inr ⟨_, rfl⟩
        · cases h
      · cases h
  · cases hx : Heap.encode r.columns full with
    | ok data => rw [hx] at h; cases h
    | error fault =>
      rw [hx] at h
      cases h
      exact .inr ⟨_, rfl⟩

theorem Holds.setBytes (hr : r.Holds fs id tape) {bytes : ByteArray} {tape' : Tape Row}
    (hi : Heap.Intact bytes) (hs : (Heap.slots bytes).image r.decode = tape'.image .ok) :
    (r.openAt id (blockCount bytes)).Holds (fs.setBytes id bytes) id tape' where
  find := by rw [Files.find_setBytes]; exact hr.find
  stored := by rw [Files.size_setBytes]; exact hr.stored
  file := by rw [Files.bytes_setBytes_self hr.stored]; exact .inr ⟨rfl, rfl⟩
  intact := by rw [Files.bytes_setBytes_self hr.stored]; exact hi
  reads := by rw [Files.bytes_setBytes_self hr.stored]; exact hs

section
variable {page page' : Heap.Page} {e : StorageError}

theorem erase_of_live (hget : r.file.get fs h.block = .ok page)
    (hd : page.delete? h.record = some page') (hput : r.file.put fs page' = .ok fs') :
    r.erase fs h = .ok fs' := by
  simp only [erase, hget, hd, hput, bind, Except.bind]

theorem erase_of_dead (hget : r.file.get fs h.block = .ok page) (hd : page.delete? h.record = none) :
    r.erase fs h = .error (.relation (.noRow h.block h.record r.name)) := by
  simp only [erase, hget, hd, bind, Except.bind]

theorem erase_of_get_error (hget : r.file.get fs h.block = .error e) : r.erase fs h = .error e := by
  simp only [erase, hget, bind, Except.bind]

end

/-! ## Acts -/

theorem Holds.opened (hr : r.Holds fs id tape) :
    r.file.opened fs = .ok (r.file.openAt id (blockCount (fs.bytes id))) := by
  rw [Heap.BlockFile.opened]
  rcases hr.file with hf | ⟨hf, hl⟩
  · rw [if_neg (by rw [Heap.BlockFile.isOpen, hf]; exact Bool.false_ne_true), hr.find]
    rfl
  · rw [if_pos (by rw [Heap.BlockFile.isOpen, hf]; rfl), Heap.BlockFile.openAt, ← hf, ← hl]

theorem Holds.opening (hr : r.Holds fs id tape) :
    opening.apply r fs = (.ok (), r.openAt id (blockCount (fs.bytes id)), fs) := by
  rw [Relation.opening, Act.apply_change, hr.opened]
  rfl

/-- A row that is refused leaves everything as it is. -/
theorem Holds.insert_refused (hr : r.Holds fs id tape) {e : StorageError} (he : r.record row = .error e) :
    (insert row).apply r fs = (.error e, r.openAt id (blockCount (fs.bytes id)), fs) := by
  rw [insert, Act.apply_bind_ok hr.opening]
  refine Act.apply_change_error ?_
  change (r.complete row >>= fun full => (r.openAt id _).append fs full) = _
  change (r.complete row >>= fun full => (Heap.encode r.columns full).mapError .relation) = _ at he
  cases hc : r.complete row with
  | error e' =>
    rw [hc] at he
    change (Except.error e' : Except StorageError ByteArray) = .error e at he
    cases he
    rfl
  | ok full =>
    rw [hc] at he
    change (Heap.encode r.columns full).mapError StorageError.relation = .error e at he
    change ((Heap.encode r.columns full).mapError StorageError.relation >>= _) = _
    rw [he]
    rfl

/-- A row that is stored comes at the end of the tape, filled up with NULL. -/
theorem Holds.insert_stored (hr : r.Holds fs id tape) (hd : r.record row = .ok data) :
    ∃ h bytes, (insert row).apply r fs =
        (.ok h, r.openAt id (blockCount bytes), fs.setBytes id bytes) ∧
      (r.openAt id (blockCount bytes)).Holds (fs.setBytes id bytes) id
        (tape ++ [(h, some (Row.filled r.columns row))]) := by
  obtain ⟨hc, he⟩ := record_eq_ok hd
  obtain ⟨h, _, bytes, happ, hi, rfl, hs⟩ := append_eq hr.intact hr.stored he
  refine ⟨h, bytes, ?_, hr.setBytes hi ?_⟩
  · rw [insert, Act.apply_bind_ok hr.opening]
    refine Act.apply_change_ok ?_
    change (r.complete row >>= fun full => (r.openAt id _).append fs full) = _
    rw [hc]
    exact happ
  · have hdecode := Heap.decode_encode r.name he
    rw [Row.filled_filled] at hdecode
    rw [hs, Tape.image_append, Tape.image_append, hr.reads]
    refine congrArg (fun x => _ ++ [(h, some x)]) ?_
    exact hdecode

theorem Holds.delete (hr : r.Holds fs id tape) (hm : (h, row) ∈ tape.live) :
    ∃ bytes, (delete h).apply r fs =
        (.ok (), r.openAt id (blockCount bytes), fs.setBytes id bytes) ∧
      blockCount bytes = blockCount (fs.bytes id) ∧
      (r.openAt id (blockCount bytes)).Holds (fs.setBytes id bytes) id (tape.clear h) := by
  obtain ⟨data, hs, -⟩ := hr.mem_live.1 hm
  obtain ⟨h1, h2, hs⟩ := Heap.mem_slots.1 hs
  have hl := (Heap.Page.isLive_iff_mem_slots (Heap.block_pageAt _ _).symm).2 ⟨data, hs⟩
  have hb : ((Heap.pageAt (fs.bytes id) h.block).setPair h.record 0 0).block = h.block := by
    rw [Heap.Page.block_setPair, Heap.block_pageAt]
  have hget := Heap.BlockFile.get_openAt (b := r.file) h1 h2
  have hput := Heap.BlockFile.put_openAt (b := r.file) (n := blockCount (fs.bytes id)) hr.intact hb h1 h2
  have hcount := Heap.blockCount_overwrite (fs.bytes id) (Heap.BlockFile.offset h.block)
    ((Heap.pageAt (fs.bytes id) h.block).setPair h.record 0 0).bytes
  refine ⟨_, ?_, hcount, hr.setBytes
    (hr.intact.overwrite (Heap.Page.intact_deleted (hr.intact.page _ h1 h2) hl) hb h1 h2) ?_⟩
  · rw [hcount, Relation.delete, Act.apply_bind_ok hr.opening]
    refine Act.apply_change_ok ?_
    have herase : (r.openAt id (blockCount (fs.bytes id))).erase fs h = _ :=
      erase_of_live hget (Heap.Page.delete?_eq_some hl) hput
    rw [herase]
    rfl
  · rw [Heap.slots_overwrite_deleted hr.intact h1 h2 hl, Tape.image_clear, hr.reads,
      Tape.image_clear]

/-- Only a live row can be deleted. -/
theorem Holds.delete_missing (hr : r.Holds fs id tape) (hm : ∀ row, (h, row) ∉ tape.live) :
    ∃ e, (Relation.delete h).apply r fs =
      (.error e, r.openAt id (blockCount (fs.bytes id)), fs) := by
  have herase : ∃ e, (r.openAt id (blockCount (fs.bytes id))).erase fs h = .error e := by
    by_cases hb : h.block = 0 ∨ blockCount (fs.bytes id) < h.block
    · have hget : (r.file.openAt id (blockCount (fs.bytes id))).get fs h.block = _ :=
        Heap.BlockFile.get_openAt_of_gt hb
      exact ⟨_, erase_of_get_error hget⟩
    · have h1 : 1 ≤ h.block := by omega
      have h2 : h.block ≤ blockCount (fs.bytes id) := by omega
      have hget := Heap.BlockFile.get_openAt (b := r.file) h1 h2
      refine ⟨_, erase_of_dead hget (Heap.Page.delete?_eq_none fun hl => ?_)⟩
      obtain ⟨data, hs⟩ := (Heap.Page.isLive_iff_mem_slots (Heap.block_pageAt _ _).symm).1 hl
      obtain ⟨row, hl, -⟩ := hr.exists_row (Heap.mem_slots.2 ⟨h1, h2, hs⟩)
      exact hm row hl
  obtain ⟨e, he⟩ := herase
  refine ⟨e, ?_⟩
  rw [Relation.delete, Act.apply_bind_ok hr.opening]
  refine Act.apply_change_error ?_
  rw [he]
  rfl

theorem Holds.select (hr : r.Holds fs id tape) (condition : Option Row) :
    (select condition).apply r fs =
      (List.map Prod.fst <$> tape.live.filterM fun e => r.picks condition e.2,
        r.openAt id (blockCount (fs.bytes id)), fs) := by
  rw [Relation.select, Act.apply_bind_ok hr.opening, Act.apply_look, hr.handles]

theorem Holds.project (hr : r.Holds fs id tape) (h : Handle) (columns : List String) :
    (project h columns).apply r fs =
      (do (← r.rowIn (blockCount (fs.bytes id)) tape h).restrict r.name columns,
        r.openAt id (blockCount (fs.bytes id)), fs) := by
  rw [Relation.project, Act.apply_bind_ok hr.opening, Act.apply_look, hr.row_eq]
  rfl

/-- A relation that is made holds nothing. -/
theorem create_of_create (hc : fs.create r.file.path = .ok (id, fs')) :
    ∃ bytes, create.apply r fs = (.ok (), r.openAt id (blockCount bytes), fs'.setBytes id bytes) ∧
      (r.openAt id (blockCount bytes)).Holds (fs'.setBytes id bytes) id [] := by
  obtain ⟨names, hl, hn, rfl, rfl⟩ := Files.create_eq_ok.1 hc
  have hl := (Files.locateFile_eq_ok.1 hl).2
  have hempty : (fs.push names .empty).bytes fs.contents.size = .empty := Files.bytes_push_self
  have hcount : blockCount .empty = 0 := rfl
  have hi : Heap.Intact ((fs.push names .empty).bytes fs.contents.size) := by
    rw [hempty]
    exact Heap.intact_empty
  have hgrow := Heap.BlockFile.grow_openAt (b := r.file) hi (n := 0) (by rw [hempty, hcount])
  have hblock : blockCount ((fs.push names .empty).bytes fs.contents.size ++ (Heap.Page.blank 1).bytes) = 1 :=
    Heap.blockCount_append (by rw [hempty]; rfl) (Heap.Page.blank 1)
  have hslots := Heap.slots_grown hi (n := 0) (by rw [hempty, hcount])
  have hgrown := hi.grown (n := 0) (by rw [hempty, hcount])
  refine ⟨(fs.push names .empty).bytes fs.contents.size ++ (Heap.Page.blank 1).bytes, ?_, ?_⟩
  · rw [create, hblock]
    refine Act.apply_change_ok ?_
    have hmade := Heap.BlockFile.create_of_grow hc hgrow
    simp only [hmade, bind, Except.bind]
    rfl
  · have hstored : fs.contents.size < (fs.push names .empty).contents.size := by
      rw [Files.size_push]
      omega
    refine ⟨?_, ?_, ?_, ?_, ?_⟩
    · rw [Files.find_setBytes]
      exact Files.find_push hl hn
    · rw [Files.size_setBytes]
      exact hstored
    · rw [Files.bytes_setBytes_self hstored]
      exact .inr ⟨rfl, rfl⟩
    · rw [Files.bytes_setBytes_self hstored]
      exact hgrown
    · rw [Files.bytes_setBytes_self hstored, hslots, hempty]
      rfl

/-- Why no file is made depends on the fault alone. -/
theorem exists_create_error (r : Relation) (fault : Files.Fault) : ∃ error, ∀ {fs : Files},
    fs.create r.file.path = .error fault → create.apply r fs = (.error error, r, fs) := by
  obtain ⟨error, herror⟩ : ∃ error, ∀ {fs : Files}, fs.create r.file.path = .error fault →
      r.file.create fs = .error error := by
    simp only [Heap.BlockFile.create]
    cases fault <;> exact ⟨_, fun h => by rw [h]⟩
  refine ⟨error, fun h => Act.apply_change_error ?_⟩
  rw [herror h]
  rfl

theorem createIfMissing_of_find (hf : fs.find r.file.path = .ok id) :
    createIfMissing.apply r fs = Relation.opening.apply r fs := by
  have hexists : r.file.exists? fs = true := Files.exists?_of_find hf
  rw [createIfMissing, Act.apply_bind_ok (Act.apply_look _ r fs), hexists, if_pos rfl]

end Relation

end Rowbase
