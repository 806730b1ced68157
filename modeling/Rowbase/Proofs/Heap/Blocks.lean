import Mathlib.Data.List.Basic
import Rowbase.Heap.BlockFile
import Rowbase.Proofs.Heap.Page
import Rowbase.Proofs.Heap.Tape

/-! # Files of intact pages

What the bytes of a file hold as blocks, and what becomes of the other blocks when one is written
where it belongs or added at the end. -/
namespace Rowbase.Heap

namespace Page

variable {p : Page} {record : Nat} {data : ByteArray}

theorem ext_bytes {p q : Page} (hb : p.block = q.block) (h : p.bytes = q.bytes) : p = q := by
  cases p
  cases q
  cases hb
  cases h
  rfl

/-- The bytes of a page make that page. -/
theorem ofBytes_bytes (p : Page) : ofBytes p.block p.bytes = p := by
  have h : p.bytes.size = (Bytes.zeros blockSize).size := by rw [p.size_bytes, Bytes.size_zeros]
  have hb : (ofBytes p.block p.bytes).bytes = p.bytes := by
    rw [ofBytes]
    exact Bytes.overwrite_all h
  refine ext_bytes ?_ hb
  rw [ofBytes]

/-! ## Slots -/

/-- The records of a page, the deleted ones among them. -/
def slots (p : Page) : Tape ByteArray :=
  (List.range' 1 p.recordCount).map fun record => (⟨p.block, record⟩, p.get? record)

theorem handles_slots (p : Page) :
    p.slots.handles = (List.range' 1 p.recordCount).map (Handle.mk p.block) := by
  rw [Tape.handles, slots, List.map_map]
  rfl

theorem mem_handles_slots {h : Handle} :
    h ∈ p.slots.handles ↔ h.block = p.block ∧ 1 ≤ h.record ∧ h.record ≤ p.recordCount := by
  rw [handles_slots, List.mem_map]
  constructor
  · rintro ⟨r, hr, rfl⟩
    have := List.mem_range'_1.1 hr
    exact ⟨rfl, this.1, by dsimp only; omega⟩
  · rintro ⟨hb, h1, h2⟩
    refine ⟨h.record, List.mem_range'_1.2 ⟨h1, by omega⟩, ?_⟩
    rw [← hb]

theorem ascending_slots (p : Page) : p.slots.Ascending := by
  rw [Tape.Ascending, handles_slots, List.pairwise_map]
  exact (List.pairwise_lt_range').imp fun h => .inr ⟨rfl, h⟩

theorem mem_slots {h : Handle} {o : Option ByteArray} :
    (h, o) ∈ p.slots ↔ h ∈ p.slots.handles ∧ p.get? h.record = o := by
  rw [mem_handles_slots, slots, List.mem_map]
  constructor
  · rintro ⟨r, hr, he⟩
    cases he
    have := List.mem_range'_1.1 hr
    exact ⟨⟨rfl, this.1, by dsimp only; omega⟩, rfl⟩
  · rintro ⟨⟨hb, h1, h2⟩, ho⟩
    refine ⟨h.record, List.mem_range'_1.2 ⟨h1, by omega⟩, ?_⟩
    rw [← hb, ho]

/-- What a page reads is what lies in its slots. -/
theorem get?_eq_some_iff {h : Handle} (hb : h.block = p.block) :
    p.get? h.record = some data ↔ (h, some data) ∈ p.slots := by
  rw [mem_slots, mem_handles_slots]
  refine ⟨fun hg => ⟨⟨hb, ?_⟩, hg⟩, fun h => h.2⟩
  have hl : p.isLive h.record = true := by
    rw [← isSome_get?, hg]
    rfl
  obtain ⟨h1, h2, -⟩ := isLive_iff.1 hl
  exact ⟨h1, h2⟩

theorem isLive_iff_mem_slots {h : Handle} (hb : h.block = p.block) :
    p.isLive h.record = true ↔ ∃ data, (h, some data) ∈ p.slots := by
  rw [← isSome_get?, Option.isSome_iff_exists]
  exact exists_congr fun data => get?_eq_some_iff hb

/-- The live records are those that are listed. -/
theorem live_slots (p : Page) :
    p.slots.live = p.records.map fun record => (⟨p.block, record⟩, (p.get? record).getD .empty) := by
  rw [Tape.live, slots, records, List.filterMap_map]
  induction List.range' 1 p.recordCount with
  | nil => rfl
  | cons r rs ih =>
    by_cases h : p.isLive r = true
    · rw [List.filter_cons_of_pos h, List.map_cons, ← ih]
      have hg := get?_eq_some h
      rw [List.filterMap_cons_some (b := (⟨p.block, r⟩, (p.get? r).getD .empty))]
      rw [Function.comp, hg]
      rfl
    · rw [List.filter_cons_of_neg h, ← ih, List.filterMap_cons_none]
      rw [Function.comp, get?_eq_none h]
      rfl

theorem slots_blank (block : Nat) : (blank block).slots = [] := by
  rw [slots, recordCount_blank]
  rfl

theorem slots_withRecord (hp : p.Intact) (hr : p.hasRoom data.size = true) :
    (p.withRecord data).slots = p.slots ++ [(⟨p.block, p.recordCount + 1⟩, some data)] := by
  rw [slots, recordCount_withRecord hp hr, List.range'_concat, List.map_append, List.map_singleton,
    block_withRecord, Nat.one_mul, Nat.add_comm 1, get?_withRecord_self hp hr, slots]
  refine congrArg (· ++ _) (List.map_congr_left fun r h => ?_)
  have := List.mem_range'_1.1 h
  rw [get?_withRecord_of_ne hp hr (by omega)]

theorem slots_deleted (hp : p.Intact) (hl : p.isLive record = true) :
    (p.setPair record 0 0).slots = p.slots.clear ⟨p.block, record⟩ := by
  rw [slots, recordCount_deleted hp hl, block_setPair, Tape.clear, slots, List.map_map]
  refine List.map_congr_left fun r _ => ?_
  dsimp only [Function.comp]
  by_cases h : r = record
  · subst h
    rw [if_pos rfl, get?_deleted_self hp hl]
  · rw [if_neg (by simpa using h), get?_deleted_of_ne hp hl h]

end Page

/-! ## Blocks -/

variable {bytes data : ByteArray} {p : Page} {block n : Nat}

/-- The page that bytes have as one of their blocks. -/
def pageAt (bytes : ByteArray) (block : Nat) : Page :=
  .ofBytes block (bytes.extract (BlockFile.offset block) (BlockFile.offset block + blockSize))

/-- The number of whole blocks. -/
def blockCount (bytes : ByteArray) : Nat := bytes.size / blockSize

theorem block_pageAt (bytes : ByteArray) (block : Nat) : (pageAt bytes block).block = block := rfl

theorem pageAt_congr {bytes' : ByteArray}
    (h : bytes'.extract (BlockFile.offset block) (BlockFile.offset block + blockSize) =
      bytes.extract (BlockFile.offset block) (BlockFile.offset block + blockSize)) :
    pageAt bytes' block = pageAt bytes block := by
  rw [pageAt, pageAt, h]

theorem pageAt_eq (hb : p.block = block)
    (h : bytes.extract (BlockFile.offset block) (BlockFile.offset block + blockSize) = p.bytes) :
    pageAt bytes block = p := by
  subst hb
  rw [pageAt, h, Page.ofBytes_bytes]

/-- A file whose blocks are all whole and hold intact pages. -/
structure Intact (bytes : ByteArray) : Prop where
  size_eq : bytes.size = blockCount bytes * blockSize
  page : ∀ block, 1 ≤ block → block ≤ blockCount bytes → (pageAt bytes block).Intact

theorem intact_empty : Intact .empty where
  size_eq := rfl
  page block h1 h2 := by
    have hcount : blockCount .empty = 0 := rfl
    omega

/-- All records of a file, the deleted ones among them. -/
def slots (bytes : ByteArray) : Tape ByteArray :=
  (List.range' 1 (blockCount bytes)).flatMap fun block => (pageAt bytes block).slots

theorem mem_slots {h : Handle} {o : Option ByteArray} :
    (h, o) ∈ slots bytes ↔
      1 ≤ h.block ∧ h.block ≤ blockCount bytes ∧ (h, o) ∈ (pageAt bytes h.block).slots := by
  rw [slots, List.mem_flatMap]
  constructor
  · rintro ⟨b, hb, hm⟩
    obtain ⟨he, -, -⟩ := Page.mem_handles_slots.1 (Page.mem_slots.1 hm).1
    rw [block_pageAt] at he
    subst he
    have := List.mem_range'_1.1 hb
    exact ⟨this.1, by omega, hm⟩
  · rintro ⟨h1, h2, hm⟩
    exact ⟨h.block, List.mem_range'_1.2 ⟨h1, by omega⟩, hm⟩

theorem handles_flatMap (f : Nat → Page) (blocks : List Nat) :
    Tape.handles (blocks.flatMap fun block => (f block).slots) =
      blocks.flatMap fun block => (f block).slots.handles := List.map_flatMap

theorem ascending_slots (bytes : ByteArray) : (slots bytes).Ascending := by
  rw [slots, Tape.Ascending, handles_flatMap, List.pairwise_flatMap]
  refine ⟨fun block _ => (pageAt bytes block).ascending_slots,
    (List.pairwise_lt_range').imp fun {a b} hab h ha h' hb => ?_⟩
  have ha := (Page.mem_handles_slots.1 ha).1
  have hb := (Page.mem_handles_slots.1 hb).1
  rw [block_pageAt] at ha hb
  exact .inl (by omega)

theorem block_le_of_mem_slots {h : Handle} (hm : h ∈ (slots bytes).handles) :
    1 ≤ h.block ∧ h.block ≤ blockCount bytes := by
  obtain ⟨⟨_, o⟩, he, rfl⟩ := List.mem_map.1 hm
  obtain ⟨h1, h2, -⟩ := mem_slots.1 he
  exact ⟨h1, h2⟩

/-! ## Writing a block -/

theorem offset_add_le (h1 : 1 ≤ block) (h2 : block ≤ n) :
    BlockFile.offset block + blockSize ≤ n * blockSize := by
  rw [BlockFile.offset, blockSize]
  omega

section
variable (hs : bytes.size = n * blockSize) (hb : p.block = block) (h1 : 1 ≤ block) (h2 : block ≤ n)
include hs hb h1 h2

/-- The bytes with a page written where it belongs. -/
theorem pageAt_overwrite_self :
    pageAt (Bytes.overwrite bytes (BlockFile.offset block) p.bytes) block = p := by
  have hle := offset_add_le h1 h2
  refine pageAt_eq hb ?_
  rw [← p.size_bytes]
  exact Bytes.extract_overwrite_self (by rw [p.size_bytes, hs]; exact hle)

omit hb in
theorem pageAt_overwrite_of_ne {other : Nat} (ho : 1 ≤ other) (hne : other ≠ block) :
    pageAt (Bytes.overwrite bytes (BlockFile.offset block) p.bytes) other = pageAt bytes other := by
  have hle := offset_add_le h1 h2
  refine pageAt_congr (Bytes.extract_overwrite_of_disjoint (by rw [p.size_bytes, hs]; exact hle) ?_)
  rw [p.size_bytes, BlockFile.offset, BlockFile.offset, blockSize]
  omega

end

theorem blockCount_of_size (h : bytes.size = n * blockSize) : blockCount bytes = n := by
  rw [blockCount, h, blockSize]
  omega

theorem blockCount_overwrite (bytes : ByteArray) (start : Nat) (data : ByteArray) :
    blockCount (Bytes.overwrite bytes start data) = blockCount bytes := by
  rw [blockCount, Bytes.size_overwrite, blockCount]

theorem Intact.overwrite (hi : Intact bytes) (hp : p.Intact) (hb : p.block = block)
    (h1 : 1 ≤ block) (h2 : block ≤ blockCount bytes) :
    Intact (Bytes.overwrite bytes (BlockFile.offset block) p.bytes) where
  size_eq := by rw [blockCount_overwrite, Bytes.size_overwrite]; exact hi.size_eq
  page other ho1 ho2 := by
    rw [blockCount_overwrite] at ho2
    by_cases h : other = block
    · rw [h, pageAt_overwrite_self hi.size_eq hb h1 h2]
      exact hp
    · rw [pageAt_overwrite_of_ne hi.size_eq h1 h2 ho1 h]
      exact hi.page other ho1 ho2

/-- What is on the tape after a page was written, in terms of the slots of that page alone. -/
theorem slots_overwrite (hi : Intact bytes) (hb : p.block = block) (h1 : 1 ≤ block)
    (h2 : block ≤ blockCount bytes) :
    slots (Bytes.overwrite bytes (BlockFile.offset block) p.bytes) =
      (List.range' 1 (blockCount bytes)).flatMap fun other =>
        if other = block then p.slots else (pageAt bytes other).slots := by
  rw [slots, blockCount_overwrite]
  refine List.flatMap_congr fun other ho => ?_
  have ho := List.mem_range'_1.1 ho
  split
  · rename_i he
    rw [he, pageAt_overwrite_self hi.size_eq hb h1 h2]
  · rename_i he
    rw [pageAt_overwrite_of_ne hi.size_eq h1 h2 ho.1 he]

/-- A deleted record is cleared from the tape, and nothing else changes. -/
theorem slots_overwrite_deleted (hi : Intact bytes) {h : Handle} (h1 : 1 ≤ h.block)
    (h2 : h.block ≤ blockCount bytes) (hl : (pageAt bytes h.block).isLive h.record = true) :
    slots (Bytes.overwrite bytes (BlockFile.offset h.block)
      ((pageAt bytes h.block).setPair h.record 0 0).bytes) = (slots bytes).clear h := by
  have hb : ((pageAt bytes h.block).setPair h.record 0 0).block = h.block := by
    rw [Page.block_setPair, block_pageAt]
  rw [slots_overwrite hi hb h1 h2, slots, Tape.clear, List.map_flatMap]
  refine List.flatMap_congr fun block _ => ?_
  split
  · rename_i he
    rw [Page.slots_deleted (hi.page h.block h1 h2) hl, he]
    rfl
  · rename_i he
    change _ = Tape.clear h (pageAt bytes block).slots
    rw [Tape.clear_of_not_mem]
    intro hm
    exact he (Page.mem_handles_slots.1 hm).1.symm

/-- A record added to the last page comes after all others. -/
theorem slots_overwrite_last (hi : Intact bytes) (hn : blockCount bytes = n + 1)
    (hr : (pageAt bytes (n + 1)).hasRoom data.size = true) :
    slots (Bytes.overwrite bytes (BlockFile.offset (n + 1))
        ((pageAt bytes (n + 1)).withRecord data).bytes) =
      slots bytes ++ [(⟨n + 1, (pageAt bytes (n + 1)).recordCount + 1⟩, some data)] := by
  have hp := hi.page (n + 1) (by omega) (by omega)
  have hb : ((pageAt bytes (n + 1)).withRecord data).block = n + 1 := by
    rw [Page.block_withRecord, block_pageAt]
  have hfront : (List.range' 1 n).flatMap (fun other =>
      if other = n + 1 then ((pageAt bytes (n + 1)).withRecord data).slots
      else (pageAt bytes other).slots) = (List.range' 1 n).flatMap fun other =>
        (pageAt bytes other).slots := by
    apply List.flatMap_congr
    intro other ho
    have ho := List.mem_range'_1.1 ho
    rw [if_neg (by omega)]
  rw [slots_overwrite hi hb (by omega) (by omega), slots, hn, List.range'_concat, List.flatMap_append,
    List.flatMap_append, hfront, List.flatMap_singleton, List.flatMap_singleton, Nat.one_mul,
    Nat.add_comm 1, if_pos rfl, Page.slots_withRecord hp hr, List.append_assoc, block_pageAt]

/-! ## Adding a block -/

section
variable (hs : bytes.size = n * blockSize)
include hs

theorem blockCount_append (p : Page) : blockCount (bytes ++ p.bytes) = n + 1 := by
  refine blockCount_of_size ?_
  rw [ByteArray.size_append, hs, p.size_bytes, blockSize]
  omega

theorem pageAt_append_self (hb : p.block = n + 1) : pageAt (bytes ++ p.bytes) (n + 1) = p := by
  refine pageAt_eq hb ?_
  have ho : BlockFile.offset (n + 1) = bytes.size := hs.symm
  rw [ho, ← p.size_bytes]
  exact ByteArray.extract_append_eq_right rfl rfl

theorem pageAt_append_of_le (p : Page) (h1 : 1 ≤ block) (h2 : block ≤ n) :
    pageAt (bytes ++ p.bytes) block = pageAt bytes block := by
  have := offset_add_le h1 h2
  refine pageAt_congr ?_
  rw [ByteArray.extract_append, Nat.sub_eq_zero_of_le (by omega), Nat.sub_eq_zero_of_le (by omega),
    ByteArray.extract_same, ByteArray.append_empty]

end

theorem Intact.grown (hi : Intact bytes) (hn : blockCount bytes = n) :
    Intact (bytes ++ (Page.blank (n + 1)).bytes) where
  size_eq := by
    subst hn
    rw [blockCount_append hi.size_eq, ByteArray.size_append, hi.size_eq, Page.size_bytes, blockSize]
    omega
  page block h1 h2 := by
    subst hn
    rw [blockCount_append hi.size_eq] at h2
    by_cases h : block = blockCount bytes + 1
    · rw [h, pageAt_append_self hi.size_eq rfl]
      exact Page.intact_blank _
    · rw [pageAt_append_of_le hi.size_eq _ h1 (by omega)]
      exact hi.page block h1 (by omega)

/-- A blank block changes nothing on the tape. -/
theorem slots_grown (hi : Intact bytes) (hn : blockCount bytes = n) :
    slots (bytes ++ (Page.blank (n + 1)).bytes) = slots bytes := by
  subst hn
  rw [slots, blockCount_append hi.size_eq, List.range'_concat, List.flatMap_append,
    List.flatMap_singleton, Nat.one_mul, Nat.add_comm 1, pageAt_append_self hi.size_eq rfl,
    Page.slots_blank, List.append_nil, slots]
  refine List.flatMap_congr fun block h => ?_
  have := List.mem_range'_1.1 h
  rw [pageAt_append_of_le hi.size_eq _ this.1 (by omega)]

end Rowbase.Heap
