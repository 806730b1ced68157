import Mathlib.Tactic.Common
import Rowbase.Heap.Page
import Rowbase.Proofs.Bytes

/-! # Intact pages

A page is intact if its slots end before its records start and every live record lies behind the
free bytes. A blank page is, and adding and deleting keep it so; then a new record is read back as
it was written, a deleted one is gone, and all others stay what they were. -/
namespace Rowbase.Heap.Page

variable {p : Page} {slot a b record : Nat} {data : ByteArray}

/-! ## Slots -/

theorem recordSize_setPair (h : slot < 1024) (s : Nat) :
    (p.setPair slot a b).recordSize s = if s = slot then a % 65536 else p.recordSize s := by
  have hp : 4 * slot + 4 ≤ p.bytes.size := by rw [p.size_bytes, blockSize]; omega
  rw [recordSize, setPair, Bytes.word_setWord_of_disjoint (by rw [Bytes.size_setWord]; omega) _ (by omega)]
  split
  · subst s
    exact Bytes.word_setWord_self (by omega) a
  · exact Bytes.word_setWord_of_disjoint (by omega) a (by omega)

theorem location_setPair (h : slot < 1024) (s : Nat) :
    (p.setPair slot a b).location s = if s = slot then b % 65536 else p.location s := by
  have hp : 4 * slot + 4 ≤ p.bytes.size := by rw [p.size_bytes, blockSize]; omega
  rw [location, setPair]
  split
  · subst s
    exact Bytes.word_setWord_self (by rw [Bytes.size_setWord]; omega) b
  · rw [Bytes.word_setWord_of_disjoint (by rw [Bytes.size_setWord]; omega) b (by omega)]
    exact Bytes.word_setWord_of_disjoint (by omega) a (by omega)

theorem recordCount_setPair (h : slot < 1024) :
    (p.setPair slot a b).recordCount = if 0 = slot then a % 65536 else p.recordCount :=
  recordSize_setPair h 0

theorem freeEnd_setPair (h : slot < 1024) :
    (p.setPair slot a b).freeEnd = if 0 = slot then b % 65536 else p.freeEnd :=
  location_setPair h 0

theorem extract_setPair (h : slot < 1024) {i j : Nat} (hi : 4 * slot + 4 ≤ i) :
    (p.setPair slot a b).bytes.extract i j = p.bytes.extract i j := by
  have hp : 4 * slot + 4 ≤ p.bytes.size := by rw [p.size_bytes, blockSize]; omega
  rw [setPair, Bytes.extract_setWord_of_disjoint (by rw [Bytes.size_setWord]; omega) b (by omega)]
  exact Bytes.extract_setWord_of_disjoint (by omega) a (by omega)

variable {start : Nat}

theorem recordSize_setBytes (h : start + data.size ≤ blockSize) {s : Nat} (hs : 4 * s + 4 ≤ start) :
    (p.setBytes start data).recordSize s = p.recordSize s :=
  Bytes.word_overwrite_of_disjoint (by rw [p.size_bytes]; exact h) (by omega)

theorem location_setBytes (h : start + data.size ≤ blockSize) {s : Nat} (hs : 4 * s + 4 ≤ start) :
    (p.setBytes start data).location s = p.location s :=
  Bytes.word_overwrite_of_disjoint (by rw [p.size_bytes]; exact h) (by omega)

/-! ## Intact pages -/

/-- Whether slots and records lie apart. -/
structure Intact (p : Page) : Prop where
  slots_le : 4 * (p.recordCount + 1) ≤ p.freeEnd + 1
  freeEnd_lt : p.freeEnd < blockSize
  records : ∀ record, p.isLive record → p.freeEnd < p.location record ∧
    p.location record + p.recordSize record ≤ blockSize

theorem isLive_iff : p.isLive record = true ↔
    1 ≤ record ∧ record ≤ p.recordCount ∧ p.location record ≠ 0 := by
  simp [isLive, and_assoc]

theorem get?_eq_some (h : p.isLive record = true) : p.get? record =
    some (p.bytes.extract (p.location record) (p.location record + p.recordSize record)) := by
  rw [get?, if_pos h]

theorem get?_eq_none (h : ¬ p.isLive record = true) : p.get? record = none := by
  rw [get?, if_neg h]

theorem isSome_get? : (p.get? record).isSome = p.isLive record := by
  rw [get?]
  split <;> simp_all

/-- A record is the same in two pages that have the same slot and the same bytes behind it. -/
theorem get?_congr {q : Page} (hl : q.isLive record = p.isLive record)
    (hat : q.location record = p.location record) (hs : q.recordSize record = p.recordSize record)
    (hb : p.isLive record = true →
      q.bytes.extract (p.location record) (p.location record + p.recordSize record) =
        p.bytes.extract (p.location record) (p.location record + p.recordSize record)) :
    q.get? record = p.get? record := by
  by_cases h : p.isLive record = true
  · rw [get?_eq_some h, get?_eq_some (hl.trans h), hat, hs, hb h]
  · rw [get?_eq_none h, get?_eq_none (by rwa [hl])]

theorem recordCount_blank (block : Nat) : (blank block).recordCount = 0 := by
  rw [blank, recordCount_setPair (by decide)]
  rfl

theorem freeEnd_blank (block : Nat) : (blank block).freeEnd = blockSize - 1 := by
  rw [blank, freeEnd_setPair (by decide)]
  rfl

theorem intact_blank (block : Nat) : (blank block).Intact where
  slots_le := by rw [recordCount_blank, freeEnd_blank]; decide
  freeEnd_lt := by rw [freeEnd_blank]; decide
  records record h := by
    rw [isLive_iff, recordCount_blank] at h
    omega

/-- A blank page has room for a record just if the record is not larger than any may be. -/
theorem hasRoom_blank (block size : Nat) : (blank block).hasRoom size ↔ size ≤ blockSize - 8 := by
  rw [hasRoom, recordCount_blank, freeEnd_blank, decide_eq_true_iff, blockSize]
  omega

theorem Intact.recordCount_lt (h : p.Intact) : p.recordCount < 1024 := by
  have := h.slots_le
  have := h.freeEnd_lt
  rw [blockSize] at this
  omega

/-! ## Adding -/

/-- The page with a record added to it. -/
def withRecord (p : Page) (data : ByteArray) : Page :=
  ((p.setPair 0 (p.recordCount + 1) (p.freeEnd - data.size)).setPair (p.recordCount + 1) data.size
    (p.freeEnd - data.size + 1)).setBytes (p.freeEnd - data.size + 1) data

theorem add_of_hasRoom (h : p.hasRoom data.size) :
    p.add data = .ok (p.recordCount + 1, p.withRecord data) := by
  rw [add, if_pos h]
  rfl

theorem block_withRecord : (p.withRecord data).block = p.block := by
  rw [withRecord, setBytes, setPair, setPair]

section
variable (hp : p.Intact) (hr : p.hasRoom data.size = true)

include hr in
theorem room : 4 * (p.recordCount + 2) + data.size ≤ p.freeEnd + 1 := of_decide_eq_true hr

include hp hr

theorem recordSize_withRecord {s : Nat} (hs : s ≤ p.recordCount + 1) :
    (p.withRecord data).recordSize s =
      if s = p.recordCount + 1 then data.size else if s = 0 then p.recordCount + 1
      else p.recordSize s := by
  have hroom := room hr
  have hend := hp.freeEnd_lt
  rw [blockSize] at hend
  rw [withRecord, recordSize_setBytes (by rw [blockSize]; omega) (by omega),
    recordSize_setPair (by omega), recordSize_setPair (by omega)]
  split
  · exact Nat.mod_eq_of_lt (by omega)
  · split
    · exact Nat.mod_eq_of_lt (by omega)
    · rfl

theorem location_withRecord {s : Nat} (hs : s ≤ p.recordCount + 1) :
    (p.withRecord data).location s =
      if s = p.recordCount + 1 then p.freeEnd - data.size + 1
      else if s = 0 then p.freeEnd - data.size else p.location s := by
  have hroom := room hr
  have hend := hp.freeEnd_lt
  rw [blockSize] at hend
  rw [withRecord, location_setBytes (by rw [blockSize]; omega) (by omega),
    location_setPair (by omega), location_setPair (by omega)]
  split
  · exact Nat.mod_eq_of_lt (by omega)
  · split
    · exact Nat.mod_eq_of_lt (by omega)
    · rfl

theorem recordCount_withRecord : (p.withRecord data).recordCount = p.recordCount + 1 := by
  have h := recordSize_withRecord hp hr (s := 0) (by omega)
  rwa [if_neg (by omega), if_pos rfl] at h

theorem freeEnd_withRecord : (p.withRecord data).freeEnd = p.freeEnd - data.size := by
  have h := location_withRecord hp hr (s := 0) (by omega)
  rwa [if_neg (by omega), if_pos rfl] at h

theorem isLive_withRecord (record : Nat) :
    (p.withRecord data).isLive record = true ↔
      record = p.recordCount + 1 ∨ p.isLive record = true := by
  rw [isLive_iff, isLive_iff, recordCount_withRecord hp hr]
  by_cases h : record ≤ p.recordCount + 1
  · rw [location_withRecord hp hr h]
    split
    · omega
    · split <;> omega
  · omega

theorem extract_withRecord {i j : Nat} (hi : p.freeEnd < i) :
    (p.withRecord data).bytes.extract i j = p.bytes.extract i j := by
  have hroom := room hr
  have hend := hp.freeEnd_lt
  rw [blockSize] at hend
  rw [withRecord, setBytes, Bytes.extract_overwrite_of_disjoint
      (by rw [size_bytes, blockSize]; omega) (by omega),
    extract_setPair (by omega) (by omega), extract_setPair (by omega) (by omega)]

theorem get?_withRecord_self : (p.withRecord data).get? (p.recordCount + 1) = some data := by
  have hroom := room hr
  have hend := hp.freeEnd_lt
  rw [blockSize] at hend
  rw [get?_eq_some ((isLive_withRecord hp hr _).2 (.inl rfl)), location_withRecord hp hr (by omega),
    recordSize_withRecord hp hr (by omega), if_pos rfl, if_pos rfl, withRecord, setBytes,
    Bytes.extract_overwrite_self (by rw [size_bytes, blockSize]; omega)]

theorem get?_withRecord_of_ne {record : Nat} (h : record ≠ p.recordCount + 1) :
    (p.withRecord data).get? record = p.get? record := by
  by_cases hl : p.isLive record = true
  · obtain ⟨h1, h2, -⟩ := isLive_iff.1 hl
    have hloc := location_withRecord hp hr (s := record) (by omega)
    have hsize := recordSize_withRecord hp hr (s := record) (by omega)
    rw [if_neg h, if_neg (by omega)] at hloc hsize
    refine get?_congr ?_ hloc hsize fun _ => extract_withRecord hp hr (hp.records record hl).1
    rw [hl, isLive_withRecord hp hr]
    exact .inr hl
  · rw [get?_eq_none hl, get?_eq_none]
    rw [isLive_withRecord hp hr]
    exact not_or.2 ⟨h, hl⟩

theorem intact_withRecord : (p.withRecord data).Intact := by
  have hroom := room hr
  have hend := hp.freeEnd_lt
  have hn := recordCount_withRecord hp hr
  have he := freeEnd_withRecord hp hr
  refine ⟨by omega, by omega, fun record h => ?_⟩
  have hle := (isLive_iff.1 h).2.1
  rw [hn] at hle
  rw [location_withRecord hp hr hle, recordSize_withRecord hp hr hle, he]
  rcases (isLive_withRecord hp hr record).1 h with h | h
  · rw [if_pos h, if_pos h]
    omega
  · have := hp.records record h
    obtain ⟨h1, h2, -⟩ := isLive_iff.1 h
    rw [if_neg (by omega), if_neg (by omega), if_neg (by omega), if_neg (by omega)]
    omega

end

/-! ## Deleting -/

theorem delete?_eq_some (h : p.isLive record = true) :
    p.delete? record = some (p.setPair record 0 0) := by
  rw [delete?, if_pos h]

theorem delete?_eq_none (h : ¬ p.isLive record = true) : p.delete? record = none := by
  rw [delete?, if_neg h]

theorem block_setPair : (p.setPair slot a b).block = p.block := by
  rw [setPair]

section
variable (hp : p.Intact) (hl : p.isLive record = true)
include hp hl

theorem recordCount_deleted : (p.setPair record 0 0).recordCount = p.recordCount := by
  obtain ⟨h1, h2, -⟩ := isLive_iff.1 hl
  have := hp.recordCount_lt
  rw [recordCount_setPair (by omega), if_neg (by omega)]

theorem freeEnd_deleted : (p.setPair record 0 0).freeEnd = p.freeEnd := by
  obtain ⟨h1, h2, -⟩ := isLive_iff.1 hl
  have := hp.recordCount_lt
  rw [freeEnd_setPair (by omega), if_neg (by omega)]

theorem isLive_deleted (r : Nat) :
    (p.setPair record 0 0).isLive r = true ↔ r ≠ record ∧ p.isLive r = true := by
  obtain ⟨h1, h2, -⟩ := isLive_iff.1 hl
  have := hp.recordCount_lt
  rw [isLive_iff, isLive_iff, recordCount_deleted hp hl, location_setPair (by omega)]
  split
  · simp_all
  · simp_all

theorem get?_deleted_self : (p.setPair record 0 0).get? record = none :=
  get?_eq_none fun h => ((isLive_deleted hp hl record).1 h).1 rfl

theorem get?_deleted_of_ne {r : Nat} (h : r ≠ record) :
    (p.setPair record 0 0).get? r = p.get? r := by
  obtain ⟨h1, h2, -⟩ := isLive_iff.1 hl
  have := hp.recordCount_lt
  refine get?_congr ?_ ?_ ?_ fun hr => extract_setPair (by omega) ?_
  · exact Bool.eq_iff_iff.2 ((isLive_deleted hp hl r).trans (and_iff_right h))
  · rw [location_setPair (by omega), if_neg h]
  · rw [recordSize_setPair (by omega), if_neg h]
  · have := (hp.records r hr).1
    have := hp.slots_le
    omega

theorem intact_deleted : (p.setPair record 0 0).Intact := by
  obtain ⟨h1, h2, -⟩ := isLive_iff.1 hl
  have hn := hp.recordCount_lt
  refine ⟨?_, ?_, fun r hr => ?_⟩
  · rw [recordCount_deleted hp hl, freeEnd_deleted hp hl]
    exact hp.slots_le
  · rw [freeEnd_deleted hp hl]
    exact hp.freeEnd_lt
  · obtain ⟨hne, hr⟩ := (isLive_deleted hp hl r).1 hr
    rw [freeEnd_deleted hp hl, location_setPair (by omega), recordSize_setPair (by omega), if_neg hne,
      if_neg hne]
    exact hp.records r hr

end

end Rowbase.Heap.Page
