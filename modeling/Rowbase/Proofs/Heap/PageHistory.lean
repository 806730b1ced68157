import Mathlib.Algebra.Ring.Nat
import Rowbase.Proofs.Heap.Blocks

/-! # A page is a numbered list of records

Whatever is done to a page that began blank, it behaves as the list of the records that were added to it, each under the
number that was returned for it: adding puts one at the end as long as there is room, deleting hides one, and reading the
page's bytes as a page again changes nothing. The list is kept beside the run, from what was returned alone. -/
namespace Rowbase.Heap.Page

/-- What can be done to a page. -/
inductive Op where
  | add (data : ByteArray)
  | delete (record : Nat)
  /-- The bytes of the page are read as a page, under some number of a block. -/
  | reload (block : Nat)

/-- A page during a run, with what the run has returned so far. -/
structure Trace where
  page : Page
  /-- All records that were added, with the numbers that were returned for them. -/
  added : List (Nat × ByteArray)
  /-- The numbers of the records that were deleted. -/
  deleted : List Nat

/-- The trace after something was done to the page. -/
def Trace.step (t : Trace) : Op → Trace
  | .add data => match t.page.add data with
    | .ok (record, page) => { t with page, added := t.added ++ [(record, data)] }
    | .error _ => t
  | .delete record => match t.page.delete? record with
    | some page => { t with page, deleted := record :: t.deleted }
    | none => t
  | .reload block => { t with page := ofBytes block t.page.bytes }

/-- The trace after a run. -/
def Trace.run (t : Trace) (ops : List Op) : Trace := ops.foldl step t

/-- Where a run starts: the page is blank. -/
def Trace.start (block : Nat) : Trace := ⟨blank block, [], []⟩

/-- The bytes of all records that were ever added, taken together. -/
def Trace.total (t : Trace) : Nat := (t.added.map fun e => e.2.size).sum

variable {p q : Page} {t : Trace} {record other : Nat} {data : ByteArray}

/-! ## What depends on the bytes alone -/

theorem bytes_ofBytes (block : Nat) (p : Page) : (ofBytes block p.bytes).bytes = p.bytes := by
  have h := congrArg Page.bytes (ofBytes_bytes p)
  exact h

section
variable (h : q.bytes = p.bytes)
include h

theorem recordCount_congr : q.recordCount = p.recordCount := by rw [recordCount, recordCount, h]

theorem freeEnd_congr : q.freeEnd = p.freeEnd := by rw [freeEnd, freeEnd, h]

theorem location_congr (record : Nat) : q.location record = p.location record := by rw [location, location, h]

theorem recordSize_congr (record : Nat) : q.recordSize record = p.recordSize record := by
  rw [recordSize, recordSize, h]

theorem isLive_congr (record : Nat) : q.isLive record = p.isLive record := by
  rw [isLive, isLive, recordCount_congr h, location_congr h]

theorem Intact.congr (hp : p.Intact) : q.Intact where
  slots_le := by
    rw [recordCount_congr h, freeEnd_congr h]
    exact hp.slots_le
  freeEnd_lt := by
    rw [freeEnd_congr h]
    exact hp.freeEnd_lt
  records record hl := by
    rw [isLive_congr h] at hl
    rw [freeEnd_congr h, location_congr h, recordSize_congr h]
    exact hp.records record hl

end

/-! ## Records that lie apart -/

/-- Whether each live record lies before all that were added earlier. -/
def Stacked (p : Page) : Prop := ∀ record other, record < other → p.isLive record = true → p.isLive other = true →
  p.location other + p.recordSize other ≤ p.location record

theorem stacked_blank (block : Nat) : (blank block).Stacked := by
  intro record other _ hl _
  rw [isLive_iff, recordCount_blank] at hl
  omega

/-- A record that is added lies before all others. -/
theorem Stacked.withRecord (hs : p.Stacked) (hp : p.Intact) (hr : p.hasRoom data.size = true) :
    (p.withRecord data).Stacked := by
  intro record other hlt hl hl'
  have hroom := room hr
  have hcount := recordCount_withRecord hp hr
  obtain ⟨h1, h2, -⟩ := isLive_iff.1 hl
  obtain ⟨h1', h2', -⟩ := isLive_iff.1 hl'
  rw [hcount] at h2 h2'
  rw [location_withRecord hp hr h2, location_withRecord hp hr h2', recordSize_withRecord hp hr h2']
  -- the lower of two numbers was given out before
  have hne : record ≠ p.recordCount + 1 := by omega
  have hold : p.isLive record = true := ((isLive_withRecord hp hr record).1 hl).resolve_left hne
  have hbehind := (hp.records record hold).1
  rw [if_neg hne, if_neg (Nat.ne_of_gt h1)]
  by_cases he : other = p.recordCount + 1
  · rw [if_pos he, if_pos he]
    omega
  · have hold' : p.isLive other = true := ((isLive_withRecord hp hr other).1 hl').resolve_left he
    rw [if_neg he, if_neg he, if_neg (Nat.ne_of_gt h1'), if_neg (Nat.ne_of_gt h1')]
    exact hs record other hlt hold hold'

theorem Stacked.deleted (hs : p.Stacked) (hp : p.Intact) (hl : p.isLive record = true) :
    (p.setPair record 0 0).Stacked := by
  intro a b hlt ha hb
  obtain ⟨-, hle, -⟩ := isLive_iff.1 hl
  have hcount := hp.recordCount_lt
  obtain ⟨hna, ha⟩ := (isLive_deleted hp hl a).1 ha
  obtain ⟨hnb, hb⟩ := (isLive_deleted hp hl b).1 hb
  rw [location_setPair (by omega), location_setPair (by omega), recordSize_setPair (by omega), if_neg hna, if_neg hnb,
    if_neg hnb]
  exact hs a b hlt ha hb

/-! ## Runs -/

/-- Whether the list of records is what the page holds. -/
structure Trace.Sound (t : Trace) : Prop where
  intact : t.page.Intact
  stacked : t.page.Stacked
  count : t.page.recordCount = t.added.length
  free : t.page.freeEnd + t.total = blockSize - 1
  numbers : t.added.map Prod.fst = List.range' 1 t.added.length
  known : ∀ record ∈ t.deleted, record ≤ t.added.length
  get : ∀ record data, t.page.get? record = some data ↔ (record, data) ∈ t.added ∧ record ∉ t.deleted

/-- A page without slots goes with the empty list. -/
theorem Trace.Sound.of_recordCount (hp : p.Intact) (hs : p.Stacked) (hcount : p.recordCount = 0)
    (hfree : p.freeEnd = blockSize - 1) : Sound ⟨p, [], []⟩ where
  intact := hp
  stacked := hs
  count := hcount
  free := hfree
  numbers := rfl
  known := nofun
  get record data := by
    have hdead : ¬ p.isLive record = true := by
      rw [isLive_iff, hcount]
      omega
    simp [get?_eq_none hdead]

theorem Trace.sound_start (block : Nat) : (start block).Sound :=
  .of_recordCount (intact_blank block) (stacked_blank block) (recordCount_blank block) (freeEnd_blank block)

namespace Trace.Sound

theorem le_of_mem (hs : t.Sound) (hm : (record, data) ∈ t.added) : 1 ≤ record ∧ record ≤ t.added.length := by
  have hnumber : record ∈ t.added.map Prod.fst := List.mem_map_of_mem hm
  rw [hs.numbers, List.mem_range'_1] at hnumber
  omega

theorem isLive_iff_mem (hs : t.Sound) :
    t.page.isLive record = true ↔ ∃ data, (record, data) ∈ t.added ∧ record ∉ t.deleted := by
  rw [← isSome_get?, Option.isSome_iff_exists]
  exact exists_congr fun data => hs.get record data

/-- There is room for a record just if all slots and all records ever added leave it. -/
theorem hasRoom_iff (hs : t.Sound) (size : Nat) :
    t.page.hasRoom size = true ↔ 4 * (t.added.length + 2) + t.total + size ≤ 4096 := by
  have hfree := hs.free
  rw [blockSize] at hfree
  simp only [hasRoom, hs.count, decide_eq_true_eq]
  omega

/-- A record that is added gets the next number. -/
theorem added (hs : t.Sound) (hr : t.page.hasRoom data.size = true) :
    Sound ⟨t.page.withRecord data, t.added ++ [(t.added.length + 1, data)], t.deleted⟩ where
  intact := intact_withRecord hs.intact hr
  stacked := hs.stacked.withRecord hs.intact hr
  count := by
    rw [recordCount_withRecord hs.intact hr, hs.count, List.length_append, List.length_singleton]
  free := by
    have hroom := room hr
    have hfree := hs.free
    simp only [total, List.map_append, List.map_singleton, List.sum_append, List.sum_singleton] at hfree ⊢
    rw [freeEnd_withRecord hs.intact hr]
    omega
  numbers := by
    rw [List.map_append, hs.numbers, List.length_append, List.length_singleton, List.range'_concat, Nat.one_mul,
      Nat.add_comm 1]
    rfl
  known record hm := by
    have hle := hs.known record hm
    rw [List.length_append]
    exact Nat.le_add_right_of_le hle
  get record other := by
    by_cases he : record = t.added.length + 1
    · -- nothing was added or deleted under the new number before
      have hself := get?_withRecord_self hs.intact hr
      have hnew : ∀ other, (record, other) ∉ t.added := fun other hm => by
        have := hs.le_of_mem hm
        omega
      have hkept : record ∉ t.deleted := fun hm => by
        have := hs.known record hm
        omega
      rw [hs.count, ← he] at hself
      rw [← he, hself]
      simp [hnew, hkept, eq_comm]
    · have hne : record ≠ t.page.recordCount + 1 := by
        rw [hs.count]
        exact he
      simp [get?_withRecord_of_ne hs.intact hr hne, hs.get, he]

/-- A record that is deleted is hidden, and all others stay. -/
theorem deleted (hs : t.Sound) (hl : t.page.isLive record = true) :
    Sound ⟨t.page.setPair record 0 0, t.added, record :: t.deleted⟩ where
  intact := intact_deleted hs.intact hl
  stacked := hs.stacked.deleted hs.intact hl
  count := (recordCount_deleted hs.intact hl).trans hs.count
  free := by
    have hfree := hs.free
    rw [total] at hfree ⊢
    rw [freeEnd_deleted hs.intact hl]
    exact hfree
  numbers := hs.numbers
  known other hm := by
    rcases List.mem_cons.1 hm with rfl | hm
    · obtain ⟨-, hle, -⟩ := isLive_iff.1 hl
      exact hs.count ▸ hle
    · exact hs.known other hm
  get other data := by
    by_cases he : other = record
    · rw [he, get?_deleted_self hs.intact hl]
      simp
    · rw [get?_deleted_of_ne hs.intact hl he, hs.get]
      simp [he]

/-- A page that is read from the bytes of another holds the same records. -/
theorem reloaded (hs : t.Sound) (block : Nat) : Sound { t with page := ofBytes block t.page.bytes } := by
  have hbytes := bytes_ofBytes block t.page
  refine ⟨hs.intact.congr hbytes, fun record other hlt hl hl' => ?_, (recordCount_congr hbytes).trans hs.count, ?_,
    hs.numbers, hs.known, fun record data => ?_⟩
  · rw [isLive_congr hbytes] at hl hl'
    rw [location_congr hbytes, location_congr hbytes, recordSize_congr hbytes]
    exact hs.stacked record other hlt hl hl'
  · have hfree := hs.free
    rw [← freeEnd_congr hbytes] at hfree
    exact hfree
  · rw [get?_congr (isLive_congr hbytes record) (location_congr hbytes record) (recordSize_congr hbytes record)
      fun _ => by rw [hbytes]]
    exact hs.get record data

/-- Each step takes a list that agrees with the page to one that agrees with it. -/
theorem step (hs : t.Sound) (op : Op) : (t.step op).Sound := by
  cases op with
  | add data =>
    by_cases hr : t.page.hasRoom data.size = true
    · simp only [Trace.step, add_of_hasRoom hr, hs.count]
      exact hs.added hr
    · simp only [Trace.step, add, if_neg hr]
      exact hs
  | delete record =>
    by_cases hl : t.page.isLive record = true
    · simp only [Trace.step, delete?_eq_some hl]
      exact hs.deleted hl
    · simp only [Trace.step, delete?_eq_none hl]
      exact hs
  | reload block => exact hs.reloaded block

theorem run (ops : List Op) : ∀ {t : Trace}, t.Sound → (t.run ops).Sound := by
  induction ops with
  | nil => exact id
  | cons op ops ih => exact fun hs => ih (hs.step op)

end Trace.Sound

/-! ## What the list tells -/

/-- Whether a page answers as the list of records kept beside its run does, and reaches no byte outside of it. -/
structure Trace.Faithful (t : Trace) : Prop where
  /-- The numbers were given out in turn. -/
  numbers : t.added.map Prod.fst = List.range' 1 t.added.length
  /-- A record is read as it was added until it is deleted, and nothing is read under any other number. -/
  get : ∀ record data, t.page.get? record = some data ↔ (record, data) ∈ t.added ∧ record ∉ t.deleted
  /-- The records that are not deleted are listed in the order of their numbers. -/
  records : t.page.records = (t.added.map Prod.fst).filter (· ∉ t.deleted)
  ascending : t.page.records.Pairwise (· < ·)
  /-- A record can be deleted just while it is there. -/
  delete : ∀ record, (∃ page, t.page.delete? record = some page) ↔
    ∃ data, (record, data) ∈ t.added ∧ record ∉ t.deleted
  /-- The records lie behind all slots and inside of the block. -/
  inside : ∀ record ∈ t.page.records, 4 * (t.added.length + 1) ≤ t.page.location record ∧
    t.page.location record + t.page.recordSize record ≤ 4096
  /-- No two records share a byte. -/
  apart : ∀ record ∈ t.page.records, ∀ other ∈ t.page.records, record ≠ other →
    t.page.location record + t.page.recordSize record ≤ t.page.location other ∨
      t.page.location other + t.page.recordSize other ≤ t.page.location record
  /-- There is room as long as the slots and all records ever added leave it. -/
  hasRoom : ∀ size, t.page.hasRoom size = true ↔ 4 * (t.added.length + 2) + t.total + size ≤ 4096
  /-- A record for which there is room is added under the next number. -/
  add : ∀ data, t.page.hasRoom data.size = true → ∃ page, t.page.add data = .ok (t.added.length + 1, page)
  /-- A record for which there is none is refused, and nothing changes. -/
  refused : ∀ data, t.page.hasRoom data.size = false →
    t.page.add data = .error (.noRoom t.page.block data.size) ∧ t.step (.add data) = t
  /-- All slots lie in the block. -/
  slots : 4 * t.page.recordCount + 4 ≤ 4096
  /-- The free bytes hold a record that is added, its slot lies in the block, and all numbers fit words. -/
  fits : ∀ size, t.page.hasRoom size = true → size ≤ t.page.freeEnd ∧ t.page.freeEnd + 1 ≤ 4096 ∧
    4 * (t.page.recordCount + 1) + 4 ≤ t.page.freeEnd - size + 1 ∧ t.page.recordCount + 1 < 65536 ∧ size < 65536

theorem Trace.Sound.faithful (hs : t.Sound) : t.Faithful where
  numbers := hs.numbers
  get := hs.get
  records := by
    rw [records, hs.numbers, hs.count]
    refine List.filter_congr fun record hm => ?_
    have hnumber : record ∈ t.added.map Prod.fst := hs.numbers ▸ hm
    rw [Bool.eq_iff_iff, hs.isLive_iff_mem, decide_eq_true_iff]
    obtain ⟨e, he, rfl⟩ := List.mem_map.1 hnumber
    constructor
    · rintro ⟨_, _, hkept⟩
      exact hkept
    · exact fun hkept => ⟨e.2, he, hkept⟩
  ascending := List.Pairwise.filter _ List.pairwise_lt_range'
  delete record := by
    rw [← hs.isLive_iff_mem]
    by_cases hl : t.page.isLive record = true
    · simp [delete?_eq_some hl, hl]
    · simp [delete?_eq_none hl, hl]
  inside record hm := by
    have hslots := hs.intact.slots_le
    obtain ⟨hbehind, hend⟩ := hs.intact.records record ((mem_records t.page record).1 hm)
    rw [hs.count] at hslots
    rw [blockSize] at hend
    omega
  apart record hm other hm' hne := by
    rw [mem_records] at hm hm'
    rcases Nat.lt_or_gt_of_ne hne with hlt | hlt
    · exact .inr (hs.stacked record other hlt hm hm')
    · exact .inl (hs.stacked other record hlt hm' hm)
  hasRoom := hs.hasRoom_iff
  add data hr := ⟨t.page.withRecord data, by rw [add_of_hasRoom hr, hs.count]⟩
  refused data hr := by
    have hnone : ¬ t.page.hasRoom data.size = true := by simp [hr]
    have hrefused : t.page.add data = .error (.noRoom t.page.block data.size) := by rw [Page.add, if_neg hnone]
    exact ⟨hrefused, by rw [Trace.step, hrefused]⟩
  slots := by
    have hslots := hs.intact.slots_le
    have hend := hs.intact.freeEnd_lt
    rw [blockSize] at hend
    omega
  fits size hr := by
    have hroom := of_decide_eq_true hr
    have hend := hs.intact.freeEnd_lt
    rw [blockSize] at hend
    omega

/-- Whatever is done to a page that began blank, it answers as the list of its records does. -/
theorem faithful_page (block : Nat) (ops : List Op) : ((Trace.start block).run ops).Faithful :=
  ((Trace.sound_start block).run ops).faithful

end Rowbase.Heap.Page
