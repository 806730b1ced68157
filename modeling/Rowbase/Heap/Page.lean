import Rowbase.Bytes
import Rowbase.Error

/-! # Pages

A page is a block of 4096 bytes that holds records. From the front it has two words, the number of
records ever added and the last free byte, and then a slot of two words for each record: its size
and its location. The records themselves fill the block from the back. Records are numbered from 1
in the order in which they came; a deleted record leaves its slot behind with two zeros in it, so
its number never comes back. -/
namespace Rowbase.Heap

/-- The size of a block in bytes. -/
def blockSize : Nat := 4096

/-- A block with records. -/
structure Page where
  /-- The number of the block in its file. -/
  block : Nat
  bytes : ByteArray
  size_bytes : bytes.size = blockSize

namespace Page

/-- The page with these bytes, cut off or filled up with zeros to the size of a block. -/
def ofBytes (block : Nat) (bytes : ByteArray) : Page where
  block
  bytes := Bytes.overwrite (Bytes.zeros blockSize) 0 bytes
  size_bytes := by simp

/-- The number of records ever added. -/
def recordCount (p : Page) : Nat := Bytes.word p.bytes 0

/-- The last byte that is free. -/
def freeEnd (p : Page) : Nat := Bytes.word p.bytes 2

/-- The size of a record. -/
def recordSize (p : Page) (record : Nat) : Nat := Bytes.word p.bytes (4 * record)

/-- Where a record starts, or 0 if it was deleted. -/
def location (p : Page) (record : Nat) : Nat := Bytes.word p.bytes (4 * record + 2)

/-- The page with two words written over it: those of a slot, or the two in front of the slots. -/
def setPair (p : Page) (slot first second : Nat) : Page where
  block := p.block
  bytes := Bytes.setWord (Bytes.setWord p.bytes (4 * slot) first) (4 * slot + 2) second
  size_bytes := by simp [p.size_bytes]

/-- The page with bytes written over it. -/
def setBytes (p : Page) (start : Nat) (data : ByteArray) : Page where
  block := p.block
  bytes := Bytes.overwrite p.bytes start data
  size_bytes := by simp [p.size_bytes]

/-- A page without records. -/
def blank (block : Nat) : Page := (ofBytes block .empty).setPair 0 0 (blockSize - 1)

/-- Whether a record of this size fits between the slots and the other records, with a slot of its
own. -/
def hasRoom (p : Page) (size : Nat) : Bool := 4 * (p.recordCount + 2) + size ≤ p.freeEnd + 1

/-- Adds a record, and returns its number. -/
def add (p : Page) (data : ByteArray) : Except StorageError (Nat × Page) :=
  if p.hasRoom data.size then
    let record := p.recordCount + 1
    let freeEnd := p.freeEnd - data.size
    .ok (record, ((p.setPair 0 record freeEnd).setPair record data.size (freeEnd + 1)).setBytes
      (freeEnd + 1) data)
  else .error (.noRoom p.block data.size)

/-- Whether the record was added and is not deleted. -/
def isLive (p : Page) (record : Nat) : Bool :=
  1 ≤ record && record ≤ p.recordCount && p.location record != 0

/-- The bytes of a live record. -/
def get? (p : Page) (record : Nat) : Option ByteArray :=
  if p.isLive record then
    some (p.bytes.extract (p.location record) (p.location record + p.recordSize record))
  else none

/-- Deletes a live record. -/
def delete? (p : Page) (record : Nat) : Option Page :=
  if p.isLive record then some (p.setPair record 0 0) else none

/-- The numbers of the live records, ascending. -/
def records (p : Page) : List Nat := (List.range' 1 p.recordCount).filter p.isLive

/-- A number is listed just if its record is live. -/
theorem mem_records (p : Page) (record : Nat) : record ∈ p.records ↔ p.isLive record := by
  simp only [records, List.mem_filter, List.mem_range'_1, isLive, Bool.and_eq_true,
    decide_eq_true_eq, and_iff_right_iff_imp]
  intro h
  omega

end Page

end Rowbase.Heap
