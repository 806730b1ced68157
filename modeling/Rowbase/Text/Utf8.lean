/-! # Reading UTF-8

`decode` reads bytes as text. Bytes that are no text are refused with the first place where the
reading breaks off: either a sequence of one to three bytes that no further byte can complete, or
the end of the input inside a character. The fault is found by a machine that takes a byte at a
time and knows which range the next byte must lie in. -/
namespace Rowbase.Text.Utf8

/-- Why bytes are not UTF-8. -/
inductive Fault where
  /-- The `length` bytes from `index` on start no character. -/
  | invalid (length index : Nat)
  /-- The bytes end inside the character that starts at `index`. -/
  | incomplete (index : Nat)
deriving DecidableEq

/-- The words for a fault. -/
def Fault.message : Fault → String
  | .invalid length index =>
    s!"invalid utf-8 sequence of {length} bytes from index {index}"
  | .incomplete index => s!"incomplete utf-8 byte sequence from index {index}"

/-- What a character that starts with this byte still needs: the range of its second byte and
the number of bytes after the second. None for a byte that starts no longer character. -/
def tail? (b : UInt8) : Option (UInt8 × UInt8 × Nat) :=
  if 0xC2 ≤ b && b ≤ 0xDF then some (0x80, 0xBF, 0)
  else if b == 0xE0 then some (0xA0, 0xBF, 1)
  else if b == 0xED then some (0x80, 0x9F, 1)
  else if 0xE1 ≤ b && b ≤ 0xEF then some (0x80, 0xBF, 1)
  else if b == 0xF0 then some (0x90, 0xBF, 2)
  else if 0xF1 ≤ b && b ≤ 0xF3 then some (0x80, 0xBF, 2)
  else if b == 0xF4 then some (0x80, 0x8F, 2)
  else none

/-- The first fault of the bytes, with `start` the index of the character being read and `read`
the number of its bytes read so far. `next` is the range of its next byte and how many follow that
one; none between characters. -/
def fault? (start read : Nat) : Option (UInt8 × UInt8 × Nat) → List UInt8 → Option Fault
  | none, [] => none
  | some _, [] => some (.incomplete start)
  | none, b :: rest =>
    if b < 0x80 then fault? (start + 1) 0 none rest
    else match tail? b with
      | none => some (.invalid 1 start)
      | some next => fault? start 1 (some next) rest
  | some (low, high, more), b :: rest =>
    if low ≤ b && b ≤ high then
      match more with
      | 0 => fault? (start + read + 1) 0 none rest
      | m + 1 => fault? start (read + 1) (some (0x80, 0xBF, m)) rest
    else some (.invalid read start)

/-- The text that the bytes encode, or their first fault. -/
def decode (bytes : ByteArray) : Except Fault String :=
  if h : bytes.IsValidUTF8 then .ok (String.fromUTF8 bytes h)
  else .error ((fault? 0 0 none bytes.data.toList).getD (.incomplete 0))

/-- A text is read back from its own bytes. -/
@[simp] theorem decode_toUTF8 (s : String) : decode s.toUTF8 = .ok s := by
  have h : s.toUTF8.IsValidUTF8 := s.isValidUTF8
  simp only [decode, h, dite_true]
  rfl

end Rowbase.Text.Utf8
