/-! # Bytes

Numbers written with the lowest byte first, and byte arrays of which a part is written over. -/
namespace Rowbase.Bytes

/-- The lowest `width` bytes of a number, lowest first. -/
def ofNat : (width n : Nat) → List UInt8
  | 0, _ => []
  | width + 1, n => UInt8.ofNat n :: ofNat width (n / 256)

/-- The number whose bytes these are, lowest first. -/
def toNat : List UInt8 → Nat
  | [] => 0
  | b :: rest => b.toNat + 256 * toNat rest

@[simp] theorem length_ofNat (width n : Nat) : (ofNat width n).length = width := by
  induction width generalizing n with
  | zero => rfl
  | succ width ih => simp [ofNat, ih]

/-- How many numbers so many bytes can tell apart. -/
def span : (width : Nat) → Nat
  | 0 => 1
  | width + 1 => 256 * span width

/-- Reading a number back loses only the bytes that were not written. -/
theorem toNat_ofNat (width n : Nat) : toNat (ofNat width n) = n % span width := by
  induction width generalizing n with
  | zero => simp [ofNat, toNat, span, Nat.mod_one]
  | succ width ih =>
    have h : (UInt8.ofNat n).toNat = n % 256 := rfl
    rw [ofNat, toNat, ih, h, span, Nat.mod_mul]

/-- An array of zeros. -/
def zeros (size : Nat) : ByteArray := ⟨Array.replicate size 0⟩

@[simp] theorem size_zeros (size : Nat) : (zeros size).size = size := by
  simp [zeros, ByteArray.size]

/-- The bytes with `data` written over them from `start` on, as far as they reach. -/
def overwrite (bytes : ByteArray) (start : Nat) (data : ByteArray) : ByteArray :=
  bytes.extract 0 start ++ data.extract 0 (bytes.size - start) ++
    bytes.extract (start + data.size) bytes.size

@[simp] theorem size_overwrite (bytes : ByteArray) (start : Nat) (data : ByteArray) :
    (overwrite bytes start data).size = bytes.size := by
  simp only [overwrite, ByteArray.size_append, ByteArray.size_extract]
  omega

/-- The number of 16 bits that stands at a place. -/
def word (bytes : ByteArray) (start : Nat) : Nat :=
  toNat (bytes.extract start (start + 2)).data.toList

/-- The bytes with a number of 16 bits written over them. -/
def setWord (bytes : ByteArray) (start n : Nat) : ByteArray :=
  overwrite bytes start (ofNat 2 n).toByteArray

@[simp] theorem size_setWord (bytes : ByteArray) (start n : Nat) :
    (setWord bytes start n).size = bytes.size := by
  simp [setWord]

end Rowbase.Bytes
