import Mathlib.Tactic.Common
import Rowbase.Bytes

/-! # Parts of byte arrays that are written over

What stands where after a part of an array is written over: the new bytes in that part, and the old
ones before and after it. -/
namespace Rowbase.Bytes

variable {bytes data : ByteArray} {start : Nat}

theorem ext_data {a b : ByteArray} (h : ∀ i : Nat, a.data[i]? = b.data[i]?) : a = b :=
  ByteArray.ext (Array.ext_getElem? h)

/-- The byte at each place after a part is written over. -/
theorem data_overwrite (h : start + data.size ≤ bytes.size) (i : Nat) :
    (overwrite bytes start data).data[i]? =
      if start ≤ i ∧ i < start + data.size then data.data[i - start]? else bytes.data[i]? := by
  have hd := ByteArray.size_data (a := data)
  have hb := ByteArray.size_data (a := bytes)
  simp only [overwrite, ByteArray.data_append, ByteArray.data_extract, Array.getElem?_append,
    Array.size_append, Array.size_extract, Array.getElem?_extract, hd, hb]
  grind

theorem extract_overwrite_self (h : start + data.size ≤ bytes.size) :
    (overwrite bytes start data).extract start (start + data.size) = data := by
  have hd := ByteArray.size_data (a := data)
  apply ext_data
  intro i
  simp only [ByteArray.data_extract, Array.getElem?_extract, data_overwrite h, ByteArray.size_data,
    size_overwrite]
  grind

/-- A part that lies beside the one that is written over keeps its bytes. -/
theorem extract_overwrite_of_disjoint (h : start + data.size ≤ bytes.size) {i j : Nat}
    (hij : j ≤ start ∨ start + data.size ≤ i) :
    (overwrite bytes start data).extract i j = bytes.extract i j := by
  have hb := ByteArray.size_data (a := bytes)
  apply ext_data
  intro k
  simp only [ByteArray.data_extract, Array.getElem?_extract, data_overwrite h, ByteArray.size_data,
    size_overwrite]
  grind

theorem overwrite_all (h : data.size = bytes.size) : overwrite bytes 0 data = data := by
  have hd : (overwrite bytes 0 data).extract 0 (0 + data.size) = data := extract_overwrite_self (by omega)
  have hs := size_overwrite bytes 0 data
  rwa [Nat.zero_add, h, ← hs, ByteArray.extract_zero_size] at hd

/-- Writing behind the end, after the gap is filled, appends. -/
theorem overwrite_append (bytes data : ByteArray) (size : Nat) (h : size = data.size) :
    overwrite (bytes ++ zeros size) bytes.size data = bytes ++ data := by
  subst h
  have hd := ByteArray.size_data (a := data)
  have hb := ByteArray.size_data (a := bytes)
  have hz := (ByteArray.size_data (a := zeros data.size)).trans (size_zeros data.size)
  apply ext_data
  intro i
  rw [data_overwrite (by simp)]
  simp only [ByteArray.data_append, Array.getElem?_append, hb]
  grind

/-! ## Words -/

@[simp] theorem size_toByteArray_ofNat (width n : Nat) : (ofNat width n).toByteArray.size = width := by
  simp

theorem word_setWord_self (h : start + 2 ≤ bytes.size) (n : Nat) :
    word (setWord bytes start n) start = n % 65536 := by
  have hs := size_toByteArray_ofNat 2 n
  have he : (overwrite bytes start (ofNat 2 n).toByteArray).extract start
      (start + (ofNat 2 n).toByteArray.size) = _ := extract_overwrite_self (by omega)
  rw [hs] at he
  rw [word, setWord, he, List.data_toByteArray, toNat_ofNat]
  rfl

theorem word_overwrite_of_disjoint (h : start + data.size ≤ bytes.size) {i : Nat}
    (hi : i + 2 ≤ start ∨ start + data.size ≤ i) :
    word (overwrite bytes start data) i = word bytes i := by
  rw [word, word, extract_overwrite_of_disjoint h hi]

theorem word_setWord_of_disjoint (h : start + 2 ≤ bytes.size) (n : Nat) {i : Nat}
    (hi : i + 2 ≤ start ∨ start + 2 ≤ i) : word (setWord bytes start n) i = word bytes i := by
  have hs := size_toByteArray_ofNat 2 n
  exact word_overwrite_of_disjoint (by omega) (by omega)

theorem extract_setWord_of_disjoint (h : start + 2 ≤ bytes.size) (n : Nat) {i j : Nat}
    (hij : j ≤ start ∨ start + 2 ≤ i) : (setWord bytes start n).extract i j = bytes.extract i j := by
  have hs := size_toByteArray_ofNat 2 n
  exact extract_overwrite_of_disjoint (by omega) (by omega)

end Rowbase.Bytes
