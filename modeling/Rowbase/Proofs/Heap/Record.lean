import Mathlib.Tactic.Common
import Rowbase.Heap.Relation
import Rowbase.Proofs.Bytes
import Rowbase.Proofs.Walks

/-! # Records are read back

What `encode` writes of a row is read back by `decode` as the row itself, with NULL in the columns
that the row leaves out. -/
namespace Rowbase

namespace Bindings

theorem get?_foldl_insert [DecidableEq α] (f : α → β) (k : α) :
    ∀ (keys : List α) (b : Bindings α β),
      ((keys.map fun k => (k, f k)).foldl (fun b e => b.insert e.1 e.2) b).get? k =
        if k ∈ keys then some (f k) else b.get? k
  | [], b => by simp
  | a :: keys, b => by
    rw [List.map_cons, List.foldl_cons, get?_foldl_insert f k keys, get?_insert]
    by_cases h : k = a <;> simp [h]

/-- A map that is made of a function binds each key to the function's value. -/
theorem get?_ofList_map [DecidableEq α] (f : α → β) (keys : List α) (k : α) :
    (ofList (keys.map fun k => (k, f k))).get? k = if k ∈ keys then some (f k) else none := by
  rw [ofList, get?_foldl_insert, get?_empty]

end Bindings

/-- The row of a relation with some columns that has the values of another, and NULL where that one
has none. -/
def Row.filled (columns : List Column) (row : Row) : Row :=
  .ofList ((columns.map Column.name).map fun name => (name, (row.get? name).getD .null))

theorem Row.get?_filled (columns : List Column) (row : Row) (name : String) :
    (Row.filled columns row).get? name =
      if name ∈ columns.map Column.name then some ((row.get? name).getD .null) else none :=
  Bindings.get?_ofList_map _ _ _

/-- Filling up a row twice does what doing it once does. -/
theorem Row.filled_filled (columns : List Column) (row : Row) :
    Row.filled columns (Row.filled columns row) = Row.filled columns row := by
  rw [filled, filled]
  congr 1
  refine List.map_congr_left fun name h => ?_
  rw [← filled, Row.get?_filled, if_pos h, Option.getD_some]

namespace Heap

/-! ## Values -/

theorem takeBytes_append (bytes rest : List UInt8) :
    takeBytes bytes.length (bytes ++ rest) = .ok (bytes, rest) := by
  rw [takeBytes, if_pos (by simp), List.take_left, List.drop_left]

theorem takeBytes_ofNat (width n : Nat) (rest : List UInt8) :
    takeBytes width (Bytes.ofNat width n ++ rest) = .ok (Bytes.ofNat width n, rest) := by
  have h := takeBytes_append (Bytes.ofNat width n) rest
  rwa [Bytes.length_ofNat] at h

/-- A text is read back whatever comes after its bytes. -/
theorem decodeValue_text (relation : String) {s : String} (h : s.utf8ByteSize ≤ maxTextSize)
    (rest : List UInt8) :
    decodeValue relation .text
      (1 :: (Bytes.ofNat 2 s.utf8ByteSize ++ (s.toUTF8.data.toList ++ rest))) = .ok (.text s, rest) := by
  have hn : Bytes.toNat (Bytes.ofNat 2 s.utf8ByteSize) = s.toUTF8.data.toList.length := by
    rw [Bytes.toNat_ofNat]
    exact Nat.mod_eq_of_lt (Nat.lt_of_le_of_lt h (by decide))
  have hs : s.toUTF8.data.toList.toByteArray = s.toUTF8 := ByteArray.ext List.data_toByteArray
  have ht := takeBytes_append s.toUTF8.data.toList rest
  rw [← hn] at ht
  have hd := Text.Utf8.decode_toUTF8 s
  rw [← hs] at hd
  generalize s.toUTF8.data.toList = bytes at ht hd ⊢
  simp [decodeValue, takeBytes_ofNat, ht, hd, bind, Except.bind, pure, Except.pure]

/-- An integer is read back whatever comes after its bytes. -/
theorem decodeValue_integer (relation : String) (n : Int32) (rest : List UInt8) :
    decodeValue relation .int (1 :: (Bytes.ofNat 4 n.toUInt32.toNat ++ rest)) =
      .ok (.integer n, rest) := by
  have hn : Bytes.toNat (Bytes.ofNat 4 n.toUInt32.toNat) = n.toUInt32.toNat := by
    rw [Bytes.toNat_ofNat]
    exact Nat.mod_eq_of_lt n.toUInt32.toNat_lt
  simp [decodeValue, takeBytes_ofNat, hn, bind, Except.bind, pure, Except.pure]

/-- A value is read back whatever comes after its bytes. -/
theorem decodeValue_encodeValue (relation : String) {column : Column} {v : Value} {bytes : List UInt8}
    (h : encodeValue column v = .ok bytes) (rest : List UInt8) :
    decodeValue relation column.domain.kind (bytes ++ rest) = .ok (v, rest) := by
  cases v with
  | null => cases h; rfl
  | integer n =>
    cases hk : column.domain.kind <;> simp only [encodeValue, hk, reduceCtorEq] at h
    cases h
    exact decodeValue_integer relation n rest
  | text s =>
    cases hk : column.domain.kind <;> simp only [encodeValue, hk, reduceCtorEq] at h
    split at h
    · rename_i hs
      cases h
      rw [List.cons_append, List.append_assoc]
      exact decodeValue_text relation hs rest
    · cases h
  | boolean b =>
    cases hk : column.domain.kind <;> simp only [encodeValue, hk, reduceCtorEq] at h
    cases h
    cases b <;> rfl

/-! ## Rows -/

theorem decodeValues_flatten (relation : String) (value : Column → Value) :
    ∀ (columns : List Column) (values : List (List UInt8)),
      columns.mapM (fun c => encodeValue c (value c)) = .ok values → ∀ rest,
      decodeValues relation columns (values.flatten ++ rest) =
        .ok (columns.map fun c => (c.name, value c))
  | [], _, _, _ => rfl
  | c :: columns, values, h, rest => by
    obtain ⟨bytes, others, hc, hcs, rfl⟩ := mapM_cons_eq_ok.1 h
    rw [List.flatten_cons, List.append_assoc, decodeValues, decodeValue_encodeValue relation hc]
    change (decodeValues relation columns (others.flatten ++ rest) >>= _) = _
    rw [decodeValues_flatten relation value columns others hcs]
    rfl

theorem encode_eq_ok {columns : List Column} {row : Row} {bytes : ByteArray}
    (h : encode columns row = .ok bytes) :
    ∃ values, columns.mapM (fun c => encodeValue c ((row.get? c.name).getD .null)) = .ok values ∧
      bytes = values.flatten.toByteArray ∧ bytes.size ≤ maxRecordSize := by
  obtain ⟨values, hv, h⟩ := bind_eq_ok.1 h
  dsimp only at h
  split at h
  · cases h
  · cases h
    exact ⟨values, hv, rfl, by omega⟩

/-- A row is read back with NULL in the columns that it leaves out. -/
theorem decode_encode (relation : String) {columns : List Column} {row : Row} {bytes : ByteArray}
    (h : encode columns row = .ok bytes) :
    decode relation columns bytes = .ok (Row.filled columns row) := by
  obtain ⟨values, hv, rfl, -⟩ := encode_eq_ok h
  have hd := decodeValues_flatten relation _ columns values hv []
  rw [List.append_nil] at hd
  rw [decode, List.data_toByteArray, hd, Row.filled, List.map_map]
  rfl

end Heap

namespace Relation

variable {r : Relation} {row full : Row}

theorem cell_eq_ok {c : Column} {v : Value} (h : r.cell row c = .ok v) :
    v = (row.get? c.name).getD .null := by
  rw [cell] at h
  split at h
  · rename_i hg
    rw [hg]
    split at h
    · cases h; rfl
    · cases h
  · rename_i w hg
    rw [hg]
    split at h
    · cases h; rfl
    · cases h

theorem cells_eq_ok : ∀ {columns : List Column} {cells : List (String × Value)},
    (columns.mapM fun c => do return (c.name, ← r.cell row c)) = .ok cells →
      cells = columns.map fun c => (c.name, (row.get? c.name).getD .null)
  | [], _, h => by cases h; rfl
  | c :: columns, _, h => by
    obtain ⟨cell, cells, hc, hcs, rfl⟩ := mapM_cons_eq_ok.1 h
    obtain ⟨v, hv, hc⟩ := bind_eq_ok.1 hc
    cases hc
    rw [List.map_cons, ← cells_eq_ok hcs, cell_eq_ok hv]

/-- A row that is completed is the row filled up. -/
theorem complete_eq_ok (h : r.complete row = .ok full) : full = Row.filled r.columns row := by
  rw [complete] at h
  split at h
  · cases h
  · obtain ⟨cells, hc, h⟩ := bind_eq_ok.1 h
    cases h
    rw [Row.filled, List.map_map, cells_eq_ok hc]
    rfl

end Relation

end Rowbase
