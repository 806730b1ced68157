import Rowbase.Proofs.Heap.Relation

/-! # The size of records

A record takes one byte for each NULL, five for an integer, two for a truth value, and three more than its bytes
for a text. A row makes a record just if it names columns of the relation only, its values are of their kinds,
and the record is not too large for a block. -/
namespace Rowbase

/-- How many bytes a record takes for a value. -/
def Value.storedSize : Value → Nat
  | .null => 1
  | .integer _ => 5
  | .text s => 3 + s.utf8ByteSize
  | .boolean _ => 2

namespace Row

/-- How many bytes the record of a row takes in a relation with some columns. -/
def storedSize (row : Row) : List Column → Nat
  | [] => 0
  | column :: columns => ((row.get? column.name).getD .null).storedSize + row.storedSize columns

/-- Whether a row names only columns of some, and has only values of their domains. -/
structure Suits (row : Row) (columns : List Column) : Prop where
  named : ∀ name ∈ row.keys, name ∈ columns.map Column.name
  accepted : ∀ column ∈ columns, ∀ v, row.get? column.name = some v → column.domain.accepts v = true

theorem storedSize_congr {row row' : Row} : ∀ {columns : List Column},
    (∀ column ∈ columns, (row.get? column.name).getD .null = (row'.get? column.name).getD .null) →
      row.storedSize columns = row'.storedSize columns
  | [], _ => rfl
  | column :: columns, h => by
    rw [storedSize, storedSize, h column (.head _), storedSize_congr fun column hm => h column (.tail _ hm)]

/-- A row that is filled up takes as many bytes. -/
theorem storedSize_filled (columns : List Column) (row : Row) :
    (Row.filled columns row).storedSize columns = row.storedSize columns := by
  refine storedSize_congr fun column hm => ?_
  rw [get?_filled, if_pos (List.mem_map_of_mem hm), Option.getD_some]

end Row

namespace Heap

variable {column : Column} {columns : List Column} {v : Value} {row : Row} {bytes : List UInt8}

/-- A value that is encoded takes as many bytes as its kind says. -/
theorem length_encodeValue (h : encodeValue column v = .ok bytes) : bytes.length = v.storedSize := by
  cases v with
  | null =>
    cases h
    rfl
  | integer n =>
    cases hk : column.domain.kind <;> simp only [encodeValue, hk, reduceCtorEq] at h
    cases h
    rw [List.length_cons, Bytes.length_ofNat, Value.storedSize]
  | text s =>
    cases hk : column.domain.kind <;> simp only [encodeValue, hk, reduceCtorEq] at h
    split at h
    · cases h
      have hsize : s.toUTF8.data.toList.length = s.utf8ByteSize := rfl
      rw [List.length_cons, List.length_append, Bytes.length_ofNat, hsize, Value.storedSize]
      omega
    · cases h
  | boolean b =>
    cases hk : column.domain.kind <;> simp only [encodeValue, hk, reduceCtorEq] at h
    cases h
    rfl

/-- A value of the column's kind is encoded unless it is a very long text; so is NULL. -/
theorem exists_encodeValue (hkind : ∀ k, v.kind? = some k → k = column.domain.kind)
    (hsize : v.storedSize ≤ maxRecordSize) : ∃ bytes, encodeValue column v = .ok bytes := by
  cases v with
  | null => exact ⟨_, rfl⟩
  | integer n =>
    have hk := hkind .int rfl
    simp [encodeValue, ← hk]
  | text s =>
    have hk := hkind .text rfl
    have hs : s.utf8ByteSize ≤ maxTextSize := by
      have hlarge : maxRecordSize ≤ maxTextSize := by decide
      rw [Value.storedSize] at hsize
      omega
    simp [encodeValue, ← hk, hs]
  | boolean b =>
    have hk := hkind .boolean rfl
    simp [encodeValue, ← hk]

theorem kind_of_encodeValue {k : Kind} (h : encodeValue column v = .ok bytes) (hk : v.kind? = some k) :
    k = column.domain.kind := by
  cases v with
  | null => cases hk
  | integer n | text s | boolean b =>
    cases hk
    cases hc : column.domain.kind <;> simp only [encodeValue, hc, reduceCtorEq] at h
    rfl

/-- The values of a row that are encoded take as many bytes as the row does. -/
theorem length_flatten_encoded (row : Row) : ∀ {columns : List Column} {values : List (List UInt8)},
    columns.mapM (fun column => encodeValue column ((row.get? column.name).getD .null)) = .ok values →
      values.flatten.length = row.storedSize columns
  | [], _, h => by
    cases h
    rfl
  | column :: columns, _, h => by
    obtain ⟨bytes, values, hfirst, hrest, rfl⟩ := mapM_cons_eq_ok.1 h
    rw [List.flatten_cons, List.length_append, length_encodeValue hfirst, length_flatten_encoded row hrest]
    rfl

theorem storedSize_le_of_mem (row : Row) (hm : column ∈ columns) :
    ((row.get? column.name).getD .null).storedSize ≤ row.storedSize columns := by
  induction columns with
  | nil => cases hm
  | cons first columns ih =>
    rw [Row.storedSize]
    rcases List.mem_cons.1 hm with rfl | hm
    · exact Nat.le_add_right _ _
    · exact Nat.le_trans (ih hm) (Nat.le_add_left _ _)

/-- A row makes a record just if its values are of the columns' kinds and the record is not too large. -/
theorem exists_encode_iff : (∃ record, encode columns row = .ok record) ↔
    (∀ column ∈ columns, ∀ k, ((row.get? column.name).getD .null).kind? = some k → k = column.domain.kind) ∧
      row.storedSize columns ≤ maxRecordSize := by
  constructor
  · rintro ⟨record, h⟩
    obtain ⟨values, hvalues, rfl, hsize⟩ := encode_eq_ok h
    refine ⟨fun column hm k hk => ?_, ?_⟩
    · obtain ⟨bytes, -, hbytes⟩ := exists_of_mapM_eq_ok hvalues hm
      exact kind_of_encodeValue hbytes hk
    · rwa [List.size_toByteArray, length_flatten_encoded row hvalues] at hsize
  · rintro ⟨hkinds, hsize⟩
    obtain ⟨values, hvalues⟩ : ∃ values, columns.mapM (fun column =>
        encodeValue column ((row.get? column.name).getD .null)) = .ok values := by
      refine exists_mapM fun column hm => exists_encodeValue (hkinds column hm) ?_
      exact Nat.le_trans (storedSize_le_of_mem row hm) hsize
    have hlength : values.flatten.toByteArray.size = row.storedSize columns := by
      rw [List.size_toByteArray, length_flatten_encoded row hvalues]
    refine ⟨values.flatten.toByteArray, bind_eq_ok.2 ⟨values, hvalues, ?_⟩⟩
    exact if_neg (by omega)

end Heap

namespace Relation

variable {r : Relation} {row : Row}

theorem exists_cell_iff {column : Column} (hnull : column.domain.nullable = true) :
    (∃ v, r.cell row column = .ok v) ↔
      ∀ v, row.get? column.name = some v → column.domain.accepts v = true := by
  rw [cell]
  cases row.get? column.name with
  | none => simp [hnull]
  | some v =>
    by_cases ha : column.domain.accepts v = true <;> simp [ha]

/-- A row is completed just if it names columns of the relation only and has values of their domains. -/
theorem exists_complete_iff (hnull : ∀ column ∈ r.columns, column.domain.nullable = true) :
    (∃ full, r.complete row = .ok full) ↔ row.Suits r.columns := by
  have hextra : row.keys.find? (· ∉ r.columnNames) = none ↔
      ∀ name ∈ row.keys, name ∈ r.columns.map Column.name := by
    simp [List.find?_eq_none, columnNames]
  constructor
  · rintro ⟨full, h⟩
    rw [complete] at h
    split at h
    · cases h
    · rename_i hnone
      obtain ⟨cells, hcells, -⟩ := bind_eq_ok.1 h
      refine ⟨hextra.1 hnone, fun column hm => (exists_cell_iff (r := r) (hnull column hm)).1 ?_⟩
      obtain ⟨cell, -, hcell⟩ := exists_of_mapM_eq_ok hcells hm
      obtain ⟨v, hv, -⟩ := bind_eq_ok.1 hcell
      exact ⟨v, hv⟩
  · rintro ⟨hnamed, haccepted⟩
    obtain ⟨cells, hcells⟩ : ∃ cells, r.columns.mapM (fun column => do
        return (column.name, ← r.cell row column)) = .ok cells := by
      refine exists_mapM fun column hm => ?_
      obtain ⟨v, hv⟩ := (exists_cell_iff (hnull column hm)).2 (haccepted column hm)
      exact ⟨(column.name, v), bind_eq_ok.2 ⟨v, hv, rfl⟩⟩
    rw [complete, hextra.2 hnamed]
    exact ⟨_, bind_eq_ok.2 ⟨cells, hcells, rfl⟩⟩

/-- A row makes a record of a relation just if it suits the columns and the record is not too large. -/
theorem exists_record_iff (hnull : ∀ column ∈ r.columns, column.domain.nullable = true) :
    (∃ data, r.record row = .ok data) ↔
      row.Suits r.columns ∧ row.storedSize r.columns ≤ Heap.maxRecordSize := by
  have hrecord : (∃ data, r.record row = .ok data) ↔ (∃ full, r.complete row = .ok full) ∧
      ∃ data, Heap.encode r.columns (Row.filled r.columns row) = .ok data := by
    constructor
    · rintro ⟨data, h⟩
      exact ⟨⟨_, (record_eq_ok h).1⟩, ⟨data, (record_eq_ok h).2⟩⟩
    · rintro ⟨⟨full, hfull⟩, data, hdata⟩
      rw [← complete_eq_ok hfull] at hdata
      exact ⟨data, bind_eq_ok.2 ⟨full, hfull, mapError_eq_ok.2 hdata⟩⟩
  rw [hrecord, exists_complete_iff hnull, Heap.exists_encode_iff, Row.storedSize_filled]
  refine and_congr_right fun hsuits => and_iff_right fun column hm k hk => ?_
  rw [Row.get?_filled, if_pos (List.mem_map_of_mem hm), Option.getD_some] at hk
  cases hv : row.get? column.name with
  | none =>
    rw [hv] at hk
    cases hk
  | some v =>
    have haccepts := hsuits.accepted column hm v hv
    rw [hv, Option.getD_some] at hk
    rw [Domain.accepts, hk] at haccepts
    exact beq_iff_eq.1 haccepts

end Relation

end Rowbase
