import Rowbase.Proofs.Heap.Size

/-! # Records to their last byte

A complete row makes a record just if the record fits a block. It is then read back as the row, and reading it uses all
of its bytes: nothing that follows a record can change what is read of it, and nothing of it is left over. -/
namespace Rowbase

namespace Heap

variable {relation : String} {columns : List Column} {bytes : List UInt8}

/-- The values of the columns, in their order, and the bytes that are left after the last. -/
def readValues (relation : String) :
    List Column → List UInt8 → Except StorageError (List (String × Value) × List UInt8)
  | [], bytes => .ok ([], bytes)
  | column :: columns, bytes => do
    let (v, rest) ← decodeValue relation column.domain.kind bytes
    let (entries, rest) ← readValues relation columns rest
    return ((column.name, v) :: entries, rest)

/-- Decoding values is reading them and leaving the other bytes alone. -/
theorem decodeValues_eq (relation : String) : ∀ (columns : List Column) (bytes : List UInt8),
    decodeValues relation columns bytes = Prod.fst <$> readValues relation columns bytes
  | [], _ => rfl
  | column :: columns, bytes => by
    rw [decodeValues, readValues]
    cases decodeValue relation column.domain.kind bytes with
    | error e => rfl
    | ok read =>
      obtain ⟨v, rest⟩ := read
      simp only [bind, Except.bind, decodeValues_eq relation columns rest]
      cases readValues relation columns rest <;> rfl

theorem decode_of_readValues {record : ByteArray} {entries : List (String × Value)} {rest : List UInt8}
    (h : readValues relation columns record.data.toList = .ok (entries, rest)) :
    decode relation columns record = .ok (.ofList entries) := by
  simp only [decode, decodeValues_eq, h]
  rfl

/-- Of encoded values no byte is left, and none of those behind them is read. -/
theorem readValues_flatten (relation : String) (value : Column → Value) :
    ∀ (columns : List Column) (values : List (List UInt8)),
      columns.mapM (fun c => encodeValue c (value c)) = .ok values → ∀ rest,
      readValues relation columns (values.flatten ++ rest) =
        .ok (columns.map fun c => (c.name, value c), rest)
  | [], _, h, rest => by
    cases h
    rfl
  | c :: columns, _, h, rest => by
    obtain ⟨bytes, others, hc, hcs, rfl⟩ := mapM_cons_eq_ok.1 h
    have hread := readValues_flatten relation value columns others hcs rest
    rw [List.flatten_cons, List.append_assoc, readValues, decodeValue_encodeValue relation hc]
    simp [bind, Except.bind, hread, pure, Except.pure]

end Heap

namespace Relation

variable {r : Relation} {row full : Row}

theorem accepts_of_cell {c : Column} {v : Value} (h : r.cell row c = .ok v) : v = .null ∨ c.domain.accepts v := by
  unfold cell at h
  split at h
  · split at h
    · cases h
      exact .inl rfl
    · cases h
  · split at h
    · cases h
      exact .inr ‹_›
    · cases h

/-- A complete row has in each column NULL or a value of the column's kind. -/
theorem kind_of_complete (h : r.complete row = .ok full) {c : Column} (hc : c ∈ r.columns) {k : Kind}
    (hk : ((full.get? c.name).getD .null).kind? = some k) : k = c.domain.kind := by
  have hfull := complete_eq_ok h
  unfold complete at h
  split at h
  · cases h
  obtain ⟨cells, hcells, -⟩ := bind_eq_ok.1 h
  obtain ⟨cell, -, hcell⟩ := exists_of_mapM_eq_ok hcells hc
  obtain ⟨v, hv, -⟩ := bind_eq_ok.1 hcell
  have hvalue : (full.get? c.name).getD .null = v := by
    rw [hfull, Row.get?_filled, if_pos (List.mem_map_of_mem hc), Option.getD_some, cell_eq_ok hv]
  rw [hvalue] at hk
  rcases accepts_of_cell hv with rfl | haccepts
  · cases hk
  · simp only [Domain.accepts, hk, beq_iff_eq] at haccepts
    exact haccepts

/-- A complete row makes a record just if that takes no more than 4088 bytes, with one byte for each NULL, five for an
integer, two for a truth value and three more than its bytes for a text. The record has no more bytes, is read back as
the row, and nothing of it is left then. -/
theorem complete_roundTrip (h : r.complete row = .ok full) :
    (∀ bytes, Heap.encode r.columns full = .ok bytes → bytes.size ≤ 4088 ∧ r.decode bytes = .ok full ∧
      ∃ entries, Heap.readValues r.name r.columns bytes.data.toList = .ok (entries, []) ∧ full = .ofList entries) ∧
    ((∃ e, Heap.encode r.columns full = .error e) ↔ 4088 < full.storedSize r.columns) := by
  have hfilled : Row.filled r.columns full = full := by
    rw [complete_eq_ok h, Row.filled_filled]
  refine ⟨fun bytes hbytes => ?_, ?_⟩
  · obtain ⟨values, hvalues, rfl, hsize⟩ := Heap.encode_eq_ok hbytes
    have hread := Heap.readValues_flatten r.name _ r.columns values hvalues []
    have hlist : values.flatten.toByteArray.data.toList = values.flatten := by simp
    rw [List.append_nil, ← hlist] at hread
    have hentries : full = .ofList (r.columns.map fun c => (c.name, (full.get? c.name).getD .null)) := by
      rw [Row.filled, List.map_map] at hfilled
      exact hfilled.symm
    exact ⟨hsize, hentries ▸ Heap.decode_of_readValues hread, _, hread, hentries⟩
  · have hencodes : (∃ bytes, Heap.encode r.columns full = .ok bytes) ↔ full.storedSize r.columns ≤ 4088 := by
      rw [Heap.exists_encode_iff, and_iff_right fun c hc k hk => kind_of_complete h hc hk]
      rfl
    rw [← Nat.not_le, ← hencodes]
    cases Heap.encode r.columns full <;> simp

/-- A row that leaves an integer out, and has a text with a letter of two bytes and a truth value. -/
theorem complete_roundTrip_left_out :
    let columns : List Column := [⟨"a", { kind := .int }⟩, ⟨"b", { kind := .text }⟩, ⟨"c", ⟨.boolean, false⟩⟩]
    let r := describe "t" columns "t.db"
    let full : Row := .ofList [("a", .null), ("b", .text "né"), ("c", .boolean true)]
    r.complete (.ofList [("c", .boolean true), ("b", .text "né")]) = .ok full ∧
      (∀ bytes, Heap.encode columns full = .ok bytes → bytes.size ≤ 4088 ∧ r.decode bytes = .ok full ∧
        ∃ entries, Heap.readValues "t" columns bytes.data.toList = .ok (entries, []) ∧ full = .ofList entries) ∧
      ((∃ e, Heap.encode columns full = .error e) ↔ 4088 < full.storedSize columns) := by
  intro columns r full
  have h : r.complete (.ofList [("c", .boolean true), ("b", .text "né")]) = .ok full := rfl
  exact ⟨h, complete_roundTrip h⟩

end Relation

end Rowbase
