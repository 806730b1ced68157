import Rowbase.Proofs.Heap.Relation
import Rowbase.Proofs.Query.Condition
import Rowbase.Proofs.Reading

/-! # The rows that a table lists

A relation lists rows if they are what selecting and projecting return. What selecting under a
fitting condition returns, and what is kept of some of the rows, then follows from the list alone. -/
namespace Rowbase

/-! ## What is read of a record -/

namespace Heap

theorem kind_of_decodeValue {relation : String} {kind : Kind} {bytes rest : List UInt8} {v : Value}
    (h : decodeValue relation kind bytes = .ok (v, rest)) : v.kind? = none ∨ v.kind? = some kind := by
  rw [decodeValue.eq_def] at h
  split at h
  · cases h
  · cases h
    exact .inl rfl
  · cases kind with
    | int =>
      obtain ⟨_, _, h⟩ := bind_eq_ok.1 h
      cases h
      exact .inr rfl
    | text =>
      obtain ⟨_, _, h⟩ := bind_eq_ok.1 h
      obtain ⟨_, _, h⟩ := bind_eq_ok.1 h
      dsimp only at h
      split at h
      · cases h
        exact .inr rfl
      · cases h
    | boolean =>
      obtain ⟨_, _, h⟩ := bind_eq_ok.1 h
      cases h
      exact .inr rfl

theorem decodeValues_eq_ok {relation : String} :
    ∀ {columns : List Column} {bytes : List UInt8} {cells : List (String × Value)},
      decodeValues relation columns bytes = .ok cells →
        cells.map Prod.fst = columns.map Column.name ∧ ∀ e ∈ cells, ∃ c ∈ columns, c.name = e.1 ∧
          (e.2.kind? = none ∨ e.2.kind? = some c.domain.kind)
  | [], _, _, h => by
    cases h
    exact ⟨rfl, nofun⟩
  | c :: columns, _, _, h => by
    rw [decodeValues] at h
    obtain ⟨⟨v, rest⟩, hv, h⟩ := bind_eq_ok.1 h
    obtain ⟨cells, hcells, h⟩ := bind_eq_ok.1 h
    cases h
    obtain ⟨hn, hk⟩ := decodeValues_eq_ok hcells
    refine ⟨by rw [List.map_cons, List.map_cons, hn], fun e he => ?_⟩
    rcases List.mem_cons.1 he with rfl | he
    · exact ⟨c, .head _, rfl, kind_of_decodeValue hv⟩
    · obtain ⟨c', hc', h'⟩ := hk e he
      exact ⟨c', .tail _ hc', h'⟩

/-- Whatever bytes a record has, the row that is read has a value in each column. -/
theorem stored_of_decode {relation : String} {columns : List Column} {bytes : ByteArray} {row : Row}
    (h : decode relation columns bytes = .ok row) : row.Stored columns := by
  obtain ⟨cells, hcells, h⟩ := bind_eq_ok.1 h
  cases h
  obtain ⟨hn, hk⟩ := decodeValues_eq_ok hcells
  intro name hname
  rw [← hn, ← List.mem_reverse, ← List.map_reverse] at hname
  have hget : (Bindings.ofList cells).get? name = cells.reverse.lookup name := by
    rw [Bindings.ofList, Row.get?_foldl_insert_entries, Bindings.get?_empty, Option.or_none]
  obtain ⟨e, he, hen⟩ := List.mem_map.1 hname
  cases hl : cells.reverse.lookup name with
  | none =>
    have := List.lookup_eq_none_iff.1 hl e he
    rw [hen] at this
    simp at this
  | some v =>
    obtain ⟨l₁, l₂, hsplit, -⟩ := List.lookup_eq_some_iff.1 hl
    have hm : (name, v) ∈ cells := by
      rw [← List.mem_reverse, hsplit]
      exact List.mem_append_right _ (.head _)
    exact ⟨v, by rw [hget, hl], hk _ hm⟩

end Heap

namespace Relation

open Act

variable {r : Relation} {fs : Files} {rows : List (Handle × Row)} {condition : Row}

/-- Whether rows are all that a relation has, in the order in which it is read. -/
structure Lists (r : Relation) (fs : Files) (rows : List (Handle × Row)) : Prop where
  select : (Relation.select none).value r fs = .ok (rows.map Prod.fst)
  project : ∀ h row, (h, row) ∈ rows → (Relation.project h []).value r fs = .ok row

/-- All blocks are read when all rows are selected. -/
theorem exists_pages {handles : List Handle} (h : r.handles fs none = .ok handles) :
    ∃ page : Nat → Heap.Page, ∀ block ∈ r.file.blocks,
      r.file.get fs block = .ok (page block) ∧ (page block).block = block := by
  obtain ⟨lists, hl, -⟩ := bind_eq_ok.1 h
  have hget : ∀ block ∈ r.file.blocks, ∃ page, r.file.get fs block = .ok page := by
    intro block hb
    obtain ⟨list, -, hlist⟩ := exists_of_mapM_eq_ok hl hb
    obtain ⟨page, hpage, -⟩ := bind_eq_ok.1 hlist
    exact ⟨page, hpage⟩
  refine ⟨fun block => (r.file.get fs block).toOption.getD (.blank block), fun block hb => ?_⟩
  obtain ⟨page, hpage⟩ := hget block hb
  dsimp only
  rw [hpage]
  exact ⟨rfl, Heap.BlockFile.block_of_get hpage⟩

theorem row_of_get {h : Handle} {page : Heap.Page} {data : ByteArray}
    (hget : r.file.get fs h.block = .ok page) (hd : page.get? h.record = some data) :
    r.row fs h = r.decode data := by
  simp only [row, hget, hd, bind, Except.bind]

theorem pairwise_records {page : Nat → Heap.Page} {blocks : List Nat} (hb : blocks.Pairwise (· < ·))
    (hp : ∀ block ∈ blocks, (page block).block = block) :
    ((blocks.flatMap fun block => (page block).slots.live).map Prod.fst).Pairwise Handle.Before := by
  have hblock : ∀ block ∈ blocks, ∀ h ∈ (page block).slots.live.map Prod.fst, h.block = block := by
    intro block hm h hh
    rw [← hp block hm]
    exact (Heap.Page.mem_handles_slots.1 ((Tape.live_sublist _).subset hh)).1
  rw [List.map_flatMap, List.pairwise_flatMap]
  refine ⟨fun block _ => (page block).ascending_slots.live,
    hb.imp_of_mem fun {a b} ha hb' hab h hh h' hh' => .inl ?_⟩
  rw [hblock a ha h hh, hblock b hb' h' hh']
  exact hab

/-- Behind the rows that are listed there are records, which are read as these rows. -/
theorem Lists.exists_records (hl : r.Lists fs rows) : ∃ file, ∃ records : List (Handle × ByteArray),
    r.file.opened fs = .ok file ∧
    (∀ condition, handles { r with file } fs condition =
      List.map Prod.fst <$> records.filterM fun e => r.meets condition e.2) ∧
    (records.map (fun e => (e.1, r.decode e.2)) = rows.map fun e => (e.1, .ok e.2)) ∧
    (rows.map Prod.fst).Pairwise Handle.Before := by
  have hs := hl.select
  rw [Relation.select, value_opening_look] at hs
  obtain ⟨file, hopen, hs⟩ := bind_eq_ok.1 hs
  obtain ⟨page, hpage⟩ := exists_pages hs
  have hhandles := handles_of_get (r := { r with file }) page fun block hb => (hpage block hb).1
  have hrow : ∀ e ∈ file.blocks.flatMap (fun block => (page block).slots.live),
      r.decode e.2 = row { r with file } fs e.1 := by
    rintro ⟨h, data⟩ he
    obtain ⟨block, hb, hm⟩ := List.mem_flatMap.1 he
    obtain ⟨hm, hget⟩ := Heap.Page.mem_slots.1 (Tape.mem_live.1 hm)
    have hblock := (Heap.Page.mem_handles_slots.1 hm).1
    rw [(hpage block hb).2] at hblock
    subst hblock
    exact (row_of_get (r := { r with file }) (hpage _ hb).1 hget).symm
  have hsorted := pairwise_records (show file.blocks.Pairwise (· < ·) from List.pairwise_lt_range')
    fun block hb => (hpage block hb).2
  refine ⟨file, file.blocks.flatMap fun block => (page block).slots.live, hopen, hhandles, ?_⟩
  rw [hhandles] at hs
  change List.map Prod.fst <$> (file.blocks.flatMap fun block => (page block).slots.live).filterM
    (fun _ => (pure true : Except StorageError Bool)) = _ at hs
  generalize file.blocks.flatMap (fun block => (page block).slots.live) = records at hrow hs hsorted ⊢
  rw [filterM_pure, List.filter_true] at hs
  have hfst : records.map Prod.fst = rows.map Prod.fst := Except.ok.inj hs
  refine ⟨?_, hfst ▸ hsorted⟩
  have hproject : ∀ e ∈ rows, row { r with file } fs e.1 = .ok e.2 := by
    intro e he
    have hp := hl.project e.1 e.2 he
    rw [Relation.project, value_opening_look, hopen] at hp
    change (row { r with file } fs e.1 >>= fun row => row.restrict r.name []) = _ at hp
    obtain ⟨full, hf, hp⟩ := bind_eq_ok.1 hp
    cases hp
    exact hf
  calc records.map (fun e => (e.1, r.decode e.2))
      = records.map fun e => (e.1, row { r with file } fs e.1) :=
        List.map_congr_left fun e he => by rw [hrow e he]
    _ = (records.map Prod.fst).map fun h => (h, row { r with file } fs h) := by
        rw [List.map_map]
        rfl
    _ = (rows.map Prod.fst).map fun h => (h, row { r with file } fs h) := by rw [hfst]
    _ = rows.map fun e => (e.1, row { r with file } fs e.1) := by
        rw [List.map_map]
        rfl
    _ = rows.map fun e => (e.1, .ok e.2) := List.map_congr_left fun e he => by rw [hproject e he]

theorem Lists.ascending (hl : r.Lists fs rows) : (rows.map Prod.fst).Pairwise Handle.Before := by
  obtain ⟨-, -, -, -, -, h⟩ := hl.exists_records
  exact h

/-- A listed row has a value in each column. -/
theorem Lists.stored (hl : r.Lists fs rows) {h : Handle} {row : Row} (hm : (h, row) ∈ rows) :
    row.Stored r.columns := by
  obtain ⟨-, records, -, -, hr, -⟩ := hl.exists_records
  have hm := List.mem_map_of_mem (f := fun e : Handle × Row =>
    (e.1, (Except.ok e.2 : Except StorageError Row))) hm
  rw [← hr] at hm
  obtain ⟨e, -, he⟩ := List.mem_map.1 hm
  exact Heap.stored_of_decode (Prod.mk.inj he).2

/-- Selecting finds the rows that satisfy a condition, as far as all rows can be held against it. -/
theorem Lists.select_yields {E : StorageError → Prop} (hl : r.Lists fs rows)
    (hm : ∀ e ∈ rows, Yields E (e.2.meets condition r.name) (e.2.satisfies condition)) :
    Yields E ((Relation.select (some condition)).value r fs)
      ((rows.filter fun e => e.2.satisfies condition).map Prod.fst) := by
  obtain ⟨file, records, hopen, hhandles, hr, -⟩ := hl.exists_records
  rw [Relation.select, value_opening_look, hopen]
  change Yields E (handles { r with file } fs (some condition)) _
  rw [hhandles, filterM_decode hr]
  exact (yields_filterM hm).map _

/-- Selecting under a fitting condition finds the rows that satisfy it. -/
theorem Lists.value_select (hl : r.Lists fs rows) (hc : condition.FitsColumns r.columns) :
    (Relation.select (some condition)).value r fs =
      .ok ((rows.filter fun e => e.2.satisfies condition).map Prod.fst) :=
  yields_false_iff.1 (hl.select_yields fun _ he => .ok (Row.meets_eq (hl.stored he) hc))

/-- Of some of the rows, those are kept that satisfy a condition. -/
theorem Lists.keep_yields {E : StorageError → Prop} (hl : r.Lists fs rows)
    (hm : ∀ e ∈ rows, Yields E (e.2.meets condition r.name) (e.2.satisfies condition))
    (p : Handle × Row → Bool) :
    Yields E ((keep condition ((rows.filter p).map Prod.fst)).value r fs)
      ((rows.filter fun e => p e && e.2.satisfies condition).map Prod.fst) := by
  have hreads : ∀ h, Reads view (do
      let row ← Relation.project h []
      Act.look fun r _ => row.meets condition r.name : Act StorageError Relation Bool) :=
    fun h => (reads_project h []).bind fun row => reads_look_description fun name _ =>
      row.meets condition name
  have hstep : ∀ e ∈ rows.filter p, Yields E ((do
      let row ← Relation.project e.1 []
      Act.look fun r _ => row.meets condition r.name : Act StorageError Relation Bool).value r fs)
        (e.2.satisfies condition) := by
    intro e he
    have he := (List.mem_filter.1 he).1
    rw [(reads_project e.1 []).value_bind fun row => reads_look_description fun name _ =>
      row.meets condition name, hl.project e.1 e.2 he]
    exact hm e he
  rw [keep, value_filterM hreads, filterM_map]
  simp only [← Bool.and_comm (Row.satisfies _ _), ← List.filter_filter]
  exact (yields_filterM hstep).map _

end Relation

end Rowbase
