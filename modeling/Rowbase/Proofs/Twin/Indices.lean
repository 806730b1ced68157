import Rowbase.Proofs.Twin.Rows

/-! # Indices in tandem

CREATE INDEX and DROP INDEX are done in tandem. The entries about an index may lie elsewhere on both sides, but they
come and go together. -/
namespace Rowbase

open Act Database

/-- Entries about indices of tables that are not the catalog's own may come and go. -/
theorem Description.Covers.setIndices {d : Database} {L : List String} (h : d.description.Covers L)
    {tape : Tape IndexEntry} (ht : ∀ e ∈ tape.live, e ∈ d.indices.live ∨ e.2.table ∉ Schema.names) :
    Covers (Database.description { d with indices := tape }) L where
  tables := h.tables
  own := h.own
  indices e he := by
    obtain ⟨entry, hentry, rfl⟩ := List.mem_map.1 he
    exact (ht entry hentry).elim (fun hold => h.indices _ (List.mem_map_of_mem hold)) id

namespace Catalog

variable {l : Location} {own : Nat → Prop} {L : List String} {K U : String → Prop} {d d' : Database} {t i : String}
  {α : Type}

/-! ## Dropping -/

theorem abreast_removeIndex (t i : String) :
    Abreast (Matches l own K U d d') (removeIndex t i) (removeIndex t i) fun _ => Matches l own K U d d' :=
  (abreast_onIndex Index.passesBy_drop).bind (fun _ _ _ _ _ h => ⟨.ok (), _, _, _, _, rfl, rfl, h.forgottenIndex t i⟩) id

/-- The entries about an index are cleared on both sides. -/
theorem abreast_clearIndex (t i : String) : Abreast (Matches l own K U d d')
    (((d.indexEntries t i).map Prod.fst).forM fun h => (onIndices (Relation.delete h)).adapt Refusal.storage)
    (((d'.indexEntries t i).map Prod.fst).forM fun h => (onIndices (Relation.delete h)).adapt Refusal.storage)
    fun _ c fs c' fs' => ∃ tape tape', (∀ e ∈ tape.live, e ∈ d.indices.live) ∧
      Matches l own K U { d with indices := tape } { d' with indices := tape' } c fs c' fs' := by
  refine (abreast_clearEntries shelf_indices (fun e => decide (e.table = t ∧ e.index = i)) Refusal.storage).mono id ?_
  rintro res c fs c' fs' ⟨-, tape, tape', hlive, hm⟩
  refine ⟨tape, tape', fun e he => ?_, hm⟩
  rw [hlive] at he
  exact (List.mem_filter.1 he).1

theorem tandem_dropIndex (i t : String) : Tandem l own L (dropIndex i t) := by
  rw [dropIndex_eq]
  refine abreast_twins fun d d' hd hdesc => abreast_known ((surveys_indexHandles t i).adapt Refusal.storage)
    (fun hm => value_adapt_ok (hm.value_indexHandles t i) _) ?_
  rw [isEmpty_indexEntries_congr hdesc]
  split
  · exact (abreast_throw _).mono id fun hm => ⟨d, d', hd, hm⟩
  · have hclear : Abreast (Matches l own (Usable L) (Usable L) d d')
        (((d.indexEntries t i).map Prod.fst).forM fun h => (onIndices (Relation.delete h)).adapt Refusal.storage)
        (((d'.indexEntries t i).map Prod.fst).forM fun h => (onIndices (Relation.delete h)).adapt Refusal.storage)
        fun _ => Twins l own L := by
      refine (abreast_clearIndex t i).mono id ?_
      rintro res c fs c' fs' ⟨tape, tape', hsub, hm⟩
      exact ⟨_, _, hd.setIndices fun e he => .inl (hsub e he), hm⟩
    exact ((abreast_removeIndex t i).adapt_keep Refusal.storage).bind
      (fun _ => hclear.bind (fun _ => tandem_pure _) id) fun hm => ⟨d, d', hd, hm⟩

/-! ## Making -/

/-- An entry about an index comes to both sides or to none. -/
theorem tandem_recordIndex {e : IndexEntry} (he : e.table ∉ Schema.names) :
    Tandem l own L (discard (onRelation Schema.indices (Relation.insert e.row))) := by
  refine abreast_twins fun d d' hd _ c fs c' fs' hm => ?_
  rcases hm.insertEntry shelf_indices e with ⟨error, k, k', ha, ha', hm'⟩ | ⟨handle, handle', k, g, k', g', ha, ha', hm'⟩
  · refine ⟨.error error, k, fs, k', fs', ?_, ?_, d, d', hd, hm'⟩
    · rw [apply_discard, ha]
      rfl
    · rw [apply_discard, ha']
      rfl
  · refine ⟨.ok (), k, g, k', g', ?_, ?_, _, _, hd.setIndices fun entry hentry => ?_, hm'⟩
    · rw [apply_discard, ha]
      rfl
    · rw [apply_discard, ha']
      rfl
    · rw [Tape.live_append] at hentry
      rcases List.mem_append.1 hentry with hold | hnew
      · exact .inl hold
      · rw [List.mem_singleton.1 hnew]
        exact .inr he

theorem tandem_keyedRows (ht : Usable L t) (columns : List String) : Tandem l own L (keyedRows t columns) :=
  (tandem_onRelation ht (Relation.passesBy_select none)).bind fun handles => abreast_mapM (fun handle =>
    (tandem_onRelation ht (Relation.passesBy_project handle columns)).bind fun _ => tandem_pure _) handles

theorem tandem_makeIndex (ht : Usable L t) (i : String) (columns : List String) (kind : Language.IndexKind) :
    Tandem l own L (makeIndex i t columns kind) := by
  have hentries : Tandem l own L ((columns.zipIdx 1).forM fun b =>
      discard (onRelation Schema.indices (Relation.insert (IndexEntry.atPlace t i kind b).row))) :=
    abreast_forM fun b _ => tandem_recordIndex ht.2
  rw [makeIndex_eq]
  exact hentries.bind fun _ => (tandem_keyedRows ht columns).bind fun entries =>
    tandem_onIndex (Index.passesBy_create entries)

theorem tandem_createIndex (i t : String) (columns : List String) (kind : Language.IndexKind) :
    Tandem l own L (createIndex i t columns kind) := by
  rw [createIndex_eq]
  split
  · exact tandem_throw _
  rename_i hn
  refine abreast_twins fun d d' hd hdesc => abreast_known ((surveys_tableExists t).adapt Refusal.storage)
    (fun hm => value_adapt_ok (value_tableExists hm t) _) ?_
  rw [isEmpty_tableHandles_congr hdesc]
  cases hempty : (d.tableHandles t).isEmpty with
  | true => exact (tandem_throw _).mono (fun hm => ⟨d, d', hd, hm⟩) id
  | false =>
    have ht : Usable L t := ⟨hd.tables ▸ mem_tables_description.2 (List.isEmpty_eq_false_iff.1 hempty), hn⟩
    refine Abreast.mono (P := Twins l own L) ?_ (fun hm => ⟨d, d', hd, hm⟩) id
    refine ((tandem_columnsOf t).adapt _).bind fun known => (tandem_result _).bind fun _ => ?_
    refine abreast_twins fun d d' hd hdesc => abreast_known ((surveys_indexHandles t i).adapt Refusal.storage)
      (fun hm => value_adapt_ok (hm.value_indexHandles t i) _) ?_
    rw [isEmpty_indexEntries_congr hdesc]
    refine Abreast.mono (P := Twins l own L) ?_ (fun hm => ⟨d, d', hd, hm⟩) id
    split
    · exact Tandem.bind (((tandem_makeIndex ht i columns kind).adapt _).onFailure (tandem_dropIndex i t).discard)
        fun _ => tandem_pure _
    · exact tandem_throw _

end Catalog

end Rowbase
