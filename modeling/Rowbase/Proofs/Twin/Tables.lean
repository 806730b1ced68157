import Rowbase.Proofs.Twin.Indices

/-! # Tables in tandem -/
namespace Rowbase

open Act Database

/-- A table of the user's goes from the list. -/
theorem Description.Covers.setTables {d : Database} {L : List String} {t : String} (h : d.description.Covers L)
    (hn : t ∉ Schema.names) {tape : Tape String} (ht : tape.live = d.tables.live.filter fun e => !decide (e.2 = t)) :
    Covers (Database.description { d with tables := tape }) (L.filter (· ≠ t)) where
  tables := by
    rw [← h.tables, Database.description, Database.description, ht, List.filter_map]
    refine congrArg _ (List.filter_congr fun e _ => ?_)
    rw [Function.comp_apply, decide_not]
  own name hname := by
    refine List.mem_filter.2 ⟨h.own name hname, decide_eq_true ?_⟩
    rintro rfl
    exact hn hname
  indices := h.indices

namespace Catalog

variable {l : Location} {own : Nat → Prop} {L : List String} {K U : String → Prop} {d d' : Database} {t i : String}
  {T T' : Tape String} {ε α β : Type}

/-! ## Dropping -/

/-- Whether two catalogs match while a table is dropped: the tables are still listed as they were. -/
def Amid (l : Location) (own : Nat → Prop) (L : List String) (U : String → Prop) (T T' : Tape String) (c : Catalog)
    (fs : Files) (c' : Catalog) (fs' : Files) : Prop :=
  ∃ d d', d.tables = T ∧ d'.tables = T' ∧ d.description.Covers L ∧ Matches l own (Usable L) U d d' c fs c' fs'

theorem abreast_amid {x y : Act ε Catalog α} {Q : Except ε α → Catalog → Files → Catalog → Files → Prop}
    (h : ∀ d d', d.tables = T → d'.tables = T' → d.description.Covers L →
      Abreast (Matches l own (Usable L) U d d') x y Q) : Abreast (Amid l own L U T T') x y Q := by
  rintro c fs c' fs' ⟨d, d', hT, hT', hd, hm⟩
  exact h d d' hT hT' hd c fs c' fs' hm

theorem Amid.twins {c c' : Catalog} {fs fs' : Files} (h : Amid l own L U T T' c fs c' fs')
    (hU : ∀ t, U t → Usable L t) : Twins l own L c fs c' fs' := by
  obtain ⟨d, d', -, -, hd, hm⟩ := h
  exact ⟨d, d', hd, hm.mono hm.clear hU⟩

theorem abreast_dropWithEntries (t i : String) :
    Abreast (Amid l own L U T T') (dropWithEntries t i) (dropWithEntries t i) fun _ => Amid l own L U T T' := by
  refine abreast_amid fun d d' hT hT' hd => ?_
  refine ((abreast_removeIndex t i).adapt_keep Refusal.storage).bind (fun _ => ?_) fun hm => ⟨d, d', hT, hT', hd, hm⟩
  refine abreast_known ((surveys_indexHandles t i).adapt Refusal.storage)
    (fun hm => value_adapt_ok (hm.value_indexHandles t i) _) ((abreast_clearIndex t i).mono id ?_)
  rintro res c fs c' fs' ⟨tape, tape', hsub, hm⟩
  exact ⟨{ d with indices := tape }, { d' with indices := tape' }, hT, hT',
    hd.setIndices fun e he => .inl (hsub e he), hm⟩

/-- A table that is let go of has not been used on either side. -/
theorem abreast_detach {f f' : Relation → Act ε Catalog β} {q : StorageError → ε}
    {Q : Except ε β → Catalog → Files → Catalog → Files → Prop} (hu : U t) (hn : t ∉ Schema.names)
    (hf : ∀ r : Relation, r.file.Away own (l.relationPath t) →
      Abreast (Matches l own K (fun t' => U t' ∧ t' ≠ t) d d') (f r) (f' r) Q)
    (he : ∀ {e c fs c' fs'}, Matches l own K U d d' c fs c' fs' → Q (.error e) c fs c' fs') :
    Abreast (Matches l own K U d d') ((detach t).adapt q >>= f) ((detach t).adapt q >>= f') Q := by
  intro c fs c' fs' h
  obtain ⟨res, k, k', ha, ha', hm, haway⟩ := h.remember hu hn
  cases res with
  | error e =>
    have hdetach : ∀ {c k : Catalog} {fs : Files}, (remember t).apply c fs = (.error e, k, fs) →
        ((detach t).adapt q).apply c fs = (.error (q e), k, fs) := by
      intro c k fs hx
      have hfailed : (detach t).apply c fs = (.error e, k, fs) := by
        rw [detach, if_neg hn]
        exact apply_bind_error hx _
      rw [apply_adapt, hfailed]
      rfl
    exact ⟨.error (q e), k, fs, k', fs', apply_bind_error (hdetach ha) _, apply_bind_error (hdetach ha') _, he hm⟩
  | ok r =>
    have hdetach : ∀ {c k : Catalog} {fs : Files}, (remember t).apply c fs = (.ok r, k, fs) →
        ((detach t).adapt q).apply c fs = (.ok r, { k with relations := k.relations.erase t }, fs) := by
      intro c k fs hx
      rw [apply_adapt, apply_detach hn hx]
      rfl
    rw [apply_bind_ok (hdetach ha), apply_bind_ok (hdetach ha')]
    exact hf r (haway r rfl) _ _ _ _ (hm.forgotten t)

theorem abreast_clearColumns (t : String) :
    Abreast (Amid l own L U T T') (clearColumns t) (clearColumns t) fun _ => Amid l own L U T T' := by
  refine abreast_amid fun d d' hT hT' hd => abreast_known ((surveys_columnHandles t).adapt Refusal.storage)
    (fun hm => value_adapt_ok (hm.value_columnHandles t) _) ?_
  refine (abreast_clearEntries shelf_columns (fun e => decide (e.table = t)) Refusal.storage).mono id ?_
  rintro res c fs c' fs' ⟨-, tape, tape', -, hm⟩
  exact ⟨{ d with columns := tape }, { d' with columns := tape' }, hT, hT', ⟨hd.tables, hd.own, hd.indices⟩, hm⟩

/-- The file of a table that is let go of is removed on both sides. -/
theorem abreast_dropDetached {r : Relation} (ht : K t) (hr : r.file.Away own (l.relationPath t)) :
    Abreast (Matches l own K U d d') (Relation.drop.within (fun _ => r) fun _ c => c)
      (Relation.drop.within (fun _ => r) fun _ c => c) fun _ => Matches l own K U d d' := by
  intro c fs c' fs' h
  obtain ⟨res, r', g, g', ha, ha', -, hk⟩ := Relation.passesBy_drop.apply ⟨hr, h.clear t ht⟩ h.files
  refine ⟨res, c, g, c', g', ?_, ?_, h.alongside hk⟩
  · rw [apply_within, ha]
  · rw [apply_within, ha']

/-- A table goes from the list on both sides. -/
theorem abreast_clearTable (hn : t ∉ Schema.names) :
    Abreast (Amid l own L (fun t' => Usable L t' ∧ t' ≠ t) T T')
      (((T.live.filter fun e => e.2 = t).map Prod.fst).forM fun h => (onTables (Relation.delete h)).adapt Refusal.storage)
      (((T'.live.filter fun e => e.2 = t).map Prod.fst).forM fun h =>
        (onTables (Relation.delete h)).adapt Refusal.storage)
      fun _ => Twins l own (L.filter (· ≠ t)) := by
  refine abreast_amid fun d d' hT hT' hd => ?_
  subst hT hT'
  refine (abreast_clearEntries shelf_tables (fun t' => decide (t' = t)) Refusal.storage).mono id ?_
  rintro res c fs c' fs' ⟨-, tape, tape', hlive, hm⟩
  refine ⟨_, _, hd.setTables hn hlive, hm.mono (fun t' ht => ?_) fun t' ht => ?_⟩
  · exact hm.clear t' ⟨(List.mem_filter.1 ht.1).1, ht.2⟩
  · exact ⟨List.mem_filter.2 ⟨ht.1.1, decide_eq_true ht.2⟩, ht.1.2⟩

/-- DROP TABLE is done in tandem, and takes the table from the list on both sides or on none. -/
theorem abreast_dropTable (t : String) :
    Abreast (Twins l own L) (dropTable t) (dropTable t) fun _ c fs c' fs' => ∃ L, Twins l own L c fs c' fs' := by
  rw [dropTable_eq]
  split
  · exact (abreast_throw _).mono id fun h => ⟨L, h⟩
  rename_i hn
  refine abreast_twins fun d d' hd hdesc => abreast_known ((surveys_tableHandles t).adapt Refusal.storage)
    (fun hm => value_adapt_ok (hm.value_tableHandles t) _) ?_
  rw [isEmpty_tableHandles_congr hdesc]
  split
  · exact (abreast_throw _).mono id fun hm => ⟨L, d, d', hd, hm⟩
  rename_i hne
  have ht : Usable L t := ⟨hd.tables ▸ mem_tables_description.2 (mt List.isEmpty_iff.2 hne), hn⟩
  have herror : ∀ {U : String → Prop} {c fs c' fs'}, (∀ t, U t → Usable L t) →
      Amid l own L U d.tables d'.tables c fs c' fs' → ∃ L, Twins l own L c fs c' fs' :=
    fun hU h => ⟨L, h.twins hU⟩
  refine Abreast.mono (P := Amid l own L (Usable L) d.tables d'.tables) ?_ (fun hm => ⟨d, d', rfl, rfl, hd, hm⟩) id
  have hnames : Abreast (Amid l own L (Usable L) d.tables d'.tables) ((indexNames t).adapt Refusal.storage)
      ((indexNames t).adapt Refusal.storage) fun _ => Amid l own L (Usable L) d.tables d'.tables := by
    refine abreast_amid fun e e' hT hT' he => ?_
    exact (abreast_told ((surveys_indexNames t).adapt _) (fun hm => value_adapt_ok (hm.value_indexNames t) _)
      fun h => indexNames_congr h t).mono id fun hm => ⟨e, e', hT, hT', he, hm⟩
  refine hnames.bind (fun names => Abreast.bind (abreast_forM fun i _ => abreast_dropWithEntries t i)
    (fun _ => ?_) (herror fun _ => id)) (herror fun _ => id)
  refine abreast_amid fun e e' hT hT' he => abreast_detach ht hn (fun r hr => ?_) fun hm =>
    herror (fun _ => id) ⟨e, e', hT, hT', he, hm⟩
  refine Abreast.mono (P := Amid l own L (fun t' => Usable L t' ∧ t' ≠ t) d.tables d'.tables) ?_
    (fun hm => ⟨e, e', hT, hT', he, hm⟩) id
  have hdrop : Abreast (Amid l own L (fun t' => Usable L t' ∧ t' ≠ t) d.tables d'.tables)
      (Act.adapt Refusal.storage (Relation.drop.within (fun _ => r) fun _ c => c))
      (Act.adapt Refusal.storage (Relation.drop.within (fun _ => r) fun _ c => c)) fun _ =>
        Amid l own L (fun t' => Usable L t' ∧ t' ≠ t) d.tables d'.tables :=
    abreast_amid fun e e' hT hT' he => ((abreast_dropDetached ht hr).adapt_keep _).mono id fun hm =>
      ⟨e, e', hT, hT', he, hm⟩
  exact (abreast_clearColumns t).bind (fun _ => hdrop.bind (fun _ => (abreast_clearTable hn).bind
    (fun _ => (abreast_pure _).mono id fun h => ⟨_, h⟩) fun h => ⟨_, h⟩) (herror fun _ => And.left))
    (herror fun _ => And.left)

end Catalog

end Rowbase
