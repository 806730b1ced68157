import Rowbase.Proofs.Database.Entries
import Rowbase.Session.Change

/-! # Changing the lists of entries

The three lists of a database are kept in one way: an entry is a row of a describing relation, comes at
its end and is cleared by its handle. So entries that were added can all be cleared again. -/
namespace Rowbase

namespace Database

variable {α : Type} {name : String} {f : α → Row} {put : Tape α → Database}

/-- Whether a describing relation has the entries of a list, and a database for each such list. -/
structure Roll (name : String) (f : α → Row) (put : Tape α → Database) : Prop where
  mem : name ∈ Schema.names
  content : ∀ tape, (put tape).content name = some ⟨Schema.columnsOf name, tape.image f⟩
  becomes : ∀ tape tape', (put tape).Becomes name
    (some ⟨Schema.columnsOf name, tape'.image f⟩) (put tape')
  filled : ∀ a, Row.filled (Schema.columnsOf name) (f a) = f a

theorem roll_tables (d : Database) :
    Roll Schema.tables Schema.tableRow fun tape => { d with tables := tape } where
  mem := by decide
  content _ := rfl
  becomes tape tape' := becomes_tables (d := { d with tables := tape }) tape'
  filled := filled_tableRow

theorem roll_columns (d : Database) :
    Roll Schema.columns ColumnEntry.row fun tape => { d with columns := tape } where
  mem := by decide
  content _ := rfl
  becomes tape tape' := becomes_columns (d := { d with columns := tape }) tape'
  filled := ColumnEntry.filled_row

theorem roll_indices (d : Database) :
    Roll Schema.indices IndexEntry.row fun tape => { d with indices := tape } where
  mem := by decide
  content _ := rfl
  becomes tape tape' := becomes_indices (d := { d with indices := tape }) tape'
  filled := IndexEntry.filled_row

end Database

/-! ## Taking changes back -/

theorem apply_rollBack_cons (change : Change) (log : List Change) (c : Catalog) (fs : Files) :
    (rollBack (change :: log)).apply c fs =
      (rollBack log).apply (change.undo.apply c fs).2.1 (change.undo.apply c fs).2.2 := by
  rw [rollBack, List.forM_eq_forM, List.forM_cons]
  rfl

theorem apply_rollBack_cons_of (change : Change) {log : List Change} {c c' : Catalog} {fs fs' : Files}
    {res : Except StorageError Unit} (h : change.undo.apply c fs = (res, c', fs')) :
    (rollBack (change :: log)).apply c fs = (rollBack log).apply c' fs' := by
  rw [apply_rollBack_cons, h]

/-! ## Entries -/

/-- Whether two catalogs keep the same tables. -/
def Catalog.KeepsTables (c c' : Catalog) : Prop := ∀ t, t ∉ Schema.names → c'.kept t = c.kept t

theorem Catalog.keepsTables_keep {name : String} (hn : name ∈ Schema.names) (c : Catalog) (r : Relation) :
    c.KeepsTables (c.keep name r) := fun t ht => by
  rw [kept_keep, if_neg]
  rintro rfl
  exact ht hn

theorem Catalog.KeepsTables.trans {c c' c'' : Catalog} (h : c.KeepsTables c') (h' : c'.KeepsTables c'') :
    c.KeepsTables c'' := fun t ht => (h' t ht).trans (h t ht)

/-- Whether a row makes a record of a describing relation. -/
def Schema.Records (name : String) (row : Row) : Prop :=
  ∃ data, (Relation.describe name (columnsOf name) "").record row = .ok data

instance (name : String) (row : Row) : Decidable (Schema.Records name row) :=
  match h : (Relation.describe name (Schema.columnsOf name) "").record row with
  | .ok data => .isTrue ⟨data, h⟩
  | .error _ => .isFalse fun ⟨_, hok⟩ => nomatch h.symm.trans hok

/-- The record that a row makes of a describing relation. -/
def Schema.record (name : String) (row : Row) : Except StorageError ByteArray :=
  (Relation.describe name (columnsOf name) "").record row

theorem Schema.not_records {name : String} {row : Row} {e : StorageError} (h : record name row = .error e) :
    ¬ Records name row := by
  rintro ⟨data, hd⟩
  cases h.symm.trans hd

namespace Models

open Database

variable {l : Location} {sites : Sites} {c : Catalog} {fs : Files} {d : Database} {α : Type}
  {name : String} {f : α → Row} {put : Tape α → Database} {tape : Tape α}

theorem ascending_roll (hr : Roll name f put) (h : Models l sites c fs (put tape)) : tape.Ascending := by
  rw [Tape.ascending_iff_of_handles (Tape.handles_image f tape).symm]
  exact (h.stored name _ (hr.content tape)).2.ascending

/-- An entry comes at the end of its list just if it makes a record. -/
theorem insertEntry (hr : Roll name f put) (h : Models l sites c fs (put tape)) (a : α) :
    (∃ e c', Schema.record name (f a) = .error e ∧
      (Catalog.onRelation name (Relation.insert (f a))).apply c fs = (.error e, c', fs) ∧
      c.KeepsTables c' ∧ Models l sites c' fs (put tape)) ∨
    ∃ handle c' fs', Schema.Records name (f a) ∧
      (Catalog.onRelation name (Relation.insert (f a))).apply c fs = (.ok handle, c', fs') ∧
      c.KeepsTables c' ∧ fs.SameTree fs' ∧ Models l sites c' fs' (put (tape ++ [(handle, some a)])) := by
  obtain ⟨r, hk⟩ := Catalog.exists_kept hr.mem c
  have hserves := h.serves hk (hr.content tape)
  have hrecord : (Relation.describe name (Schema.columnsOf name) "").record (f a) = r.record (f a) :=
    Relation.record_congr hserves.name_eq.symm hserves.columns_eq.symm (f a)
  rcases h.insert hk (hr.content tape) (f a) with
    ⟨e, r', he, hx, h'⟩ | ⟨data, handle, r', fs', hdata, hx, htree, h'⟩
  · exact .inl ⟨e, _, hrecord.trans he, hx, Catalog.keepsTables_keep hr.mem c r', h'⟩
  · refine .inr ⟨handle, _, fs', ⟨data, hrecord.trans hdata⟩, hx, Catalog.keepsTables_keep hr.mem c r',
      htree, h' _ ?_⟩
    have hb := hr.becomes tape (tape ++ [(handle, some a)])
    rw [Tape.image_append] at hb
    dsimp only
    rw [hr.filled]
    exact hb

/-- Entries come to their list one after the other, up to the first that makes no record. -/
theorem insertEntries {β : Type} (hr : Roll name f put) (g : β → α) :
    ∀ (items : List β) (tape : Tape α) (c : Catalog) (fs : Files), Models l sites c fs (put tape) →
      ∃ res c' fs' new, (items.forM fun b =>
          discard (Catalog.onRelation name (Relation.insert (f (g b))))).apply c fs = (res, c', fs') ∧
        c.KeepsTables c' ∧ fs.SameTree fs' ∧ Models l sites c' fs' (put (tape ++ Tape.ofLive new)) ∧
        (new.map Prod.snd) <+: items.map g ∧
        (new ≠ [] ↔ ∃ b ∈ items.head?, Schema.Records name (f (g b))) ∧
        ((∃ e, res = .error e) ∧ (∃ b ∈ items, ¬ Schema.Records name (f (g b))) ∨
          res = .ok () ∧ (∀ b ∈ items, Schema.Records name (f (g b))) ∧ new.map Prod.snd = items.map g)
  | [], tape, c, fs, h => by
    refine ⟨.ok (), c, fs, [], rfl, fun _ _ => rfl, .refl fs, ?_, List.nil_prefix,
      iff_of_false (fun h => h rfl) ?_, .inr ⟨rfl, fun _ hb => absurd hb List.not_mem_nil, rfl⟩⟩
    · rwa [Tape.append_ofLive_nil]
    · rintro ⟨b, hb, -⟩
      cases hb
  | b :: items, tape, c, fs, h => by
    rw [List.forM_eq_forM, List.forM_cons]
    rcases h.insertEntry hr (g b) with ⟨e, c', hrec, hx, hk, h'⟩ | ⟨handle, c₁, fs₁, hrec, hx, hk, htree, h₁⟩
    · refine ⟨.error e, c', fs, [], Act.apply_bind_error (by rw [Act.apply_discard, hx]; rfl) _, hk,
        .refl fs, ?_, List.nil_prefix, iff_of_false (fun h => h rfl) ?_,
        .inl ⟨⟨e, rfl⟩, b, .head _, Schema.not_records hrec⟩⟩
      · rwa [Tape.append_ofLive_nil]
      · rintro ⟨b', hb', h'⟩
        cases hb'
        exact Schema.not_records hrec h'
    · obtain ⟨res, c', fs', new, hx', hk', htree', h', hpre, -, hres⟩ := insertEntries hr g items _ c₁ fs₁ h₁
      refine ⟨res, c', fs', (handle, g b) :: new, ?_, hk.trans hk', htree.trans htree', ?_, ?_,
        iff_of_true (List.cons_ne_nil _ _) ⟨b, rfl, hrec⟩, ?_⟩
      · rw [Act.apply_bind_ok (by rw [Act.apply_discard, hx]; rfl)]
        exact hx'
      · rwa [List.append_assoc, List.singleton_append] at h'
      · rw [List.map_cons, List.map_cons]
        exact List.prefix_cons_inj _ |>.2 hpre
      · rcases hres with ⟨he, b', hb', hrec'⟩ | ⟨hok, hall, hnew⟩
        · exact .inl ⟨he, b', .tail _ hb', hrec'⟩
        · refine .inr ⟨hok, fun b' hb' => ?_, by rw [List.map_cons, List.map_cons, hnew]⟩
          rcases List.mem_cons.1 hb' with rfl | hb'
          · exact hrec
          · exact hall b' hb'

/-- An entry is cleared. -/
theorem deleteEntry (hr : Roll name f put) (h : Models l sites c fs (put tape)) (handle : Handle) :
    ∃ res c' fs', (Catalog.onRelation name (Relation.delete handle)).apply c fs = (res, c', fs') ∧
      ((∃ a, (handle, a) ∈ tape.live) → res = .ok ()) ∧ c.KeepsTables c' ∧
      Models l sites c' fs' (put (tape.clear handle)) := by
  obtain ⟨r, hk⟩ := Catalog.exists_kept hr.mem c
  obtain ⟨res, r', fs', hx, hres, h'⟩ := h.delete hk (hr.content tape) handle
  refine ⟨res, _, fs', hx, ?_, Catalog.keepsTables_keep hr.mem c r', h' _ ?_⟩
  · rintro ⟨a, ha⟩
    refine hres ⟨f a, ?_⟩
    rw [Tape.live_image]
    exact List.mem_map_of_mem ha
  · have hb := hr.becomes tape (tape.clear handle)
    rwa [Tape.image_clear] at hb

/-- Entries that are there are cleared one after the other. -/
theorem deleteEntries (hr : Roll name f put) :
    ∀ (hs : List Handle) (tape : Tape α) (c : Catalog) (fs : Files), Models l sites c fs (put tape) →
      hs.Nodup → (∀ handle ∈ hs, ∃ a, (handle, a) ∈ tape.live) →
      ∃ c' fs', (hs.forM fun handle => Catalog.onRelation name (Relation.delete handle)).apply c fs =
          (.ok (), c', fs') ∧ c.KeepsTables c' ∧ Models l sites c' fs' (put (tape.clearAll hs))
  | [], _, c, fs, h, _, _ => ⟨c, fs, rfl, fun _ _ => rfl, h⟩
  | handle :: hs, tape, c, fs, h, hn, hm => by
    obtain ⟨hne, hn⟩ := List.nodup_cons.1 hn
    obtain ⟨res, c₁, fs₁, hx, hres, hk, h₁⟩ := h.deleteEntry hr handle
    rw [hres (hm handle (.head _))] at hx
    obtain ⟨c', fs', hx', hk', h'⟩ := deleteEntries hr hs _ c₁ fs₁ h₁ hn fun other ho => by
      obtain ⟨a, ha⟩ := hm other (.tail _ ho)
      refine ⟨a, ?_⟩
      rw [Tape.live_clear]
      refine List.mem_filter.2 ⟨ha, decide_eq_true ?_⟩
      rintro rfl
      exact hne ho
    refine ⟨c', fs', ?_, hk.trans hk', h'⟩
    rw [List.forM_eq_forM, List.forM_cons, Act.apply_bind_ok hx]
    exact hx'

/-- The entries that meet a condition are cleared. -/
theorem deleteMeeting (hr : Roll name f put) (h : Models l sites c fs (put tape))
    (p : Handle × α → Bool) :
    ∃ c' fs', (((tape.live.filter p).map Prod.fst).forM fun handle =>
        Catalog.onRelation name (Relation.delete handle)).apply c fs = (.ok (), c', fs') ∧
      c.KeepsTables c' ∧ Models l sites c' fs' (put (tape.clearAll ((tape.live.filter p).map Prod.fst))) ∧
      (tape.clearAll ((tape.live.filter p).map Prod.fst)).live = tape.live.filter fun e => !p e := by
  have hasc := ascending_roll hr h
  obtain ⟨c', fs', hx, hk, h'⟩ := deleteEntries hr ((tape.live.filter p).map Prod.fst) tape c fs h
    (hasc.nodup_live.sublist (List.filter_sublist.map _)) fun handle hm => by
      obtain ⟨e, he, rfl⟩ := List.mem_map.1 hm
      exact ⟨e.2, (List.mem_filter.1 he).1⟩
  exact ⟨c', fs', hx, hk, h', hasc.live_clearAll_filter p⟩

/-- Entries that were inserted are taken back, whatever else is to be. -/
theorem rollBack_entries (hr : Roll name f put) (log : List Change) :
    ∀ (hs : List Handle) (tape : Tape α) (c : Catalog) (fs : Files), Models l sites c fs (put tape) →
      ∃ c' fs', (rollBack (hs.map (Change.inserted name) ++ log)).apply c fs = (rollBack log).apply c' fs' ∧
        Models l sites c' fs' (put (tape.clearAll hs))
  | [], _, c, fs, h => ⟨c, fs, rfl, h⟩
  | handle :: hs, tape, c, fs, h => by
    obtain ⟨res, c₁, fs₁, hx, -, -, h₁⟩ := h.deleteEntry hr handle
    obtain ⟨c', fs', hx', h'⟩ := rollBack_entries hr log hs _ c₁ fs₁ h₁
    exact ⟨c', fs', (apply_rollBack_cons_of (.inserted name handle) hx).trans hx', h'⟩

end Models

end Rowbase
