import Rowbase.Proofs.Frame.Paths
import Rowbase.Proofs.Twin.Session

/-! # Catalogs that stay at home

A catalog is at home where files have changed at some places only, and where its entries name no indices but such as are
looked for at these places. It stays at home whatever is done to tables and indices with such names: the entries lie in
own files, to which none of these tables leads. -/
namespace Rowbase

open Act Database

/-- Whether all indices that are listed have such names. -/
def Database.Names (d : Database) (N : String → Prop) : Prop := ∀ e ∈ d.indices.live, N e.2.index

theorem Database.Names.indexNames {d : Database} {N : String → Prop} {t i : String} (hd : d.Names N)
    (hi : i ∈ d.indexNames t) : N i := by
  obtain ⟨e, he⟩ := List.exists_mem_of_ne_nil _ (mem_indexNames.1 hi)
  obtain ⟨hm, ht⟩ := List.mem_filter.1 he
  exact (of_decide_eq_true ht).2 ▸ hd e hm

namespace Catalog

variable {P : List String → Prop} {N : String → Prop} {l : Location} {own : Nat → Prop} {k fs : Files} {d : Database}
  {c : Catalog} {t i name : String} {ε α β : Type}

/-- Whether a table has such a name and is not the catalog's own. -/
def Ordinary (N : String → Prop) (t : String) : Prop := N t ∧ t ∉ Schema.names

/-- Whether files have changed at some places only, and the own files have the entries of a database. -/
structure Bounded (P : List String → Prop) (N : String → Prop) (l : Location) (own : Nat → Prop) (k : Files)
    (d : Database) (c : Catalog) (fs : Files) : Prop where
  placed : c.Placed P (Site.Named N) l k fs
  entries : Matches l own (Ordinary N) (Ordinary N) d d c fs c fs

/-- Whether files have changed at some places only, and all indices that are listed have such names. -/
def AtHome (P : List String → Prop) (N : String → Prop) (l : Location) (own : Nat → Prop) (k : Files) (c : Catalog)
    (fs : Files) : Prop := ∃ d : Database, d.Names N ∧ Bounded P N l own k d c fs

theorem Bounded.rebase (h : Bounded P N l own k d c fs) : Bounded P N l own fs d c fs :=
  ⟨{ h.placed with within := .refl fs }, h.entries⟩

/-! ## Reading entries -/

theorem Bounded.survey {x : Act ε Catalog α} (h : Bounded P N l own k d c fs) (hx : Surveys x) :
    ∃ c₁, x.apply c fs = (x.value c.bare fs, c₁, fs) ∧ Bounded P N l own k d c₁ fs := by
  obtain ⟨c₁, c₂, ha, ha', hm⟩ := h.entries.survey hx
  cases ha.symm.trans ha'
  have hplaced := hx.preserves withstands_placed c fs h.placed
  rw [ha] at hplaced
  exact ⟨c₁, ha, hplaced, hm⟩

theorem preserves_survey {x : Act ε Catalog α} (hx : Surveys x) : Preserves (AtHome P N l own k) x := by
  rintro c fs ⟨d, hd, h⟩
  obtain ⟨c₁, ha, h₁⟩ := h.survey hx
  rw [ha]
  exact ⟨d, hd, h₁⟩

/-- What goes on from what the entries say stays at home if it does so for all entries with such names. -/
theorem preserves_told {x : Act ε Catalog α} {v : Database → α} {f : α → Act ε Catalog β} (hx : Surveys x)
    (hv : ∀ {b : Catalog} {fs : Files} {d : Database}, Models l Schema.sites b fs d → x.value b fs = .ok (v d))
    (hf : ∀ d : Database, d.Names N → Preserves (AtHome P N l own k) (f (v d))) :
    Preserves (AtHome P N l own k) (x >>= f) := by
  rintro c fs ⟨d, hd, h⟩
  obtain ⟨c₁, ha, h₁⟩ := h.survey hx
  rw [hv h.entries.first.models] at ha
  rw [apply_bind_ok ha]
  exact hf d hd c₁ fs ⟨d, hd, h₁⟩

/-! ## Using tables and indices -/

/-- What is done to tables and indices stays at home if it stays at the places and leaves the entries alone. -/
theorem preserves_atHome {x : Act ε Catalog α} (hp : Preserves (Placed P (Site.Named N) l k) x)
    (hx : ∀ d, Abreast (Matches l own (Ordinary N) (Ordinary N) d d) x x fun _ =>
      Matches l own (Ordinary N) (Ordinary N) d d) : Preserves (AtHome P N l own k) x := by
  rintro c fs ⟨d, hd, h⟩
  have hplaced := hp c fs h.placed
  obtain ⟨res, c₁, fs₁, _, _, ha, ha', hm⟩ := hx d c fs c fs h.entries
  cases ha.symm.trans ha'
  rw [ha] at hplaced ⊢
  exact ⟨d, hd, hplaced, hm⟩

theorem preserves_table (ht : Ordinary N t) {x : Act StorageError Relation α}
    (hp : ∀ path k, Preserves (Relation.Inside P path k) x)
    (hx : PassesBy own (Relation.Away own (l.relationPath t)) x) : Preserves (AtHome P N l own k) (onRelation t x) :=
  preserves_atHome (preserves_onRelation ht.1 hp) fun _ => abreast_onRelation ht ht.2 ht hx

/-- Reading a table stays at home, also if the table is the catalog's own. -/
theorem preserves_reading (ht : N t) {x : Act StorageError Relation α} (hr : Reads Relation.view x)
    (hx : PassesBy own (Relation.Away own (l.relationPath t)) x) : Preserves (AtHome P N l own k) (onRelation t x) := by
  by_cases hn : t ∈ Schema.names
  · exact preserves_survey (surveys_own hn hr)
  · exact preserves_table ⟨ht, hn⟩ (fun _ _ => Relation.preserves_of_reads hr) hx

theorem preserves_index (ht : N t) (hi : N i) {x : Act StorageError Index α}
    (hp : ∀ path k, Preserves (Index.Inside P path k) x)
    (hx : PassesBy own (Index.Away own (l.indexPath t i)) x) : Preserves (AtHome P N l own k) (onIndex t i x) :=
  preserves_atHome (preserves_onIndex ⟨ht, hi⟩ hp) fun _ => abreast_onIndex hx

/-- Looking a key up stays at home whatever the name of the index is. -/
theorem preserves_lookupKey (key : Row) : Preserves (AtHome P N l own k) (onIndex t i (Index.lookup key)) :=
  preserves_atHome (preserves_lookup key) fun _ => abreast_onIndex (Index.passesBy_lookup key)

theorem preserves_forgetTable (t : String) : Preserves (AtHome P N l own k) (forgetTable t) := by
  rintro c fs ⟨d, hd, h⟩
  exact ⟨d, hd, h.placed.forgetTable t, (h.entries.forgotten t).mono h.entries.clear fun _ => And.left⟩

theorem preserves_forgetIndex (t i : String) : Preserves (AtHome P N l own k) (forgetIndex t i) := by
  rintro c fs ⟨d, hd, h⟩
  exact ⟨d, hd, h.placed.forgetIndex t i, h.entries.forgottenIndex t i⟩

/-! ## Changing entries -/

section
variable {f : β → Row} {get : Database → Tape β} {set : Database → Tape β → Database}

theorem preserves_insertEntry (hl : Shelf name f get set) (a : β)
    (hset : ∀ {d : Database} {handle : Handle}, d.Names N → (set d (get d ++ [(handle, some a)])).Names N) :
    Preserves (AtHome P N l own k) (onRelation name (Relation.insert (f a))) := by
  rintro c fs ⟨d, hd, h⟩
  have hplaced := preserves_own (hl.roll d).mem (fun _ _ => Relation.preserves_insert (f a)) c fs h.placed
  rcases h.entries.first.insertEntry hl a with ⟨e, c₁, -, ha, hin⟩ | ⟨handle, c₁, fs₁, -, ha, hin⟩ <;>
    rw [ha] at hplaced ⊢
  · exact ⟨d, hd, hplaced, h.entries.inside hin hin rfl⟩
  · exact ⟨_, hset hd, hplaced, h.entries.inside hin hin rfl⟩

theorem preserves_deleteEntry (hl : Shelf name f get set) (handle : Handle)
    (hset : ∀ {d : Database}, d.Names N → (set d ((get d).clear handle)).Names N) :
    Preserves (AtHome P N l own k) (onRelation name (Relation.delete handle)) := by
  rintro c fs ⟨d, hd, h⟩
  have hplaced := preserves_own (hl.roll d).mem (fun _ _ => Relation.preserves_delete handle) c fs h.placed
  obtain ⟨res, c₁, fs₁, ha, hin⟩ := h.entries.first.deleteEntry hl handle
  rw [ha] at hplaced ⊢
  exact ⟨_, hset hd, hplaced, h.entries.inside hin hin rfl⟩

end

theorem preserves_clearTable (handle : Handle) : Preserves (AtHome P N l own k) (onTables (Relation.delete handle)) :=
  preserves_deleteEntry shelf_tables handle id

theorem preserves_clearColumn (handle : Handle) : Preserves (AtHome P N l own k) (onColumns (Relation.delete handle)) :=
  preserves_deleteEntry shelf_columns handle id

theorem preserves_clearIndex (handle : Handle) : Preserves (AtHome P N l own k) (onIndices (Relation.delete handle)) :=
  preserves_deleteEntry shelf_indices handle fun {d} hd e he => hd e (by
    rw [Tape.live_clear] at he
    exact (List.mem_filter.1 he).1)

theorem preserves_recordIndex {e : IndexEntry} (he : N e.index) :
    Preserves (AtHome P N l own k) (onIndices (Relation.insert e.row)) :=
  preserves_insertEntry shelf_indices e fun {d handle} hd entry hentry => by
    rw [Tape.live_append] at hentry
    rcases List.mem_append.1 hentry with hold | hnew
    · exact hd entry hold
    · rw [List.mem_singleton.1 hnew]
      exact he

end Catalog

end Rowbase
