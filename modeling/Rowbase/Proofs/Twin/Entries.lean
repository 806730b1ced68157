import Rowbase.Proofs.Session.Changes
import Rowbase.Proofs.Twin.Catalog

/-! # Entries that lie elsewhere

Entries are added to the describing relations and cleared from them by acts that change nothing but the own files. -/
namespace Rowbase

open Act Database
open Files (SameBut)

variable {l : Location} {own : Nat → Prop} {fs g : Files} {d d' : Database} {c c' : Catalog} {name t : String}
  {ε α β : Type}

/-! ## Changing entries -/

namespace Relation

variable {r : Relation} {id : Nat} {tape : Tape Row}

/-- Inserting a row changes no file but that of the relation. -/
theorem Holds.sameBut_insert (hr : r.Holds fs id tape) (hid : own id) (row : Row) :
    SameBut own fs ((insert row).apply r fs).2.2 := by
  cases hd : r.record row with
  | error e =>
    rw [hr.insert_refused hd]
    exact .refl fs
  | ok data =>
    obtain ⟨h, bytes, hx, -⟩ := hr.insert_stored hd
    rw [hx]
    exact Files.sameBut_setBytes hid

/-- Deleting a row changes no file but that of the relation. -/
theorem Holds.sameBut_delete (hr : r.Holds fs id tape) (hid : own id) (h : Handle) :
    SameBut own fs ((Relation.delete h).apply r fs).2.2 := by
  by_cases hl : ∃ row, (h, row) ∈ tape.live
  · obtain ⟨row, hm⟩ := hl
    obtain ⟨bytes, hx, -⟩ := hr.delete hm
    rw [hx]
    exact Files.sameBut_setBytes hid
  · obtain ⟨e, hx⟩ := hr.delete_missing fun row hm => hl ⟨row, hm⟩
    rw [hx]
    exact .refl fs

end Relation

namespace Database

variable {f : α → Row} {get : Database → Tape α} {set : Database → Tape α → Database}

/-- Whether a describing relation has the entries of one of the lists of a database, which can be replaced alone. -/
structure Shelf (name : String) (f : α → Row) (get : Database → Tape α) (set : Database → Tape α → Database) :
    Prop where
  roll : ∀ d, Roll name f (set d)
  set_get : ∀ d, set d (get d) = d
  entries : ∀ {d d' : Database}, d'.description = d.description →
    (get d').live.map Prod.snd = (get d).live.map Prod.snd
  description : ∀ {d d' : Database} {tape tape' : Tape α}, d'.description = d.description →
    tape'.live.map Prod.snd = tape.live.map Prod.snd → (set d' tape').description = (set d tape).description

theorem shelf_tables : Shelf Schema.tables Schema.tableRow Database.tables fun d tape => { d with tables := tape } where
  roll := roll_tables
  set_get _ := rfl
  entries h := congrArg Description.tables h
  description h ht := Description.mk.injEq .. ▸ ⟨ht, congrArg Description.columns h, congrArg Description.indices h⟩

theorem shelf_columns :
    Shelf Schema.columns ColumnEntry.row Database.columns fun d tape => { d with columns := tape } where
  roll := roll_columns
  set_get _ := rfl
  entries h := congrArg Description.columns h
  description h ht := Description.mk.injEq .. ▸ ⟨congrArg Description.tables h, ht, congrArg Description.indices h⟩

theorem shelf_indices :
    Shelf Schema.indices IndexEntry.row Database.indices fun d tape => { d with indices := tape } where
  roll := roll_indices
  set_get _ := rfl
  entries h := congrArg Description.indices h
  description h ht := Description.mk.injEq .. ▸ ⟨congrArg Description.tables h, congrArg Description.columns h, ht⟩

/-- Whether two databases have the same entries behind the same handles. -/
structure SameLists (d d' : Database) : Prop where
  tables : d'.tables.live = d.tables.live
  columns : d'.columns.live = d.columns.live
  indices : d'.indices.live = d.indices.live

theorem SameLists.refl (d : Database) : d.SameLists d := ⟨rfl, rfl, rfl⟩

theorem SameLists.description (h : d.SameLists d') : d'.description = d.description := by
  rw [Database.description, Database.description, h.tables, h.columns, h.indices]

end Database

namespace Catalog

variable {f : α → Row} {get : Database → Tape α} {set : Database → Tape α → Database} {x : Act ε Catalog α}

/-- Whether an act is done on the describing relations alone: it does the same whatever else a catalog has used, and
changes no files but the own ones. -/
structure Inward (x : Act ε Catalog α) : Prop where
  strips : ∀ c₀, Abreast (Strips c₀) x x fun _ => Strips c₀
  keeps : ∀ (l : Location) (own : Nat → Prop) (fs₀ : Files),
    Preserves (fun c fs => SameBut own fs₀ fs ∧ ∃ d, Holds l own c fs d) x

theorem Inward.bind {g : α → Act ε Catalog β} (hx : Inward x) (hg : ∀ a, Inward (g a)) : Inward (x >>= g) :=
  ⟨fun c₀ => (hx.strips c₀).bind (fun a => (hg a).strips c₀) id,
    fun l own fs₀ => (hx.keeps l own fs₀).bind fun a => (hg a).keeps l own fs₀⟩

theorem Inward.discard_caught (hx : Inward x) : Inward (discard x.caught) :=
  ⟨fun c₀ => (hx.strips c₀).caught.discard, fun l own fs₀ => Preserves.discard (hx.keeps l own fs₀)⟩

theorem inward_forM {g : α → Act ε Catalog PUnit} (hg : ∀ a, Inward (g a)) (items : List α) : Inward (items.forM g) :=
  ⟨fun c₀ => abreast_forM fun a _ => (hg a).strips c₀,
    fun l own fs₀ => preserves_forM (fun a => (hg a).keeps l own fs₀) items⟩

/-- What an inward act makes of the bare catalog it makes of the catalog. -/
theorem Holds.inward {res : Except ε α} {b : Catalog} (h : Holds l own c fs d) (hx : Inward x)
    (ha : x.apply c.bare fs = (res, b, g)) (hm : Models l Schema.sites b g d') :
    ∃ c₁, x.apply c fs = (res, c₁, g) ∧ Inside l own c fs c₁ g d' := by
  obtain ⟨_, c₁, _, _, _, hc, hb, rfl, rfl, hu⟩ := hx.strips c c fs c.bare fs ⟨rfl, rfl, .refl c⟩
  rw [ha] at hb
  cases hb
  obtain ⟨hsame, d₁, hd₁⟩ := hx.keeps l own fs c fs ⟨.refl fs, d, h⟩
  rw [hc] at hsame hd₁
  exact ⟨c₁, hc, ⟨hm, hd₁.owned, hd₁.sole⟩, hu, hsame⟩

/-- The own files stay own where no more than their bytes change. -/
theorem Holds.of_models (h : Holds l own c fs d) (hs : SameBut own fs g) (hm : Models l Schema.sites c'.bare g d') :
    Holds l own c' g d' where
  models := hm
  owned id := by
    rw [h.owned id]
    simp only [hs.find]
  sole id hid a b := by
    rw [hs.node?, hs.node?]
    exact h.sole id hid a b

/-- An act on one of the describing relations is done on them alone if it changes only the file of the relation and
leaves it with some list of entries. -/
theorem inward_own {x : Act StorageError Relation α} (hn : name ∈ Schema.names)
    (hsame : ∀ {own : Nat → Prop} {r : Relation} {fs : Files} {id : Nat} {tape : Tape Row}, r.Holds fs id tape →
      own id → SameBut own fs (x.apply r fs).2.2)
    (hmodels : ∀ {l : Location} {c : Catalog} {fs : Files} {d : Database}, Models l Schema.sites c fs d →
      ∃ d', Models l Schema.sites ((onRelation name x).apply c fs).2.1 ((onRelation name x).apply c fs).2.2 d') :
    Inward (onRelation name x) where
  strips := abreast_own hn x
  keeps l own fs₀ := by
    rintro c fs ⟨hs, d, h⟩
    obtain ⟨r, hk⟩ := exists_kept hn c.bare
    obtain ⟨ct, -, hr⟩ := h.models.kept name r hk
    obtain ⟨id, hh⟩ := hr.holds
    have hchange := hsame hh ((h.owned id).2 ⟨name, hn, hr.find_of hh⟩)
    obtain ⟨d', hm⟩ := hmodels h.models
    obtain ⟨res, c₁, fs₁, _, _, ha, hb, rfl, rfl, -⟩ := abreast_own hn x c c fs c.bare fs ⟨rfl, rfl, .refl c⟩
    rw [hb] at hm
    rw [ha]
    rw [onRelation_of_kept hk] at hb
    obtain ⟨-, hfiles⟩ := Prod.mk.inj (Prod.mk.inj hb).2
    rw [hfiles] at hchange
    exact ⟨hs.trans hchange, d', h.of_models hchange hm⟩

theorem inward_insertEntry (hl : Shelf name f get set) (a : α) : Inward (onRelation name (Relation.insert (f a))) := by
  refine inward_own (hl.roll ⟨[], [], [], fun _ => none, fun _ _ => none⟩).mem (fun hr hid => hr.sameBut_insert hid _)
    fun {l c fs d} hm => ?_
  rw [← hl.set_get d] at hm
  rcases hm.insertEntry (hl.roll d) a with ⟨e, c₁, -, ha, -, h₁⟩ | ⟨handle, c₁, fs₁, -, ha, -, -, h₁⟩ <;> rw [ha]
  · exact ⟨_, h₁⟩
  · exact ⟨_, h₁⟩

theorem inward_deleteEntry (hl : Shelf name f get set) (handle : Handle) :
    Inward (onRelation name (Relation.delete handle)) := by
  refine inward_own (hl.roll ⟨[], [], [], fun _ => none, fun _ _ => none⟩).mem (fun hr hid => hr.sameBut_delete hid _)
    fun {l c fs d} hm => ?_
  rw [← hl.set_get d] at hm
  obtain ⟨res, c₁, fs₁, ha, -, -, h₁⟩ := hm.deleteEntry (hl.roll d) handle
  rw [ha]
  exact ⟨_, h₁⟩

/-! ### One list -/

namespace Holds

/-- An entry comes at the end of its list just if it makes a record. -/
theorem insertEntry (hl : Shelf name f get set) (h : Holds l own c fs d) (a : α) :
    (∃ e c₁, Schema.record name (f a) = .error e ∧
      (onRelation name (Relation.insert (f a))).apply c fs = (.error e, c₁, fs) ∧ Inside l own c fs c₁ fs d) ∨
    ∃ handle c₁ fs₁, Schema.Records name (f a) ∧
      (onRelation name (Relation.insert (f a))).apply c fs = (.ok handle, c₁, fs₁) ∧
      Inside l own c fs c₁ fs₁ (set d (get d ++ [(handle, some a)])) := by
  have hm := h.models
  rw [← hl.set_get d] at hm
  rcases hm.insertEntry (hl.roll d) a with ⟨e, b, hrec, ha, -, h₁⟩ | ⟨handle, b, fs₁, hrec, ha, -, -, h₁⟩
  · rw [hl.set_get] at h₁
    obtain ⟨c₁, hc, hin⟩ := h.inward (inward_insertEntry hl a) ha h₁
    exact .inl ⟨e, c₁, hrec, hc, hin⟩
  · obtain ⟨c₁, hc, hin⟩ := h.inward (inward_insertEntry hl a) ha h₁
    exact .inr ⟨handle, c₁, fs₁, hrec, hc, hin⟩

theorem deleteEntry (hl : Shelf name f get set) (h : Holds l own c fs d) (handle : Handle) :
    ∃ res c₁ fs₁, (onRelation name (Relation.delete handle)).apply c fs = (res, c₁, fs₁) ∧
      Inside l own c fs c₁ fs₁ (set d ((get d).clear handle)) := by
  have hm := h.models
  rw [← hl.set_get d] at hm
  obtain ⟨res, b, fs₁, ha, -, -, h₁⟩ := hm.deleteEntry (hl.roll d) handle
  obtain ⟨c₁, hc, hin⟩ := h.inward (inward_deleteEntry hl handle) ha h₁
  exact ⟨res, c₁, fs₁, hc, hin⟩

/-- The entries that meet a condition are cleared. -/
theorem deleteMeeting (hl : Shelf name f get set) (h : Holds l own c fs d) (p : Handle × α → Bool) :
    ∃ c₁ fs₁ tape, ((((get d).live.filter p).map Prod.fst).forM fun handle =>
        onRelation name (Relation.delete handle)).apply c fs = (.ok (), c₁, fs₁) ∧
      tape.live = (get d).live.filter (fun e => !p e) ∧ Inside l own c fs c₁ fs₁ (set d tape) := by
  have hm := h.models
  rw [← hl.set_get d] at hm
  obtain ⟨b, fs₁, ha, -, h₁, hlive⟩ := hm.deleteMeeting (hl.roll d) p
  obtain ⟨c₁, hc, hin⟩ := h.inward (inward_forM (inward_deleteEntry hl) _) ha h₁
  exact ⟨c₁, fs₁, _, hc, hlive, hin⟩

end Holds

/-! ### The entries about a table that is made -/

theorem inward_rollBack (hl : Shelf name f get set) (handles : List Handle) :
    Inward (rollBack (handles.map (Change.inserted name))) := by
  rw [rollBack, List.forM_eq_forM, List.forM_map]
  exact inward_forM (fun handle => (inward_deleteEntry hl handle).discard_caught) handles

/-- The entries about a table that is still to be made are taken back without a trace. -/
theorem Holds.rollBack_announced {handle : Handle} {added : List (Handle × ColumnEntry)}
    (h : Holds l own c fs (d.announce t handle added)) :
    ∃ c₁ fs₁ d₁, (rollBack (announceLog handle added)).apply c fs = (.ok (), c₁, fs₁) ∧
      Inside l own c fs c₁ fs₁ d₁ ∧ d.SameLists d₁ := by
  have hinward : Inward (rollBack (announceLog handle added)) := by
    rw [announceLog, rollBack, List.forM_eq_forM, List.forM_append]
    exact (inward_rollBack shelf_columns _).bind fun _ => inward_rollBack shelf_tables [handle]
  obtain ⟨b, fs₁, tables, columns, ha, htables, hcolumns, hm⟩ := h.models.rollBack_announced
  obtain ⟨c₁, hc, hin⟩ := h.inward hinward ha hm
  exact ⟨c₁, fs₁, _, hc, hin, htables, hcolumns, rfl⟩

end Catalog

end Rowbase
