import Rowbase.Proofs.Database.Looks
import Rowbase.Proofs.Index.Calls

/-! # Acts on one file

Two relations that look the same look the same after every act. An act on a relation or an index changes no files but
its own, so that all others look as they did. -/
namespace Rowbase

open Act
open Files (Apart Beside)

/-! ## Relations that look the same -/

namespace Relation

variable {r r' : Relation} {fs : Files} {α : Type}

/-- Whether two relations look the same. -/
def Resembles (r r' : Relation) (fs : Files) : Prop := r'.view fs = r.view fs

theorem lockstep_of_reads {x : Act StorageError Relation α} (hx : Reads view x) :
    Lockstep Resembles x fun _ => Resembles := by
  intro r r' fs h
  obtain ⟨r₁, ha, hv⟩ := hx.apply_eq r fs
  obtain ⟨r₁', ha', hv'⟩ := hx.apply_eq r' fs
  refine ⟨_, r₁, r₁', fs, ha, ?_, hv'.trans (h.trans hv.symm)⟩
  rw [ha', hx.value_congr h]

/-- Relations that look the same are the same once they are open. -/
theorem lockstep_opening : Lockstep Resembles opening fun res r r' fs => match res with
    | .ok _ => r' = r
    | .error _ => Resembles r r' fs := by
  intro r r' fs h
  simp only [Resembles, view, Prod.mk.injEq] at h
  obtain ⟨⟨hn, hc, hp⟩, ho⟩ := h
  cases hr : r.file.opened fs with
  | error e =>
    refine ⟨.error e, r, r', fs, by rw [apply_opening, hr], by rw [apply_opening, ho, hr], ?_⟩
    simp only [Resembles, view, hn, hc, hp, ho]
  | ok file =>
    exact ⟨.ok (), { r with file }, { r' with file }, fs, by rw [apply_opening, hr], by rw [apply_opening, ho, hr],
      by rw [hn, hc]⟩

theorem lockstep_opening_then (x : Act StorageError Relation α) :
    Lockstep Resembles (do opening; x) fun _ => Resembles :=
  lockstep_opening.bind (fun _ => (lockstep_same x).mono id fun {_ s t fs} h => by rw [h]; rfl) id

theorem lockstep_insert (row : Row) : Lockstep Resembles (insert row) fun _ => Resembles := lockstep_opening_then _

theorem lockstep_delete (h : Handle) : Lockstep Resembles (Relation.delete h) fun _ => Resembles :=
  lockstep_opening_then _

/-- Whether an act on a relation changes no other files. -/
def Confined (x : Act StorageError Relation α) : Prop :=
  ∀ ⦃l : Location⦄ ⦃sites : Sites⦄ ⦃fs : Files⦄ ⦃name : String⦄ ⦃columns : List Column⦄ ⦃tape : Tape Row⦄
    ⦃r : Relation⦄, r.Serves l fs name columns tape → Apart l sites fs → .relation name ∈ sites →
    Beside l sites (l.relationPath name) fs (x.apply r fs).2.2

theorem confined_of_reads {x : Act StorageError Relation α} (hx : Reads view x) : Confined x := by
  intro l sites fs name columns tape r _ ha _
  rw [hx.files_eq]
  exact ha.beside_self _

theorem confined_insert (row : Row) : Confined (insert row) := by
  intro l sites fs name columns tape r hr ha hs
  rcases hr.insert ha hs row with ⟨e, r', -, hx, -⟩ | ⟨data, h, r', fs', -, hx, hb, -, -⟩ <;> rw [hx]
  · exact ha.beside_self _
  · exact hb

theorem confined_delete (h : Handle) : Confined (Relation.delete h) := by
  intro l sites fs name columns tape r hr ha hs
  obtain ⟨res, r', fs', hx, -, hb, -⟩ := hr.delete ha hs h
  rw [hx]
  exact hb

end Relation

/-! ## Acts that change one index -/

namespace Index

variable {l : Location} {sites : Sites} {t i : String} {fs₀ : Files} {α β : Type}

/-- Whether an act on an index changes no other files. -/
def Confined (x : Act StorageError Index α) : Prop :=
  ∀ ⦃l : Location⦄ ⦃sites : Sites⦄ ⦃t i : String⦄ ⦃fs : Files⦄ ⦃ix : Index⦄, ix.path = l.indexPath t i →
    Apart l sites fs → .index t i ∈ sites → Beside l sites (l.indexPath t i) fs (x.apply ix fs).2.2

/-- Whether an index has kept its place and nothing but its file became another. -/
def Within (l : Location) (sites : Sites) (t i : String) (fs₀ : Files) (ix : Index) (fs : Files) : Prop :=
  ix.path = l.indexPath t i ∧ Apart l sites fs₀ ∧ .index t i ∈ sites ∧ Beside l sites (l.indexPath t i) fs₀ fs

/-- Whether an act keeps an index in its place and changes no other files. -/
def Stays (x : Act StorageError Index α) : Prop :=
  ∀ (l : Location) (sites : Sites) (t i : String) (fs₀ : Files), Preserves (Within l sites t i fs₀) x

theorem Stays.confined {x : Act StorageError Index α} (hx : Stays x) : Confined x := fun _ _ _ _ _ _ hp ha hs =>
  (hx _ _ _ _ _ _ _ ⟨hp, ha, hs, ha.beside_self _⟩).2.2.2

theorem Stays.bind {x : Act StorageError Index α} {f : α → Act StorageError Index β} (hx : Stays x)
    (hf : ∀ a, Stays (f a)) : Stays (x >>= f) := fun l sites t i fs₀ =>
  (hx l sites t i fs₀).bind fun a => hf a l sites t i fs₀

theorem stays_look (f : Index → Files → Except StorageError α) : Stays (look f) := fun _ _ _ _ _ _ _ h => h

theorem stays_update {f : Index → Index} (hf : ∀ ix, (f ix).path = ix.path) : Stays (update f) :=
  fun _ _ _ _ _ ix _ h => ⟨(hf ix).trans h.1, h.2⟩

/-- A change of the map alone. -/
theorem stays_change {f : Index → Files → Except StorageError (α × Index × Files)}
    (hf : ∀ ix fs a ix' fs', f ix fs = .ok (a, ix', fs') → ix'.path = ix.path ∧ fs' = fs) : Stays (change f) := by
  intro l sites t i fs₀ ix fs h
  rw [apply_change]
  cases hx : f ix fs with
  | error e => exact h
  | ok made =>
    obtain ⟨a, ix', fs'⟩ := made
    obtain ⟨hp, rfl⟩ := hf ix fs a ix' fs' hx
    exact ⟨hp.trans h.1, h.2⟩

theorem stays_load : Stays load := by
  intro l sites t i fs₀ ix fs h
  rw [apply_load]
  cases ix.contents fs <;> exact h

theorem stays_addRow (h : Handle) (row : Row) : Stays (addRow h row) := by
  refine stays_change fun ix fs a ix' fs' hx => ?_
  obtain ⟨key, -, hx⟩ := bind_eq_ok.1 hx
  obtain ⟨ix₁, ha, hx⟩ := bind_eq_ok.1 hx
  cases hx
  exact ⟨(alike_add ha).path, rfl⟩

/-- A file that is written in the place of an index changes no other files. -/
theorem stays_save : Stays save := by
  rintro l sites t i fs₀ ix fs ⟨hp, ha, hs, hb⟩
  obtain ⟨names, hl, -⟩ := ha.locate hs
  obtain ⟨fs', hw, hb'⟩ := hb.apart.write (b := ix.document.bytes) hs
  rw [apply_save (by rw [hp]; exact hw)]
  exact ⟨hp, ha, hs, hb.trans hb' ha ⟨names, hl⟩⟩

theorem stays_forM {f : β → Act StorageError Index PUnit} (hf : ∀ b, Stays (f b)) (items : List β) :
    Stays (items.forM f) := fun l sites t i fs₀ => preserves_forM (fun b => hf b l sites t i fs₀) items

theorem confined_insert (h : Handle) (row : Row) : Confined (insert h row) :=
  (stays_load.bind fun _ => (stays_addRow h row).bind fun _ => stays_save).confined

theorem confined_delete (h : Handle) (row : Row) : Confined (delete h row) := by
  refine (stays_load.bind fun _ => Stays.bind (stays_change fun ix fs a ix' fs' hx => ?_) fun _ => stays_save).confined
  obtain ⟨key, -, hx⟩ := bind_eq_ok.1 hx
  cases hx
  exact ⟨rfl, rfl⟩

theorem confined_load_look (f : Index → Files → Except StorageError α) : Confined (do load; look f) :=
  (stays_load.bind fun _ => stays_look f).confined

theorem confined_lookup (row : Row) : Confined (lookup row) := confined_load_look _

theorem confined_create (entries : List (Handle × Row)) : Confined (create entries) := by
  have hrows : Stays (entries.forM fun e => addRow e.1 e.2) := stays_forM (fun e => stays_addRow e.1 e.2) entries
  have hloaded : Stays (Act.update fun ix => { ix with loaded := true }) := stays_update fun _ => rfl
  have hempty : Stays (Act.update fun ix => { ix with map := ∅ }) := stays_update fun _ => rfl
  have hcreate : Stays (create entries) := (stays_look _).bind fun _ => hempty.bind fun _ => hrows.bind fun _ =>
    stays_save.bind fun _ => hloaded
  exact hcreate.confined

theorem confined_drop : Confined drop := by
  intro l sites t i fs ix hp ha hs
  rw [apply_drop, hp]
  cases hr : fs.remove (l.indexPath t i) with
  | ok fs' => exact (ha.remove hr).1
  | error e =>
    rw [ha.remove_error (s := .index t i) hs hr]
    exact ha.beside_self _

end Index

end Rowbase
