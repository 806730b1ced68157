import Rowbase.Proofs.Frame.Files
import Rowbase.Proofs.Reading
import Rowbase.Proofs.Twin.Relation

/-! # Relations and indices at some places only

What is done to a relation or an index whose path leads to some places changes files at these places only. -/
namespace Rowbase

open Files (Linkless Within Lies Leads)

namespace Act

variable {ε σ α : Type} {P : σ → Files → Prop} {x : Act ε σ α}

theorem preserves_look (f : σ → Files → Except ε α) : Preserves P (look f) := fun _ _ h => h

theorem preserves_change {f : σ → Files → Except ε (α × σ × Files)}
    (hf : ∀ {s fs a s' fs'}, P s fs → f s fs = .ok (a, s', fs') → P s' fs') : Preserves P (change f) := by
  intro s fs h
  rw [apply_change]
  split
  · exact h
  · rename_i hx
    exact hf h hx

theorem preserves_update {f : σ → σ} (hf : ∀ {s fs}, P s fs → P (f s) fs) : Preserves P (update f : Act ε σ Unit) :=
  fun _ _ h => hf h

theorem Preserves.caught (h : Preserves P x) : Preserves P x.caught := h

theorem Preserves.onFailure {cleanup : Act ε σ Unit} (hx : Preserves P x) (hc : Preserves P cleanup) :
    Preserves P (x.onFailure cleanup) := by
  intro s fs h
  have h' := hx s fs h
  rw [apply_onFailure]
  split <;> rename_i ha <;> rw [ha] at h'
  · exact hc _ _ h'
  · exact h'

end Act

/-! ## Files of blocks -/

namespace Heap.BlockFile

variable {P : List String → Prop} {b b' : BlockFile} {fs g : Files} {path : String} {p : Page}

/-- Whether a file of blocks is looked for at a path, and lies at some places if it is open. -/
structure Inside (P : List String → Prop) (path : String) (b : BlockFile) (fs : Files) : Prop where
  path_eq : b.path = path
  lies : ∀ id, b.file = some id → Lies P fs id

theorem inside_of_closed (hp : b.path = path) (hnone : b.file = none) : b.Inside P path fs :=
  ⟨hp, fun id hid => absurd (hnone.symm.trans hid) (Option.some_ne_none id).symm⟩

theorem Inside.within (h : b.Inside P path fs) (hw : Within P fs g) : b.Inside P path g :=
  ⟨h.path_eq, fun id hid => (h.lies id hid).within hw⟩

theorem Inside.put (h : b.Inside P path fs) (hx : b.put fs p = .ok g) : Within P fs g := by
  obtain ⟨id, hid, hx⟩ := bind_eq_ok.1 hx
  cases hx
  rw [openFile] at hid
  split at hid
  · rename_i ho
    cases hid
    exact Files.within_writeAt (h.lies _ ho) _ _
  · cases hid

theorem Inside.grow (h : b.Inside P path fs) (hx : b.grow fs = .ok (p, b', g)) :
    Within P fs g ∧ b'.Inside P path g := by
  obtain ⟨g', hput, hx⟩ := bind_eq_ok.1 hx
  cases hx
  have hw : Within P fs g := h.put hput
  exact ⟨hw, (h.within hw).path_eq, (h.within hw).lies⟩

theorem Inside.opened (h : b.Inside P path fs) (hl : fs.Linkless) (hp : Leads P fs path)
    (hx : b.opened fs = .ok b') : b'.Inside P path fs := by
  rw [BlockFile.opened] at hx
  split at hx
  · cases hx
    exact h
  · split at hx
    · cases hx
    · cases hx
    · rename_i id hf
      cases hx
      rw [h.path_eq] at hf
      refine ⟨h.path_eq, fun other ho => ?_⟩
      cases ho
      exact hp.lies_of_find hl hf

theorem Inside.create (h : b.Inside P path fs) (hl : fs.Linkless) (hp : Leads P fs path)
    (hx : b.create fs = .ok (b', g)) : Within P fs g ∧ b'.Inside P path g := by
  rw [BlockFile.create] at hx
  split at hx
  · cases hx
  · cases hx
  · rename_i id fs₁ hc
    rw [h.path_eq] at hc
    obtain ⟨hw, hlies⟩ := Files.within_create hl hp hc
    obtain ⟨⟨p, b₁, fs₂⟩, hgrow, hx⟩ := bind_eq_ok.1 hx
    cases hx
    have hopen : Inside P path { b with file := some id, last := 0 } fs₁ := by
      refine ⟨h.path_eq, fun other ho => ?_⟩
      cases ho
      exact hlies
    obtain ⟨hw', hin⟩ := hopen.grow hgrow
    exact ⟨hw.trans hw', hin⟩

theorem Inside.remove (h : b.Inside P path fs) (hp : Leads P fs path) (hx : b.remove fs = .ok g) : Within P fs g := by
  rw [BlockFile.remove, h.path_eq] at hx
  split at hx
  · rename_i hr
    cases hx
    exact Files.within_remove hp hr
  · cases hx
    exact .refl fs
  · cases hx

end Heap.BlockFile

/-! ## Relations -/

namespace Relation

open Act
open Heap (BlockFile Page)

variable {P : List String → Prop} {path : String} {k : Files} {r r' : Relation} {fs g : Files}
  {handle : Handle} {row : Row}

/-- Whether a relation is looked for at a path that leads to some places, and files have changed at these places
only. -/
structure Inside (P : List String → Prop) (path : String) (k : Files) (r : Relation) (fs : Files) : Prop where
  file : r.file.Inside P path fs
  leads : Leads P fs path
  linkless : fs.Linkless
  within : Within P k fs

theorem Inside.move (h : r.Inside P path k fs) (hw : Within P fs g) (hf : r'.file.Inside P path g) :
    r'.Inside P path k g := ⟨hf, h.leads.within hw, hw.linkless h.linkless, h.within.trans hw⟩

theorem Inside.append (h : r.Inside P path k fs) (hx : r.append fs row = .ok (handle, r', g)) :
    r'.Inside P path k g := by
  rw [append_steps] at hx
  obtain ⟨bytes, -, hx⟩ := bind_eq_ok.1 hx
  obtain ⟨⟨page, file, fs₁⟩, hlast, hx⟩ := bind_eq_ok.1 hx
  obtain ⟨⟨page', file', fs₂⟩, hroomy, hx⟩ := bind_eq_ok.1 hx
  obtain ⟨added, -, hx⟩ := bind_eq_ok.1 hx
  obtain ⟨fs₃, hput, hx⟩ := bind_eq_ok.1 hx
  cases hx
  have h₁ : Within P fs fs₁ ∧ file.Inside P path fs₁ := by
    rw [lastPage] at hlast
    split at hlast
    · exact h.file.grow hlast
    · obtain ⟨page, -, hlast⟩ := bind_eq_ok.1 hlast
      cases hlast
      exact ⟨.refl _, h.file⟩
  have h₂ : Within P fs₁ fs₂ ∧ file'.Inside P path fs₂ := by
    rw [roomyPage] at hroomy
    split at hroomy
    · cases hroomy
      exact ⟨.refl _, h₁.2⟩
    · exact h₁.2.grow hroomy
  have h₃ : Within P fs₂ g := h₂.2.put hput
  exact h.move ((h₁.1.trans h₂.1).trans h₃) (h₂.2.within h₃)

theorem Inside.erase (h : r.Inside P path k fs) (hx : r.erase fs handle = .ok g) : r.Inside P path k g := by
  obtain ⟨page, -, hx⟩ := bind_eq_ok.1 hx
  split at hx
  · have hw : Within P fs g := h.file.put hx
    exact h.move hw (h.file.within hw)
  · cases hx

/-! ### Acts -/

theorem preserves_opening : Preserves (Inside P path k) opening := by
  refine preserves_change fun {r fs _ _ _} h hx => ?_
  obtain ⟨file, ho, hx⟩ := bind_eq_ok.1 hx
  cases hx
  exact h.move (.refl fs) (h.file.opened h.linkless h.leads ho)

/-- What only reads a relation leaves it where it is. -/
theorem preserves_of_reads {α : Type} {x : Act StorageError Relation α} (hx : Reads view x) :
    Preserves (Inside P path k) x := by
  intro r fs h
  obtain ⟨r', ha, hv⟩ := hx.apply_eq r fs
  obtain ⟨hdescription, ho⟩ := Prod.mk.inj hv
  have hpath : r'.file.path = r.file.path := (Prod.mk.inj (Prod.mk.inj hdescription).2).2
  rw [ha]
  refine h.move (.refl fs) ⟨hpath.trans h.file.path_eq, fun id hid => ?_⟩
  rw [BlockFile.opened, if_pos (by rw [BlockFile.isOpen, hid]; rfl)] at ho
  exact (h.file.opened h.linkless h.leads ho.symm).lies id hid

theorem preserves_insert (row : Row) : Preserves (Inside P path k) (insert row) := by
  refine preserves_opening.bind fun _ => preserves_change fun {r fs _ _ _} h hx => ?_
  obtain ⟨full, -, hx⟩ := bind_eq_ok.1 hx
  exact h.append hx

theorem preserves_delete (handle : Handle) : Preserves (Inside P path k) (Relation.delete handle) := by
  refine preserves_opening.bind fun _ => preserves_change fun {r fs _ _ _} h hx => ?_
  obtain ⟨g, he, hx⟩ := bind_eq_ok.1 hx
  cases hx
  exact h.erase he

theorem preserves_create : Preserves (Inside P path k) create := by
  refine preserves_change fun {r fs _ _ _} h hx => ?_
  obtain ⟨⟨file, g⟩, hc, hx⟩ := bind_eq_ok.1 hx
  cases hx
  obtain ⟨hw, hin⟩ := h.file.create h.linkless h.leads hc
  exact h.move hw hin

theorem preserves_createIfMissing : Preserves (Inside P path k) createIfMissing := by
  refine (preserves_look _).bind fun there => ?_
  cases there with
  | true => exact preserves_opening
  | false => exact preserves_create

theorem preserves_make (adopt : Bool) : Preserves (Inside P path k) (if adopt then createIfMissing else create) := by
  cases adopt
  · exact preserves_create
  · exact preserves_createIfMissing

theorem preserves_drop : Preserves (Inside P path k) drop := by
  refine (preserves_update fun {r fs} h =>
    h.move (.refl fs) (Heap.BlockFile.inside_of_closed h.file.path_eq rfl)).bind fun _ => preserves_change fun {r fs _ _ _} h hx => ?_
  obtain ⟨g, hr, hx⟩ := bind_eq_ok.1 hx
  cases hx
  have hw := h.file.remove h.leads hr
  exact h.move hw (h.file.within hw)

end Relation

/-! ## Indices -/

namespace Index

open Act

variable {P : List String → Prop} {path : String} {k : Files} {ix ix' : Index} {fs g : Files}

/-- Whether an index is looked for at a path that leads to some places, and files have changed at these places only. -/
structure Inside (P : List String → Prop) (path : String) (k : Files) (ix : Index) (fs : Files) : Prop where
  path_eq : ix.path = path
  leads : Leads P fs path
  linkless : fs.Linkless
  within : Within P k fs

theorem Inside.move (h : ix.Inside P path k fs) (hw : Within P fs g) (hp : ix'.path = ix.path) :
    ix'.Inside P path k g :=
  ⟨hp.trans h.path_eq, h.leads.within hw, hw.linkless h.linkless, h.within.trans hw⟩

theorem preserves_load : Preserves (Inside P path k) load := by
  refine preserves_change fun {ix fs _ _ _} h hx => ?_
  split at hx
  · cases hx
    exact h
  · split at hx
    · cases hx
    · cases hx
    · cases hx
    · split at hx
      · cases hx
      · cases hx
        exact h.move (.refl fs) rfl

theorem preserves_save : Preserves (Inside P path k) save := by
  refine preserves_change fun {ix fs _ _ _} h hx => ?_
  obtain ⟨g, hw, hx⟩ := bind_eq_ok.1 hx
  cases hx
  rw [h.path_eq] at hw
  cases hwrite : fs.write path ix.document.bytes with
  | error e =>
    rw [hwrite] at hw
    cases hw
  | ok g' =>
    rw [hwrite] at hw
    cases hw
    exact h.move (Files.within_write h.linkless h.leads hwrite) rfl

theorem preserves_addRow (handle : Handle) (row : Row) : Preserves (Inside P path k) (addRow handle row) := by
  refine preserves_change fun {ix fs _ _ _} h hx => ?_
  obtain ⟨key, -, hx⟩ := bind_eq_ok.1 hx
  obtain ⟨ix', ha, hx⟩ := bind_eq_ok.1 hx
  cases hx
  exact h.move (.refl fs) (path_of_add ha)

theorem preserves_create (entries : List (Handle × Row)) : Preserves (Inside P path k) (Index.create entries) := by
  have hrows : Preserves (Inside P path k) (entries.forM fun e => addRow e.1 e.2) :=
    preserves_forM (fun e => preserves_addRow e.1 e.2) entries
  exact (preserves_look _).bind fun _ => (preserves_update fun {ix fs} h => h.move (.refl fs) rfl).bind fun _ =>
    hrows.bind fun _ => preserves_save.bind fun _ => preserves_update fun {ix fs} h => h.move (.refl fs) rfl

theorem preserves_drop : Preserves (Inside P path k) Index.drop := by
  refine (preserves_update fun {ix fs} h => h.move (.refl fs) rfl).bind fun _ =>
    preserves_change fun {ix fs _ _ _} h hx => ?_
  rw [h.path_eq] at hx
  split at hx
  · rename_i hr
    cases hx
    exact h.move (Files.within_remove h.leads hr) rfl
  · cases hx
    exact h
  · cases hx

theorem preserves_insert (handle : Handle) (row : Row) : Preserves (Inside P path k) (Index.insert handle row) :=
  preserves_load.bind fun _ => (preserves_addRow handle row).bind fun _ => preserves_save

theorem preserves_delete (handle : Handle) (row : Row) : Preserves (Inside P path k) (Index.delete handle row) := by
  refine preserves_load.bind fun _ => (preserves_change fun {ix fs _ _ _} h hx => ?_).bind fun _ => preserves_save
  obtain ⟨key, -, hx⟩ := bind_eq_ok.1 hx
  cases hx
  exact h.move (.refl fs) rfl

end Index

end Rowbase
