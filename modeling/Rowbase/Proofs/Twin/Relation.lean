import Rowbase.Heap.Relation
import Rowbase.Index.Basic
import Rowbase.Proofs.Twin.Files
import Rowbase.Proofs.Walks

/-! # Relations and indices in files that differ elsewhere

What is done to a relation or an index that lies in none of the own files does not depend on their bytes. It returns the
same in two states that differ in these bytes alone, changes both alike, and leaves the own files as they are. -/
namespace Rowbase

open Files (SameBut Spares Clear Alongside)

/-! ## Acts that pass by files -/

namespace Act

variable {ε σ α β : Type} {own : Nat → Prop} {P : σ → Files → Prop} {x : Act ε σ α}

/-- Whether the files beside one thing came alongside each other of two states that differed in the own files alone. -/
def Beyond (own : Nat → Prop) (P : σ → Files → Prop) (k k' : Files) (s : σ) (fs : Files) (t : σ) (ft : Files) : Prop :=
  t = s ∧ P s fs ∧ Alongside own k k' fs ft

/-- Whether an act neither depends on the bytes of the own files nor changes them. -/
def PassesBy (own : Nat → Prop) (P : σ → Files → Prop) (x : Act ε σ α) : Prop :=
  ∀ k k', Abreast (Beyond own P k k') x x fun _ => Beyond own P k k'

theorem PassesBy.apply {s : σ} {fs fs' : Files} (hx : PassesBy own P x) (hp : P s fs) (h : SameBut own fs fs') :
    ∃ res s' g g', x.apply s fs = (res, s', g) ∧ x.apply s fs' = (res, s', g') ∧ P s' g ∧ Alongside own fs fs' g g' := by
  obtain ⟨res, s', g, _, g', ha, ha', rfl, hp', hk⟩ := hx fs fs' s fs s fs' ⟨rfl, hp, h.alongside⟩
  exact ⟨res, _, g, g', ha, ha', hp', hk⟩

theorem passesBy_pure (a : α) : PassesBy own P (pure a : Act ε σ α) := fun _ _ => abreast_pure a

theorem PassesBy.bind {f : α → Act ε σ β} (hx : PassesBy own P x) (hf : ∀ a, PassesBy own P (f a)) :
    PassesBy own P (x >>= f) := fun k k' => (hx k k').bind (fun a => hf a k k') id

theorem passesBy_look {f : σ → Files → Except ε α}
    (hf : ∀ {s fs fs'}, P s fs → SameBut own fs fs' → f s fs' = f s fs) : PassesBy own P (look f) := by
  rintro k k' _ fs s ft ⟨rfl, hp, hk⟩
  exact ⟨f s fs, s, fs, s, ft, rfl, congrArg (·, s, ft) (hf hp hk.same), rfl, hp, hk⟩

theorem passesBy_change {f : σ → Files → Except ε (α × σ × Files)}
    (hf : ∀ {s fs fs'}, P s fs → SameBut own fs fs' → Agree (fun a b => b.1 = a.1 ∧ b.2.1 = a.2.1 ∧ P a.2.1 a.2.2 ∧
      Alongside own fs fs' a.2.2 b.2.2) (f s fs) (f s fs')) : PassesBy own P (change f) := by
  rintro k k' _ fs s ft ⟨rfl, hp, hk⟩
  have hagree := hf hp hk.same
  generalize hx : f s fs = x at hagree
  generalize hy : f s ft = y at hagree
  cases hagree with
  | error e => exact ⟨.error e, s, fs, s, ft, apply_change_error hx, apply_change_error hy, rfl, hp, hk⟩
  | @ok a b h =>
    obtain ⟨a, s', g⟩ := a
    obtain ⟨b, t', g'⟩ := b
    obtain ⟨rfl, rfl, hp', h⟩ := h
    exact ⟨.ok _, _, g, _, g', apply_change_ok hx, apply_change_ok hy, rfl, hp', hk.trans h⟩

theorem passesBy_update {f : σ → σ} (hf : ∀ {s fs}, P s fs → P (f s) fs) :
    PassesBy own P (update f : Act ε σ Unit) := by
  rintro k k' _ fs s ft ⟨rfl, hp, hk⟩
  exact ⟨.ok (), f s, fs, f s, ft, rfl, rfl, rfl, hf hp, hk⟩

theorem passesBy_filterM {f : α → Act ε σ Bool} (hf : ∀ a, PassesBy own P (f a)) :
    ∀ items : List α, PassesBy own P (items.filterM f)
  | [] => by
    rw [filterM_nil]
    exact passesBy_pure _
  | item :: items => by
    rw [filterM_cons]
    exact (hf item).bind fun _ => (passesBy_filterM hf items).bind fun _ => passesBy_pure _

theorem passesBy_mapM {f : α → Act ε σ β} (hf : ∀ a, PassesBy own P (f a)) (items : List α) :
    PassesBy own P (items.mapM f) := fun k k' => abreast_mapM (fun a => hf a k k') items

theorem passesBy_forM {f : α → Act ε σ PUnit} (hf : ∀ a, PassesBy own P (f a)) (items : List α) :
    PassesBy own P (items.forM f) := fun k k' => abreast_forM fun a _ => hf a k k'

end Act

/-! ## Files of blocks -/

namespace Heap.BlockFile

variable {own : Nat → Prop} {b : BlockFile} {fs fs' : Files} {path : String}

/-- Whether a file of blocks is none of the own files, open or not. -/
structure Away (own : Nat → Prop) (path : String) (b : BlockFile) : Prop where
  path_eq : b.path = path
  not_own : ∀ id, b.file = some id → ¬ own id

section
variable (h : SameBut own fs fs') (ha : b.Away own path)
include h ha

theorem get_sameBut (block : Nat) : b.get fs' block = b.get fs block := by
  rw [get, get, openFile]
  cases hb : b.file with
  | none => simp only [bind, Except.bind]
  | some id => simp only [bind, Except.bind, Files.readAt, h.bytes id (ha.not_own id hb)]

theorem agree_put (p : Page) : Agree (Alongside own fs fs') (b.put fs p) (b.put fs' p) := by
  rw [put, put, openFile]
  cases hb : b.file with
  | none => exact .error _
  | some id => exact .ok (h.writeAt (ha.not_own id hb) _ _)

/-- Whether a page and a file of blocks are the same on both sides, and the files were changed alike. -/
def Alike (own : Nat → Prop) (path : String) (fs fs' : Files) (x y : Page × BlockFile × Files) : Prop :=
  y.1 = x.1 ∧ y.2.1 = x.2.1 ∧ x.2.1.Away own path ∧ Alongside own fs fs' x.2.2 y.2.2

theorem agree_grow : Agree (Alike own path fs fs') (b.grow fs) (b.grow fs') :=
  (agree_put h ha _).bind fun _ _ hk => .ok ⟨rfl, rfl, ⟨ha.path_eq, ha.not_own⟩, hk⟩

theorem agree_remove (hc : Clear own fs path) : Agree (Alongside own fs fs') (b.remove fs) (b.remove fs') := by
  rw [remove, remove, ha.path_eq]
  have hremove := h.remove hc
  generalize fs.remove path = x at hremove
  generalize fs'.remove path = y at hremove
  cases hremove with
  | ok hk => exact .ok hk
  | error e =>
    cases e with
    | notFound => exact .ok h.alongside
    | _ => exact .error _

theorem opened_sameBut (hc : Clear own fs path) : b.opened fs' = b.opened fs := by
  rw [opened, opened, h.find, ha.path_eq]
  cases hf : fs.find path with
  | error e => cases e <;> rfl
  | ok id =>
    dsimp only
    rw [h.bytes id (hc.not_own hf)]

theorem agree_create (hc : Clear own fs path) : Agree (fun x y => y.1 = x.1 ∧ x.1.Away own path ∧
    Alongside own fs fs' x.2 y.2) (b.create fs) (b.create fs') := by
  rw [create, create]
  have hcreate := h.create hc.made b.path
  generalize fs.create b.path = x at hcreate
  generalize fs'.create b.path = y at hcreate
  cases hcreate with
  | error e => cases e <;> exact .error _
  | @ok x y hk =>
    obtain ⟨id, g⟩ := x
    obtain ⟨id', g'⟩ := y
    obtain ⟨hid', hid, hk⟩ := hk
    dsimp only at hid' hid
    subst hid'
    have haway : Away own path { b with file := some id', last := 0 } :=
      ⟨ha.path_eq, fun other ho => by cases ho; exact hid⟩
    refine (agree_grow hk.same haway).bind fun x y hxy => ?_
    obtain ⟨-, hfile, haway, hk'⟩ := hxy
    exact .ok ⟨hfile, haway, hk.trans hk'⟩

end

theorem Away.opened {b' : BlockFile} (ha : b.Away own path) (hc : Clear own fs path) (h : b.opened fs = .ok b') :
    b'.Away own path := by
  rw [BlockFile.opened] at h
  split at h
  · cases h
    exact ha
  · split at h
    · cases h
    · cases h
    · rename_i id hf
      cases h
      exact ⟨ha.path_eq, fun other ho => Option.some.inj ho ▸ hc.not_own (ha.path_eq ▸ hf)⟩

end Heap.BlockFile

/-! ## Relations -/

namespace Relation

open Act
open Heap (BlockFile Page)

variable {own : Nat → Prop} {r : Relation} {fs fs' : Files} {path : String}

/-- The last page of a relation with its file; a relation without any gets one. -/
def lastPage (r : Relation) (fs : Files) : Except StorageError (Page × BlockFile × Files) :=
  if r.file.last = 0 then r.file.grow fs else do pure (← r.file.get fs r.file.last, r.file, fs)

/-- The page with its file, or a new one behind it if it has no room. -/
def roomyPage (size : Nat) : Page × BlockFile × Files → Except StorageError (Page × BlockFile × Files)
  | (page, file, fs) => if page.hasRoom size then pure (page, file, fs) else file.grow fs

/-- Storing a row, step by step. -/
theorem append_steps (r : Relation) (fs : Files) (row : Row) : r.append fs row = (do
    let bytes ← (Heap.encode r.columns row).mapError StorageError.relation
    let last ← r.lastPage fs
    let roomy ← roomyPage bytes.size last
    let added ← roomy.1.add bytes
    let fs ← roomy.2.1.put roomy.2.2 added.2
    return (⟨added.2.block, added.1⟩, { r with file := roomy.2.1 }, fs)) := by
  rw [append]
  refine congrArg _ (funext fun bytes => ?_)
  rw [lastPage]
  split
  · refine congrArg _ (funext fun last => ?_)
    obtain ⟨page, file, fs⟩ := last
    simp only [roomyPage]
    split <;> rfl
  · rw [bind_assoc]
    refine congrArg _ (funext fun page => ?_)
    simp only [pure_bind, roomyPage]
    split <;> rfl

/-- Whether a relation lies at a path that leads to none of the own files. -/
structure Away (own : Nat → Prop) (path : String) (r : Relation) (fs : Files) : Prop where
  file : r.file.Away own path
  clear : Clear own fs path

theorem Away.spares (ha : r.Away own path fs) (hs : Spares own fs fs') : r.Away own path fs' :=
  ⟨ha.file, ha.clear.spares hs⟩

section
variable (h : SameBut own fs fs') (ha : r.file.Away own path)
include h ha

theorem row_sameBut (handle : Handle) : r.row fs' handle = r.row fs handle := by
  rw [row, row, BlockFile.get_sameBut h ha]

theorem handles_sameBut (condition : Option Row) : r.handles fs' condition = r.handles fs condition := by
  simp only [handles, BlockFile.get_sameBut h ha]

theorem agree_lastPage : Agree (BlockFile.Alike own path fs fs') (r.lastPage fs) (r.lastPage fs') := by
  rw [lastPage, lastPage]
  split
  · exact BlockFile.agree_grow h ha
  · rw [BlockFile.get_sameBut h ha]
    exact .bind_same _ fun page => .ok ⟨rfl, rfl, ha, h.alongside⟩

omit h ha in
theorem agree_roomyPage (size : Nat) {x y : Page × BlockFile × Files} (hxy : BlockFile.Alike own path fs fs' x y) :
    Agree (BlockFile.Alike own path fs fs') (roomyPage size x) (roomyPage size y) := by
  obtain ⟨page, file, g⟩ := x
  obtain ⟨_, _, g'⟩ := y
  obtain ⟨rfl, rfl, ha, hk⟩ := hxy
  rw [roomyPage, roomyPage]
  split
  · exact .ok ⟨rfl, rfl, ha, hk⟩
  · exact (BlockFile.agree_grow hk.same ha).mono fun _ _ ⟨hp, hf, ha, hk'⟩ => ⟨hp, hf, ha, hk.trans hk'⟩

/-- Whether a row was stored alike on both sides, in a relation that is still away from the own files. -/
def Stored (own : Nat → Prop) (path : String) (fs fs' : Files) (x y : Handle × Relation × Files) : Prop :=
  y.1 = x.1 ∧ y.2.1 = x.2.1 ∧ x.2.1.file.Away own path ∧ Alongside own fs fs' x.2.2 y.2.2

theorem agree_append (row : Row) : Agree (Stored own path fs fs') (r.append fs row) (r.append fs' row) := by
  rw [append_steps, append_steps]
  refine .bind_same _ fun bytes => (agree_lastPage h ha).bind fun _ _ hlast =>
    (agree_roomyPage bytes.size hlast).bind fun x y hxy => ?_
  obtain ⟨page, file, g⟩ := x
  obtain ⟨_, _, g'⟩ := y
  obtain ⟨rfl, rfl, ha, hk⟩ := hxy
  refine .bind_same _ fun added => (BlockFile.agree_put hk.same ha added.2).bind fun _ _ hk' => ?_
  exact .ok ⟨rfl, rfl, ha, hk.trans hk'⟩

theorem agree_erase (handle : Handle) : Agree (Alongside own fs fs') (r.erase fs handle) (r.erase fs' handle) := by
  rw [erase, erase, BlockFile.get_sameBut h ha]
  refine .bind_same _ fun page => ?_
  cases page.delete? handle.record with
  | none => exact .error _
  | some page => exact BlockFile.agree_put h ha page

end

/-! ### Acts -/

theorem passesBy_opening : PassesBy own (Away own path) opening := by
  refine passesBy_change fun {r fs fs'} ha h => ?_
  rw [BlockFile.opened_sameBut h ha.file ha.clear]
  cases ho : r.file.opened fs with
  | error e => exact .error e
  | ok file => exact .ok ⟨rfl, rfl, ⟨ha.file.opened ha.clear ho, ha.clear⟩, h.alongside⟩

theorem passesBy_opening_look {f : Relation → Files → Except StorageError α}
    (hf : ∀ {r fs fs'}, r.Away own path fs → SameBut own fs fs' → f r fs' = f r fs) :
    PassesBy own (Away own path) (do opening; look f) := passesBy_opening.bind fun _ => passesBy_look hf

theorem passesBy_select (condition : Option Row) : PassesBy own (Away own path) (select condition) :=
  passesBy_opening_look fun ha h => handles_sameBut h ha.file condition

theorem passesBy_project (handle : Handle) (columns : List String) :
    PassesBy own (Away own path) (project handle columns) :=
  passesBy_opening_look fun ha h => by rw [row_sameBut h ha.file]

theorem passesBy_keep (condition : Row) (handles : List Handle) : PassesBy own (Away own path) (keep condition handles) :=
  passesBy_filterM (fun handle => (passesBy_project handle []).bind fun _ => passesBy_look fun _ _ => rfl) handles

theorem passesBy_insert (row : Row) : PassesBy own (Away own path) (insert row) := by
  refine passesBy_opening.bind fun _ => passesBy_change fun {r fs fs'} ha h => .bind_same _ fun full => ?_
  exact (agree_append h ha.file full).mono fun _ _ ⟨ha', hr, hfile, hk⟩ =>
    ⟨ha', hr, ⟨hfile, ha.clear.spares hk.first⟩, hk⟩

theorem passesBy_delete (handle : Handle) : PassesBy own (Away own path) (Relation.delete handle) :=
  passesBy_opening.bind fun _ => passesBy_change fun ha h =>
    (agree_erase h ha.file handle).bind fun _ _ hk => .ok ⟨rfl, rfl, ha.spares hk.first, hk⟩

theorem passesBy_create : PassesBy own (Away own path) create := by
  refine passesBy_change fun {r fs fs'} ha h => (BlockFile.agree_create h ha.file ha.clear).bind fun x y hxy => ?_
  obtain ⟨file, g⟩ := x
  obtain ⟨_, g'⟩ := y
  obtain ⟨rfl, haway, hk⟩ := hxy
  exact .ok ⟨rfl, rfl, ⟨haway, ha.clear.spares hk.first⟩, hk⟩

theorem passesBy_createIfMissing : PassesBy own (Away own path) createIfMissing := by
  have hlook : PassesBy own (Away own path) (look fun r fs => .ok (r.file.exists? fs) : Act StorageError Relation Bool) :=
    passesBy_look fun _ h => congrArg Except.ok (h.exists? _)
  refine hlook.bind fun there => ?_
  cases there with
  | true => exact passesBy_opening
  | false => exact passesBy_create

theorem passesBy_drop : PassesBy own (Away own path) drop :=
  (passesBy_update fun ha => ⟨⟨ha.file.path_eq, nofun⟩, ha.clear⟩).bind fun _ => passesBy_change fun ha h =>
    (BlockFile.agree_remove h ha.file ha.clear).bind fun _ _ hk => .ok ⟨rfl, rfl, ha.spares hk.first, hk⟩

end Relation

/-! ## Indices -/

namespace Index

open Act

variable {own : Nat → Prop} {fs : Files} {path : String}

/-- Whether an index lies at a path that leads to none of the own files. -/
structure Away (own : Nat → Prop) (path : String) (ix : Index) (fs : Files) : Prop where
  path_eq : ix.path = path
  clear : Clear own fs path

theorem passesBy_load : PassesBy own (Away own path) load := by
  refine passesBy_change fun {ix fs fs'} ha h => ?_
  have hread : fs'.read ix.path = fs.read ix.path := h.read (ha.path_eq ▸ ha.clear)
  rw [hread]
  split
  · exact .ok ⟨rfl, rfl, ha, h.alongside⟩
  · cases fs.read ix.path with
    | error e => cases e <;> exact .error _
    | ok bytes =>
      dsimp only
      cases Document.ofBytes? bytes with
      | none => exact .error _
      | some d => exact .ok ⟨rfl, rfl, ⟨ha.path_eq, ha.clear⟩, h.alongside⟩

theorem passesBy_save : PassesBy own (Away own path) save := by
  refine passesBy_change fun {ix fs fs'} ha h => ?_
  refine (h.write (ha.path_eq ▸ ha.clear) ix.document.bytes).mapError.bind fun _ _ hk => ?_
  exact .ok ⟨rfl, rfl, ⟨ha.path_eq, ha.clear.spares hk.first⟩, hk⟩

theorem path_of_add {ix ix' : Index} {key : Key} {handle : Handle} (h : ix.add key handle = .ok ix') :
    ix'.path = ix.path := by
  rw [add] at h
  split at h
  · cases h
  · cases h
    rfl

theorem passesBy_addRow (handle : Handle) (row : Row) : PassesBy own (Away own path) (addRow handle row) := by
  refine passesBy_change fun {ix fs fs'} ha h => .bind_same _ fun key => ?_
  cases hx : ix.add key handle with
  | error e => exact .error e
  | ok ix' => exact .ok ⟨rfl, rfl, ⟨(path_of_add hx).trans ha.path_eq, ha.clear⟩, h.alongside⟩

theorem passesBy_create (entries : List (Handle × Row)) : PassesBy own (Away own path) (Index.create entries) := by
  have hrows : PassesBy own (Away own path) (entries.forM fun e => addRow e.1 e.2) :=
    passesBy_forM (fun e => passesBy_addRow e.1 e.2) entries
  refine (passesBy_look fun {ix fs fs'} _ h => ?_).bind fun _ => ?_
  · rw [h.exists?]
  · refine (passesBy_update fun ha => ⟨ha.path_eq, ha.clear⟩).bind fun _ => hrows.bind fun _ => ?_
    exact passesBy_save.bind fun _ => passesBy_update fun ha => ⟨ha.path_eq, ha.clear⟩

theorem passesBy_drop : PassesBy own (Away own path) Index.drop := by
  refine (passesBy_update fun ha => ⟨ha.path_eq, ha.clear⟩).bind fun _ => passesBy_change fun {ix fs fs'} ha h => ?_
  have hremove := h.remove ha.clear
  rw [ha.path_eq]
  generalize fs.remove path = x at hremove
  generalize fs'.remove path = y at hremove
  cases hremove with
  | ok hk => exact .ok ⟨rfl, rfl, ⟨ha.path_eq, ha.clear.spares hk.first⟩, hk⟩
  | error e =>
    cases e with
    | notFound => exact .ok ⟨rfl, rfl, ha, h.alongside⟩
    | _ => exact .error _

theorem passesBy_insert (handle : Handle) (row : Row) : PassesBy own (Away own path) (Index.insert handle row) :=
  passesBy_load.bind fun _ => (passesBy_addRow handle row).bind fun _ => passesBy_save

theorem passesBy_delete (handle : Handle) (row : Row) : PassesBy own (Away own path) (Index.delete handle row) :=
  passesBy_load.bind fun _ => (passesBy_change fun {ix _ _} ha h => .bind_same (ix.keyOf row) fun _ =>
    .ok ⟨rfl, rfl, ⟨ha.path_eq, ha.clear⟩, h.alongside⟩).bind fun _ => passesBy_save

theorem passesBy_lookup (row : Row) : PassesBy own (Away own path) (Index.lookup row) :=
  passesBy_load.bind fun _ => passesBy_look fun _ _ => rfl

end Index

end Rowbase
