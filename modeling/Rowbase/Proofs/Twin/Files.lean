import Rowbase.Proofs.Sites
import Rowbase.Proofs.Twin.Acts

/-! # Files that differ in some bytes

Two states of a file system may differ in the bytes of some files, the *own* ones. A request about any other file does
the same in both, and leaves the own files and all directories as they are. -/
namespace Rowbase.Files

variable {own : Nat → Prop} {fs fs' g g' : Files} {path : String} {names : List String} {id : Nat} {b : ByteArray}

theorem SameTree.symm (h : SameTree fs fs') : SameTree fs' fs := ⟨h.nodes.symm, h.workDirectory.symm⟩

theorem SameTree.find (h : SameTree fs fs') (path : String) : fs'.find path = fs.find path := by
  rw [Files.find, Files.find, h.locate]
  simp only [h.node?]

theorem SameTree.locateFile (h : SameTree fs fs') (path : String) : fs'.locateFile path = fs.locateFile path := by
  rw [Files.locateFile, Files.locateFile, h.locate, start, start, h.workDirectory]
  simp only [h.walk]

theorem bytes_push (names : List String) (b : ByteArray) (id : Nat) :
    (fs.push names b).bytes id = if id = fs.contents.size then b else fs.bytes id := by
  simp only [bytes, push, Array.getD_eq_getD_getElem?, Array.getElem?_push]
  split <;> rfl

theorem locate_eq_of_keeps (h : KeepsDirectories fs fs') (h' : KeepsDirectories fs' fs) :
    fs'.locate path = .ok names ↔ fs.locate path = .ok names := ⟨locate_of_keeps h', locate_of_keeps h⟩

/-! ## Differing and sparing -/

/-- Whether two states differ in no more than the bytes of the own files. -/
structure SameBut (own : Nat → Prop) (fs fs' : Files) : Prop extends SameTree fs fs' where
  size : fs'.contents.size = fs.contents.size
  bytes : ∀ id, ¬ own id → fs'.bytes id = fs.bytes id

theorem SameBut.refl (fs : Files) : SameBut own fs fs := ⟨.refl fs, rfl, fun _ _ => rfl⟩

theorem SameBut.symm (h : SameBut own fs fs') : SameBut own fs' fs :=
  ⟨h.toSameTree.symm, h.size.symm, fun id hid => (h.bytes id hid).symm⟩

theorem SameBut.trans (h : SameBut own fs fs') (h' : SameBut own fs' g) : SameBut own fs g :=
  ⟨h.toSameTree.trans h'.toSameTree, h'.size.trans h.size, fun id hid => (h'.bytes id hid).trans (h.bytes id hid)⟩

/-- Other bytes in an own file. -/
theorem sameBut_setBytes (hid : own id) : SameBut own fs (fs.setBytes id b) :=
  ⟨sameTree_setBytes, size_setBytes, fun _ ho => bytes_setBytes_of_ne fun he => ho (he ▸ hid)⟩

/-- Whether the own files and all directories stay as they are. -/
structure Spares (own : Nat → Prop) (fs fs' : Files) : Prop where
  workDirectory : fs'.workDirectory = fs.workDirectory
  directory : ∀ names, fs'.node? names = some .directory ↔ fs.node? names = some .directory
  file : ∀ id, own id → ∀ names, fs'.node? names = some (.file id) ↔ fs.node? names = some (.file id)
  bytes : ∀ id, own id → fs'.bytes id = fs.bytes id
  size : fs.contents.size ≤ fs'.contents.size

theorem Spares.refl (fs : Files) : Spares own fs fs :=
  ⟨rfl, fun _ => Iff.rfl, fun _ _ _ => Iff.rfl, fun _ _ => rfl, Nat.le_refl _⟩

theorem Spares.trans (h : Spares own fs fs') (h' : Spares own fs' g) : Spares own fs g :=
  ⟨h'.workDirectory.trans h.workDirectory, fun names => (h'.directory names).trans (h.directory names),
    fun id hid names => (h'.file id hid names).trans (h.file id hid names),
    fun id hid => (h'.bytes id hid).trans (h.bytes id hid), Nat.le_trans h.size h'.size⟩

theorem Spares.keeps (h : Spares own fs fs') : KeepsDirectories fs fs' :=
  ⟨h.workDirectory, fun names => (h.directory names).2⟩

theorem Spares.locate_iff (h : Spares own fs fs') : fs'.locate path = .ok names ↔ fs.locate path = .ok names :=
  locate_eq_of_keeps h.keeps ⟨h.workDirectory.symm, fun names => (h.directory names).1⟩

/-- What leads to an own file is what led to it before. -/
theorem Spares.find_iff (h : Spares own fs fs') (hid : own id) : fs'.find path = .ok id ↔ fs.find path = .ok id := by
  simp only [find_eq_ok, h.locate_iff, h.file id hid]

/-- Whether the own files stay as they are, and no directory goes. -/
structure Leaves (own : Nat → Prop) (fs fs' : Files) : Prop where
  keeps : KeepsDirectories fs fs'
  file : ∀ id, own id → ∀ names, fs'.node? names = some (.file id) ↔ fs.node? names = some (.file id)
  bytes : ∀ id, own id → fs'.bytes id = fs.bytes id
  size : fs.contents.size ≤ fs'.contents.size

theorem Spares.leaves (h : Spares own fs fs') : Leaves own fs fs' := ⟨h.keeps, h.file, h.bytes, h.size⟩

theorem Leaves.find (h : Leaves own fs fs') (hid : own id) (hf : fs.find path = .ok id) : fs'.find path = .ok id := by
  obtain ⟨names, hl, hn⟩ := find_eq_ok.1 hf
  exact find_eq_ok.2 ⟨names, locate_of_keeps h.keeps hl, (h.file id hid names).2 hn⟩

/-- Whether all own files were made, and a path leads to none of them. -/
structure Clear (own : Nat → Prop) (fs : Files) (path : String) : Prop where
  made : ∀ id, own id → id < fs.contents.size
  misses : ∀ id, own id → fs.find path ≠ .ok id

theorem Clear.not_own (h : Clear own fs path) (hf : fs.find path = .ok id) : ¬ own id := fun hid => h.misses id hid hf

theorem Clear.spares (h : Clear own fs path) (hs : Spares own fs fs') : Clear own fs' path :=
  ⟨fun id hid => Nat.lt_of_lt_of_le (h.made id hid) hs.size, fun id hid hf => h.misses id hid ((hs.find_iff hid).1 hf)⟩

theorem Clear.sameBut (h : Clear own fs path) (hs : SameBut own fs fs') : Clear own fs' path :=
  ⟨fun id hid => hs.size ▸ h.made id hid, fun id hid => hs.find path ▸ h.misses id hid⟩

/-! ## Changing one file -/

theorem spares_setBytes (hid : ¬ own id) : Spares own fs (fs.setBytes id b) :=
  ⟨rfl, fun _ => Iff.rfl, fun _ _ _ => Iff.rfl, fun _ ho => bytes_setBytes_of_ne fun he => hid (he ▸ ho),
    size_setBytes.symm ▸ Nat.le_refl _⟩

theorem spares_push (hmade : ∀ id, own id → id < fs.contents.size) (hn : fs.node? names = none) :
    Spares own fs (fs.push names b) := by
  have hne : names ≠ [] := ne_nil_of_node? (by rw [hn]; exact nofun)
  have hnode : ∀ other, (fs.push names b).node? other =
      if other = names then some (.file fs.contents.size) else fs.node? other := node?_push hne
  refine ⟨rfl, fun other => ?_, fun id hid other => ?_, fun id hid => bytes_push_of_lt (hmade id hid), ?_⟩
  · rw [hnode]
    split
    · rename_i he
      rw [he, hn]
      exact iff_of_false nofun nofun
    · rfl
  · rw [hnode]
    split
    · rename_i he
      rw [he, hn]
      refine iff_of_false (fun hf => ?_) nofun
      cases hf
      exact Nat.lt_irrefl _ (hmade _ hid)
    · rfl
  · rw [size_push]
    exact Nat.le_succ _

theorem spares_erase (hn : fs.node? names = some (.file id)) (hid : ¬ own id) :
    Spares own fs { fs with nodes := fs.nodes.erase names } := by
  have hne : names ≠ [] := ne_nil_of_node? (by rw [hn]; exact nofun)
  have hnode : ∀ other, ({ fs with nodes := fs.nodes.erase names } : Files).node? other =
      if other = names then none else fs.node? other := node?_erase hne
  refine ⟨rfl, fun other => ?_, fun id' hid' other => ?_, fun _ _ => rfl, Nat.le_refl _⟩
  · rw [hnode]
    split
    · rename_i he
      rw [he, hn]
      exact iff_of_false nofun nofun
    · rfl
  · rw [hnode]
    split
    · rename_i he
      rw [he, hn]
      refine iff_of_false nofun fun hf => ?_
      cases hf
      exact hid hid'
    · rfl

/-! ## Changing both states alike -/

/-- Whether two states that differed in the own files alone were changed alike, and the own files left as they were. -/
structure Alongside (own : Nat → Prop) (fs fs' g g' : Files) : Prop where
  first : Spares own fs g
  second : Spares own fs' g'
  same : SameBut own g g'

theorem SameBut.alongside (h : SameBut own fs fs') : Alongside own fs fs' fs fs' := ⟨.refl fs, .refl fs', h⟩

theorem Alongside.trans {k k' : Files} (h : Alongside own fs fs' g g') (h' : Alongside own g g' k k') :
    Alongside own fs fs' k k' := ⟨h.first.trans h'.first, h.second.trans h'.second, h'.same⟩

section
variable (h : SameBut own fs fs')
include h

theorem SameBut.setBytes (hid : ¬ own id) : Alongside own fs fs' (fs.setBytes id b) (fs'.setBytes id b) where
  first := spares_setBytes hid
  second := spares_setBytes hid
  same := by
    refine ⟨⟨h.nodes, h.workDirectory⟩, ?_, fun other ho => ?_⟩
    · rw [size_setBytes, size_setBytes, h.size]
    · by_cases he : other = id
      · subst he
        by_cases hlt : other < fs.contents.size
        · rw [bytes_setBytes_self hlt, bytes_setBytes_self (h.size ▸ hlt)]
        · have hnone : ∀ {k : Files}, ¬ other < k.contents.size → (k.setBytes other b).bytes other = .empty := by
            intro k hk
            simp [Files.bytes, Files.setBytes, hk]
          rw [hnone hlt, hnone (h.size ▸ hlt)]
      · rw [bytes_setBytes_of_ne he, bytes_setBytes_of_ne he, h.bytes other ho]

theorem SameBut.push (hmade : ∀ id, own id → id < fs.contents.size) (hn : fs.node? names = none) :
    Alongside own fs fs' (fs.push names b) (fs'.push names b) where
  first := spares_push hmade hn
  second := spares_push (h.size ▸ hmade) ((h.node? names).trans hn)
  same := by
    refine ⟨⟨?_, h.workDirectory⟩, ?_, fun other ho => ?_⟩
    · change fs'.nodes.insert _ _ = fs.nodes.insert _ _
      rw [h.nodes, h.size]
    · rw [size_push, size_push, h.size]
    · rw [bytes_push, bytes_push, h.size, h.bytes other ho]

theorem SameBut.erase (hn : fs.node? names = some (.file id)) (hid : ¬ own id) : Alongside own fs fs'
    { fs with nodes := fs.nodes.erase names } { fs' with nodes := fs'.nodes.erase names } where
  first := spares_erase hn hid
  second := spares_erase ((h.node? names).trans hn) hid
  same := ⟨⟨congrArg (·.erase names) h.nodes, h.workDirectory⟩, h.size, h.bytes⟩

/-! ## Requests -/

theorem SameBut.read (hc : Clear own fs path) : fs'.read path = fs.read path := by
  rw [Files.read, Files.read, h.find]
  cases hf : fs.find path with
  | error e => rfl
  | ok id => exact congrArg Except.ok (h.bytes id (hc.not_own hf))

theorem SameBut.writeAt (hid : ¬ own id) (place : Nat) (data : ByteArray) :
    Alongside own fs fs' (fs.writeAt id place data) (fs'.writeAt id place data) := by
  rw [Files.writeAt, Files.writeAt, h.bytes id hid]
  exact h.setBytes hid

/-- A file that is made is not an own one. -/
theorem SameBut.create (hmade : ∀ id, own id → id < fs.contents.size) (path : String) :
    Agree (fun a b => b.1 = a.1 ∧ ¬ own a.1 ∧ Alongside own fs fs' a.2 b.2) (fs.create path) (fs'.create path) := by
  rw [Files.create, Files.create, h.locateFile]
  refine .bind_same _ fun names => ?_
  rw [h.node?]
  cases hn : fs.node? names with
  | some node => exact .error _
  | none => exact .ok ⟨h.size, fun hid => Nat.lt_irrefl _ (hmade _ hid), h.push hmade hn⟩

theorem SameBut.remove (hc : Clear own fs path) :
    Agree (Alongside own fs fs') (fs.remove path) (fs'.remove path) := by
  rw [Files.remove, Files.remove, h.locate]
  cases hl : fs.locate path with
  | error e => exact .error e
  | ok names =>
    simp only [bind, Except.bind, h.node?]
    cases hn : fs.node? names with
    | none => exact .error _
    | some node => cases node with
      | directory => exact .error _
      | file id => exact .ok (h.erase hn (hc.not_own (find_eq_ok.2 ⟨names, hl, hn⟩)))

theorem SameBut.write (hc : Clear own fs path) (b : ByteArray) :
    Agree (Alongside own fs fs') (fs.write path b) (fs'.write path b) := by
  rw [Files.write, Files.write, h.locateFile]
  cases hl : fs.locateFile path with
  | error e => exact .error e
  | ok names =>
    simp only [bind, Except.bind, h.node?]
    cases hn : fs.node? names with
    | none => exact .ok (h.push hc.made hn)
    | some node => cases node with
      | directory => exact .error _
      | file id => exact .ok (h.setBytes (hc.not_own (find_eq_ok.2 ⟨names, (locateFile_eq_ok.1 hl).2, hn⟩)))

end

end Rowbase.Files
