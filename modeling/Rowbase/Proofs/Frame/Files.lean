import Rowbase.Files.Edit
import Rowbase.Proofs.Files

/-! # Changes at some places only

As long as no file has two names, a change to the file at one place is seen at no other. So what is asked for at paths
that lead to some places, and of open files that lie there, changes nothing anywhere else. -/
namespace Rowbase.Files

variable {P : List String → Prop} {fs fs' g : Files} {path : String} {names : List String} {id : Nat} {b : ByteArray}

/-- Whether every file has a number that was given out, and one name. -/
structure Linkless (fs : Files) : Prop where
  stored : ∀ names id, fs.node? names = some (.file id) → id < fs.contents.size
  single : ∀ names names' id, fs.node? names = some (.file id) → fs.node? names' = some (.file id) → names' = names

/-- Whether nothing changed but files at some places, of which none was given a second name. -/
structure Within (P : List String → Prop) (fs fs' : Files) : Prop where
  linkless : fs.Linkless → fs'.Linkless
  workDirectory : fs'.workDirectory = fs.workDirectory
  directory : ∀ names, fs'.node? names = some .directory ↔ fs.node? names = some .directory
  elsewhere : ∀ names, ¬ P names → fs'.node? names = fs.node? names
  bytes : ∀ names id, ¬ P names → fs.node? names = some (.file id) → fs'.bytes id = fs.bytes id

theorem Within.refl (fs : Files) : Within P fs fs := ⟨id, rfl, fun _ => Iff.rfl, fun _ _ => rfl, fun _ _ _ _ => rfl⟩

theorem Within.trans (h : Within P fs fs') (h' : Within P fs' g) : Within P fs g where
  linkless hl := h'.linkless (h.linkless hl)
  workDirectory := h'.workDirectory.trans h.workDirectory
  directory names := (h'.directory names).trans (h.directory names)
  elsewhere names hp := (h'.elsewhere names hp).trans (h.elsewhere names hp)
  bytes names id hp hn := (h'.bytes names id hp ((h.elsewhere names hp).trans hn)).trans (h.bytes names id hp hn)

theorem Within.keeps (h : Within P fs fs') : KeepsDirectories fs fs' :=
  ⟨h.workDirectory, fun names => (h.directory names).2⟩

theorem Within.locate_iff (h : Within P fs fs') : fs'.locate path = .ok names ↔ fs.locate path = .ok names :=
  ⟨locate_of_keeps ⟨h.workDirectory.symm, fun names => (h.directory names).1⟩, locate_of_keeps h.keeps⟩

/-- Elsewhere every file has the bytes that it had, and there is none that was not there. -/
theorem Within.fileAt?_eq (h : Within P fs fs') (hp : ¬ P names) : fs'.fileAt? names = fs.fileAt? names := by
  rw [fileAt?, fileAt?, h.elsewhere names hp]
  split
  · rename_i id hn
    rw [h.bytes names id hp hn]
  · rfl

/-! ## Where files lie and paths lead -/

/-- Whether a file lies at some places, as far as it lies anywhere. -/
def Lies (P : List String → Prop) (fs : Files) (id : Nat) : Prop := ∀ names, fs.node? names = some (.file id) → P names

/-- Whether a path leads to some places, as far as it leads anywhere. -/
def Leads (P : List String → Prop) (fs : Files) (path : String) : Prop := ∀ names, fs.locate path = .ok names → P names

theorem Lies.within (h : Lies P fs id) (hw : Within P fs fs') : Lies P fs' id := by
  intro names hn
  by_contra hp
  exact hp (h names ((hw.elsewhere names hp).symm.trans hn))

theorem Leads.within (h : Leads P fs path) (hw : Within P fs fs') : Leads P fs' path := fun names hl =>
  h names (hw.locate_iff.1 hl)

theorem Leads.lies_of_find (h : Leads P fs path) (hl : fs.Linkless) (hf : fs.find path = .ok id) : Lies P fs id := by
  obtain ⟨names, hlocate, hn⟩ := find_eq_ok.1 hf
  intro names' hn'
  rw [hl.single names names' id hn hn']
  exact h names hlocate

/-! ## Changing one file -/

theorem Linkless.sameTree (h : fs.Linkless) (ht : SameTree fs fs') (hs : fs'.contents.size = fs.contents.size) :
    fs'.Linkless where
  stored names id hn := hs ▸ h.stored names id (ht.node? names ▸ hn)
  single names names' id hn hn' := h.single names names' id (ht.node? names ▸ hn) (ht.node? names' ▸ hn')

theorem within_setBytes (h : Lies P fs id) : Within P fs (fs.setBytes id b) where
  linkless hl := hl.sameTree sameTree_setBytes size_setBytes
  workDirectory := rfl
  directory _ := Iff.rfl
  elsewhere _ _ := rfl
  bytes names _ hp hn := bytes_setBytes_of_ne fun he => hp (h names (he ▸ hn))

theorem within_push (hl : fs.Linkless) (hp : P names) (hn : fs.node? names = none) : Within P fs (fs.push names b) := by
  have hnode : ∀ other, (fs.push names b).node? other =
      if other = names then some (.file fs.contents.size) else fs.node? other :=
    node?_push (ne_nil_of_node? (by rw [hn]; exact nofun))
  refine ⟨fun _ => ⟨fun other id ho => ?_, fun a a' id ha ha' => ?_⟩, rfl, fun other => ?_, fun other ho => ?_,
    fun other id _ ho => bytes_push_of_lt (hl.stored other id ho)⟩
  · rw [hnode] at ho
    rw [size_push]
    split at ho
    · cases ho
      exact Nat.lt_succ_self _
    · exact Nat.lt_succ_of_lt (hl.stored other id ho)
  · rw [hnode] at ha ha'
    split at ha <;> split at ha'
    · rename_i he he'
      rw [he, he']
    · cases ha
      exact absurd (hl.stored _ _ ha') (Nat.lt_irrefl _)
    · cases ha'
      exact absurd (hl.stored _ _ ha) (Nat.lt_irrefl _)
    · exact hl.single a a' id ha ha'
  · rw [hnode]
    split
    · rename_i he
      rw [he, hn]
      exact iff_of_false nofun nofun
    · rfl
  · rw [hnode, if_neg]
    rintro rfl
    exact ho hp

theorem within_erase (hp : P names) (hn : fs.node? names = some (.file id)) :
    Within P fs { fs with nodes := fs.nodes.erase names } := by
  have hnode : ∀ other, ({ fs with nodes := fs.nodes.erase names } : Files).node? other =
      if other = names then none else fs.node? other := node?_erase (ne_nil_of_node? (by rw [hn]; exact nofun))
  have hstays : ∀ {other : List String} {node : Node},
      ({ fs with nodes := fs.nodes.erase names } : Files).node? other = some node → fs.node? other = some node := by
    intro other node ho
    rw [hnode] at ho
    split at ho
    · cases ho
    · exact ho
  refine ⟨fun hl => ⟨fun other id ho => hl.stored other id (hstays ho), fun a a' id ha ha' =>
    hl.single a a' id (hstays ha) (hstays ha')⟩, rfl, fun other => ⟨hstays, fun ho => ?_⟩, fun other ho => ?_,
    fun _ _ _ _ => rfl⟩
  · rw [hnode, if_neg]
    · exact ho
    · rintro rfl
      rw [hn] at ho
      cases ho
  · rw [hnode, if_neg]
    rintro rfl
    exact ho hp

/-! ## Requests -/

theorem within_writeAt (h : Lies P fs id) (place : Nat) (data : ByteArray) : Within P fs (fs.writeAt id place data) :=
  within_setBytes h

/-- A file that is made lies where its path leads. -/
theorem within_create (hl : fs.Linkless) (hp : Leads P fs path) (h : fs.create path = .ok (id, g)) :
    Within P fs g ∧ Lies P g id := by
  obtain ⟨names, hlocate, hn, rfl, rfl⟩ := create_eq_ok.1 h
  have hlocate := (locateFile_eq_ok.1 hlocate).2
  have hw : Within P fs (fs.push names .empty) := within_push hl (hp names hlocate) hn
  exact ⟨hw, (hp.within hw).lies_of_find (hw.linkless hl) (find_push hlocate hn)⟩

theorem within_remove (hp : Leads P fs path) (h : fs.remove path = .ok g) : Within P fs g := by
  obtain ⟨names, hlocate, h⟩ := bind_eq_ok.1 h
  split at h
  · rename_i id hn
    cases h
    exact within_erase (hp names hlocate) hn
  · cases h
  · cases h

theorem within_write (hl : fs.Linkless) (hp : Leads P fs path) (h : fs.write path b = .ok g) : Within P fs g := by
  obtain ⟨names, hlocate, h⟩ := bind_eq_ok.1 h
  have hlocate := (locateFile_eq_ok.1 hlocate).2
  split at h
  · rename_i id hn
    cases h
    exact within_setBytes (hp.lies_of_find hl (find_eq_ok.2 ⟨names, hlocate, hn⟩))
  · cases h
  · rename_i hn
    cases h
    exact within_push hl (hp names hlocate) hn

/-! ## Directories that are made -/

/-- Whether all files are what they were. -/
structure KeepsFiles (fs fs' : Files) : Prop where
  contents : fs'.contents = fs.contents
  file : ∀ names id, fs'.node? names = some (.file id) ↔ fs.node? names = some (.file id)

theorem KeepsFiles.refl (fs : Files) : KeepsFiles fs fs := ⟨rfl, fun _ _ => Iff.rfl⟩

theorem KeepsFiles.trans (h : KeepsFiles fs fs') (h' : KeepsFiles fs' g) : KeepsFiles fs g :=
  ⟨h'.contents.trans h.contents, fun names id => (h'.file names id).trans (h.file names id)⟩

theorem KeepsFiles.linkless (h : KeepsFiles fs fs') (hl : fs.Linkless) : fs'.Linkless where
  stored names id hn := h.contents ▸ hl.stored names id ((h.file names id).1 hn)
  single names names' id hn hn' := hl.single names names' id ((h.file names id).1 hn) ((h.file names' id).1 hn')

theorem KeepsFiles.fileAt?_eq (h : KeepsFiles fs fs') (names : List String) : fs'.fileAt? names = fs.fileAt? names := by
  have hbytes : ∀ id, fs'.bytes id = fs.bytes id := fun id => by rw [Files.bytes, h.contents, Files.bytes]
  rw [fileAt?, fileAt?]
  split
  · rename_i id hn
    rw [(h.file names id).1 hn, hbytes]
  · rename_i hnone
    split
    · rename_i id hn
      exact absurd ((h.file names id).2 hn) (hnone id)
    · rfl

theorem keepsFiles_makeDirectory {start : List String} (h : fs.makeDirectory start names = .ok fs') :
    KeepsFiles fs fs' := by
  obtain ⟨final, -, hn, rfl⟩ := makeDirectory_eq_ok.1 h
  refine ⟨rfl, fun other id => ?_⟩
  have hne : final ≠ [] := ne_nil_of_node? (by rw [hn]; exact nofun)
  rw [node?, node?, Bindings.get?_insert]
  by_cases he : other = final
  · rw [he, if_neg hne, if_neg hne, if_pos rfl, show fs.nodes.get? final = none by rwa [node?, if_neg hne] at hn]
    simp
  · rw [if_neg he]

theorem keepsFiles_ensureDirectory (fs : Files) (start names : List String) :
    KeepsFiles fs (fs.ensureDirectory start names).2 := by
  rw [ensureDirectory]
  split
  · rename_i hm
    exact keepsFiles_makeDirectory hm
  · exact .refl fs

theorem keepsFiles_ensureBelow (start names : List String) {makeAbove : Files → Except Fault Unit × Files}
    (ha : ∀ fs, KeepsFiles fs (makeAbove fs).2) (fs : Files) :
    KeepsFiles fs (fs.ensureBelow start names makeAbove).2 := by
  have hfirst := keepsFiles_ensureDirectory fs start names
  rw [ensureBelow]
  split
  · rename_i fs₁ heq
    rw [heq] at hfirst
    have habove := ha fs₁
    split
    · rename_i fs₂ heq₂
      rw [heq₂] at habove
      exact (hfirst.trans habove).trans (keepsFiles_ensureDirectory fs₂ start names)
    · exact hfirst.trans habove
  · exact hfirst

theorem keepsFiles_makeAll (start : List String) : ∀ (above : List String) (fs : Files),
    KeepsFiles fs (fs.makeAll start above).2
  | [], fs => .refl fs
  | _ :: above, fs => keepsFiles_ensureBelow start _ (keepsFiles_makeAll start above) fs

/-- Making directories changes no file. -/
theorem keepsFiles_makeDirectories (fs : Files) (path : String) : KeepsFiles fs (fs.makeDirectories path).2 := by
  rw [makeDirectories]
  split
  · exact .refl fs
  · split
    · exact .refl fs
    · exact keepsFiles_ensureBelow _ _ (fun g => keepsFiles_makeAll (g.start path) _ g) fs

/-- A file system with nothing in it but directories. -/
theorem linkless_fresh (workDirectory : List String) : (fresh workDirectory).Linkless := by
  refine (keepsFiles_makeAll [] workDirectory.reverse _).linkless ?_
  have hnone : ∀ names id, (⟨.empty, #[], workDirectory⟩ : Files).node? names ≠ some (.file id) := fun names id => by
    rw [node?]
    split <;> simp [Bindings.empty, Bindings.get?]
  exact ⟨fun names id h => absurd h (hnone names id), fun names _ id h => absurd h (hnone names id)⟩

end Rowbase.Files
