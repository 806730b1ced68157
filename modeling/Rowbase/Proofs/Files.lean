import Rowbase.Proofs.Walks
import Rowbase.Files.Basic

/-! # What requests do to a file system

Where a path leads depends on the directories alone. A file that is made, written or removed
therefore leaves every other path where it was, and the bytes behind it as they were. -/
namespace Rowbase.Files

variable {fs fs' : Files} {path : String} {names : List String} {id : Nat} {b : ByteArray}

/-! ## Nodes and bytes -/

@[simp] theorem node?_setBytes (names : List String) : (fs.setBytes id b).node? names = fs.node? names :=
  rfl

@[simp] theorem size_setBytes : (fs.setBytes id b).contents.size = fs.contents.size :=
  Array.size_setIfInBounds

theorem bytes_setBytes_self (h : id < fs.contents.size) : (fs.setBytes id b).bytes id = b := by
  simp [bytes, setBytes, h]

theorem bytes_setBytes_of_ne {other : Nat} (h : other ≠ id) :
    (fs.setBytes id b).bytes other = fs.bytes other := by
  simp [bytes, setBytes, Array.getElem?_setIfInBounds_ne h.symm]

theorem setBytes_setBytes (b' : ByteArray) : (fs.setBytes id b).setBytes id b' = fs.setBytes id b' := by
  simp [setBytes]

@[simp] theorem size_push : (fs.push names b).contents.size = fs.contents.size + 1 := Array.size_push _

theorem bytes_push_self : (fs.push names b).bytes fs.contents.size = b := by
  simp [bytes, push]

theorem bytes_push_of_lt (h : id < fs.contents.size) : (fs.push names b).bytes id = fs.bytes id := by
  simp [bytes, push, Array.getElem?_push, Nat.ne_of_lt h]

theorem ne_nil_of_node? (h : fs.node? names ≠ some .directory) : names ≠ [] := by
  rintro rfl
  exact h rfl

theorem node?_push (hn : names ≠ []) (other : List String) :
    (fs.push names b).node? other = if other = names then some (.file fs.contents.size) else fs.node? other := by
  rw [node?, node?, push, Bindings.get?_insert]
  split
  · rename_i he
    rw [he, if_neg hn.symm]
  · rfl

theorem node?_erase (hn : names ≠ []) (other : List String) :
    ({ fs with nodes := fs.nodes.erase names } : Files).node? other =
      if other = names then none else fs.node? other := by
  rw [node?, node?, Bindings.get?_erase]
  split
  · rename_i he
    rw [he, if_neg hn.symm]
  · rfl

/-! ## Walking -/

/-- Whether all directories are still there, and paths start where they did. -/
structure KeepsDirectories (fs fs' : Files) : Prop where
  workDirectory : fs'.workDirectory = fs.workDirectory
  directory : ∀ names, fs.node? names = some .directory → fs'.node? names = some .directory

theorem KeepsDirectories.refl (fs : Files) : KeepsDirectories fs fs := ⟨rfl, fun _ h => h⟩

theorem KeepsDirectories.trans {fs'' : Files} (h : KeepsDirectories fs fs')
    (h' : KeepsDirectories fs' fs'') : KeepsDirectories fs fs'' :=
  ⟨h'.workDirectory.trans h.workDirectory, fun names hn => h'.directory names (h.directory names hn)⟩

theorem keepsDirectories_setBytes : KeepsDirectories fs (fs.setBytes id b) := ⟨rfl, fun _ h => h⟩

theorem keepsDirectories_push (h : fs.node? names = none) : KeepsDirectories fs (fs.push names b) := by
  refine ⟨rfl, fun other ho => ?_⟩
  rw [node?_push (ne_nil_of_node? (by rw [h]; exact nofun)), if_neg]
  · exact ho
  · rintro rfl
    rw [h] at ho
    cases ho

theorem keepsDirectories_erase (h : fs.node? names = some (.file id)) :
    KeepsDirectories fs { fs with nodes := fs.nodes.erase names } := by
  refine ⟨rfl, fun other ho => ?_⟩
  rw [node?_erase (ne_nil_of_node? (by rw [h]; exact nofun)), if_neg]
  · exact ho
  · rintro rfl
    rw [h] at ho
    cases ho

theorem walk_of_keeps (hk : KeepsDirectories fs fs') {final : List String} :
    ∀ (rest directory : List String), fs.walk directory rest = .ok final →
      fs'.walk directory rest = .ok final
  | [], _, h => h
  | name :: rest, directory, h => by
    rw [walk] at h ⊢
    split at h
    · cases h
    · cases h
    · rename_i hd
      obtain ⟨next, hn, h⟩ := bind_eq_ok.1 h
      rw [hk.directory _ hd]
      change (step directory name >>= fun next => fs'.walk next rest) = _
      rw [hn]
      exact walk_of_keeps hk rest next h

/-- A path leads to the same place as long as the directories stay. -/
theorem locate_of_keeps (hk : KeepsDirectories fs fs') (h : fs.locate path = .ok names) :
    fs'.locate path = .ok names := by
  obtain ⟨_, hc, h⟩ := bind_eq_ok.1 h
  rw [locate, hc]
  have hs : fs'.start path = fs.start path := by rw [start, start, hk.workDirectory]
  rw [hs]
  exact walk_of_keeps hk _ _ h

theorem locateFile_eq_ok :
    fs.locateFile path = .ok names ↔ endsInSlash path = false ∧ fs.locate path = .ok names := by
  rw [locateFile]
  cases endsInSlash path with
  | true =>
    refine iff_of_false (fun h => ?_) (fun h => nomatch h.1)
    obtain ⟨_, _, h⟩ := bind_eq_ok.1 h
    obtain ⟨_, _, h⟩ := bind_eq_ok.1 h
    cases h
  | false => exact (and_iff_right rfl).symm

/-! ## Requests at a path -/

theorem find_eq_ok :
    fs.find path = .ok id ↔ ∃ names, fs.locate path = .ok names ∧ fs.node? names = some (.file id) := by
  constructor
  · intro h
    obtain ⟨names, hl, h⟩ := bind_eq_ok.1 h
    refine ⟨names, hl, ?_⟩
    split at h
    · rename_i hn
      cases h
      exact hn
    · cases h
    · cases h
  · rintro ⟨names, hl, hn⟩
    simp only [find, hl, bind, Except.bind, hn]
    rfl

theorem find_of_node? (hl : fs.locate path = .ok names) (hn : fs.node? names = none) :
    fs.find path = .error .notFound := by
  simp only [find, hl, bind, Except.bind, hn]

/-- A file is made where the path leads to nothing. -/
theorem create_eq_ok :
    fs.create path = .ok (id, fs') ↔ ∃ names, fs.locateFile path = .ok names ∧
      fs.node? names = none ∧ id = fs.contents.size ∧ fs' = fs.push names .empty := by
  constructor
  · intro h
    obtain ⟨names, hl, h⟩ := bind_eq_ok.1 h
    refine ⟨names, hl, ?_⟩
    split at h
    · cases h
    · rename_i hn
      cases h
      exact ⟨hn, rfl, rfl⟩
  · rintro ⟨names, hl, hn, rfl, rfl⟩
    simp only [create, hl, bind, Except.bind, hn]
    rfl

theorem find_push (hl : fs.locate path = .ok names) (hn : fs.node? names = none) :
    (fs.push names b).find path = .ok fs.contents.size := by
  refine find_eq_ok.2 ⟨names, locate_of_keeps (keepsDirectories_push hn) hl, ?_⟩
  rw [node?_push (ne_nil_of_node? (by rw [hn]; exact nofun)), if_pos rfl]

/-- Whether two states differ in no more than the bytes of files. -/
structure SameTree (fs fs' : Files) : Prop where
  nodes : fs'.nodes = fs.nodes
  workDirectory : fs'.workDirectory = fs.workDirectory

theorem SameTree.refl (fs : Files) : SameTree fs fs := ⟨rfl, rfl⟩

theorem SameTree.trans {fs'' : Files} (h : SameTree fs fs') (h' : SameTree fs' fs'') : SameTree fs fs'' :=
  ⟨h'.nodes.trans h.nodes, h'.workDirectory.trans h.workDirectory⟩

theorem sameTree_setBytes : SameTree fs (fs.setBytes id b) := ⟨rfl, rfl⟩

theorem SameTree.node? (h : SameTree fs fs') (names : List String) : fs'.node? names = fs.node? names := by
  rw [Files.node?, Files.node?, h.nodes]

theorem SameTree.walk (h : SameTree fs fs') : ∀ (rest directory : List String),
    fs'.walk directory rest = fs.walk directory rest
  | [], _ => rfl
  | name :: rest, directory => by
    rw [Files.walk, Files.walk, h.node?]
    congr
    funext
    congr
    funext next
    exact h.walk rest next

theorem SameTree.locate (h : SameTree fs fs') (path : String) : fs'.locate path = fs.locate path := by
  rw [Files.locate, Files.locate, start, start, h.workDirectory]
  congr 1
  funext _
  exact h.walk _ _

theorem SameTree.exists? (h : SameTree fs fs') (path : String) : fs'.exists? path = fs.exists? path := by
  rw [Files.exists?, Files.exists?, h.locate]
  simp only [h.node?]

/-- What cannot be removed does not depend on the bytes of files. -/
theorem SameTree.remove_eq_error (h : SameTree fs fs') {e : Fault} :
    fs'.remove path = .error e ↔ fs.remove path = .error e := by
  rw [remove, remove, h.locate]
  cases fs.locate path with
  | error e' => rfl
  | ok names =>
    simp only [bind, Except.bind, h.node?]
    cases fs.node? names with
    | none => rfl
    | some node => cases node with
      | directory => rfl
      | file id => exact iff_of_false nofun nofun

theorem locate_setBytes (path : String) : (fs.setBytes id b).locate path = fs.locate path :=
  sameTree_setBytes.locate path

theorem find_setBytes : (fs.setBytes id b).find path = fs.find path := by
  rw [find, find, locate_setBytes]
  rfl

/-- What was written is read, as long as a file that was there has bytes. -/
theorem read_write (hstored : ∀ id, fs.find path = .ok id → id < fs.contents.size) (hw : fs.write path b = .ok fs') :
    fs'.read path = .ok b := by
  obtain ⟨names, hl, hw⟩ := bind_eq_ok.1 hw
  have hl := (locateFile_eq_ok.1 hl).2
  cases hn : fs.node? names with
  | none =>
    rw [hn] at hw
    cases hw
    rw [read, find_push hl hn]
    exact congrArg Except.ok bytes_push_self
  | some node => cases node with
    | directory =>
      rw [hn] at hw
      cases hw
    | file id =>
      rw [hn] at hw
      cases hw
      have hf := find_eq_ok.2 ⟨names, hl, hn⟩
      rw [read, find_setBytes, hf]
      exact congrArg Except.ok (bytes_setBytes_self (hstored id hf))

theorem exists?_of_find (h : fs.find path = .ok id) : fs.exists? path = true := by
  obtain ⟨names, hl, hn⟩ := find_eq_ok.1 h
  rw [exists?, hl]
  dsimp only
  rw [hn]
  rfl

/-! ## Directories that are made

Making directories keeps those that are there, and what was made once is found when it is asked for again. -/

theorem isDirectory_iff {start : List String} :
    fs.isDirectory start names = true ↔
      ∃ final, fs.walk start names = .ok final ∧ fs.node? final = some .directory := by
  rw [isDirectory]
  cases fs.walk start names with
  | error e => simp
  | ok final => simp

theorem isDirectory_of_keeps {start : List String} (hk : KeepsDirectories fs fs')
    (h : fs.isDirectory start names = true) : fs'.isDirectory start names = true := by
  obtain ⟨final, hw, hd⟩ := isDirectory_iff.1 h
  exact isDirectory_iff.2 ⟨final, walk_of_keeps hk names start hw, hk.directory final hd⟩

theorem makeDirectory_eq_ok {start : List String} : fs.makeDirectory start names = .ok fs' ↔
    ∃ final, fs.walk start names = .ok final ∧ fs.node? final = none ∧
      fs' = { fs with nodes := fs.nodes.insert final .directory } := by
  constructor
  · intro h
    obtain ⟨final, hw, h⟩ := bind_eq_ok.1 h
    cases hn : fs.node? final with
    | none =>
      rw [hn] at h
      cases h
      exact ⟨final, hw, hn, rfl⟩
    | some node =>
      rw [hn] at h
      cases h
  · rintro ⟨final, hw, hn, rfl⟩
    simp only [makeDirectory, hw, bind, Except.bind, hn]
    rfl

theorem keepsDirectories_makeDirectory {start : List String} (h : fs.makeDirectory start names = .ok fs') :
    KeepsDirectories fs fs' ∧ fs'.isDirectory start names = true := by
  obtain ⟨final, hw, hn, rfl⟩ := makeDirectory_eq_ok.1 h
  have hnode : ∀ other, ({ fs with nodes := fs.nodes.insert final .directory } : Files).node? other =
      if other = final then some .directory else fs.node? other := by
    intro other
    have hne : final ≠ [] := ne_nil_of_node? (by rw [hn]; exact nofun)
    rw [node?, node?, Bindings.get?_insert]
    by_cases he : other = final
    · rw [if_pos he, if_pos he, he, if_neg hne]
    · rw [if_neg he, if_neg he]
  have hk : KeepsDirectories fs { fs with nodes := fs.nodes.insert final .directory } := by
    refine ⟨rfl, fun other ho => ?_⟩
    rw [hnode]
    split
    · rfl
    · exact ho
  exact ⟨hk, isDirectory_iff.2 ⟨final, walk_of_keeps hk _ _ hw, (hnode final).trans (if_pos rfl)⟩⟩

/-- Whether a way to make a directory keeps all others, and finds the directory afterwards if it succeeds. -/
def MakesDirectory (fs : Files) (start names : List String) (made : Except Fault Unit × Files) : Prop :=
  KeepsDirectories fs made.2 ∧ (made.1 = .ok () → made.2.isDirectory start names = true)

theorem ensureDirectory_makes (fs : Files) (start names : List String) :
    MakesDirectory fs start names (fs.ensureDirectory start names) := by
  rw [ensureDirectory]
  cases hm : fs.makeDirectory start names with
  | ok fs' =>
    obtain ⟨hk, hd⟩ := keepsDirectories_makeDirectory hm
    exact ⟨hk, fun _ => hd⟩
  | error e =>
    refine ⟨.refl fs, fun h => ?_⟩
    dsimp only at h
    split at h
    · assumption
    · cases h

theorem ensureBelow_makes (start names : List String) {makeAbove : Files → Except Fault Unit × Files}
    (ha : ∀ fs, KeepsDirectories fs (makeAbove fs).2) (fs : Files) :
    MakesDirectory fs start names (fs.ensureBelow start names makeAbove) := by
  have hfirst := ensureDirectory_makes fs start names
  rw [ensureBelow]
  split
  · rename_i fs₁ heq
    rw [heq] at hfirst
    have habove := ha fs₁
    split
    · rename_i fs₂ heq₂
      rw [heq₂] at habove
      obtain ⟨hk, hd⟩ := ensureDirectory_makes fs₂ start names
      exact ⟨(hfirst.1.trans habove).trans hk, hd⟩
    · rename_i failed hfailed
      refine ⟨hfirst.1.trans habove, fun hok => absurd ?_ (hfailed (makeAbove fs₁).2)⟩
      rw [← hok]
  · exact hfirst

theorem keepsDirectories_makeAll (start : List String) : ∀ (above : List String) (fs : Files),
    KeepsDirectories fs (fs.makeAll start above).2
  | [], fs => .refl fs
  | _ :: above, fs => (ensureBelow_makes start _ (keepsDirectories_makeAll start above) fs).1

theorem makeAll_makes (fs : Files) (path : String) (names above : List String) :
    MakesDirectory fs (fs.start path) names
      (fs.ensureBelow (fs.start path) names fun fs => fs.makeAll (fs.start path) above) :=
  ensureBelow_makes _ names (fun fs => keepsDirectories_makeAll (fs.start path) above fs) fs

/-- A directory that is there does not have to be made. -/
theorem ensureBelow_of_isDirectory {start : List String} (h : fs.isDirectory start names = true)
    (makeAbove : Files → Except Fault Unit × Files) : fs.ensureBelow start names makeAbove = (.ok (), fs) := by
  obtain ⟨final, hw, hd⟩ := isDirectory_iff.1 h
  have hensure : fs.ensureDirectory start names = (.ok (), fs) := by
    have hm : fs.makeDirectory start names = .error .alreadyExists := by
      simp only [makeDirectory, hw, bind, Except.bind, hd]
    rw [ensureDirectory, hm]
    dsimp only
    rw [if_pos h]
  rw [ensureBelow, hensure]

theorem keepsDirectories_makeDirectories (fs : Files) (path : String) :
    KeepsDirectories fs (fs.makeDirectories path).2 := by
  rw [makeDirectories]
  split
  · exact .refl fs
  · split
    · exact .refl fs
    · exact (makeAll_makes ..).1

/-- What was made once is there as long as the directories stay. -/
theorem makeDirectories_of_keeps (h : (fs.makeDirectories path).1 = .ok ())
    (hk : KeepsDirectories (fs.makeDirectories path).2 fs') : fs'.makeDirectories path = (.ok (), fs') := by
  have hstart : fs'.start path = fs.start path := by
    rw [start, start, hk.workDirectory, (keepsDirectories_makeDirectories fs path).workDirectory]
  rw [makeDirectories] at h hk ⊢
  split
  · rfl
  · rename_i hpath
    rw [if_neg hpath] at h hk
    cases hc : check path with
    | error e =>
      rw [hc] at h
      cases h
    | ok _ =>
      rw [hc] at h hk
      dsimp only at h hk ⊢
      rw [hstart]
      exact ensureBelow_of_isDirectory (isDirectory_of_keeps hk ((makeAll_makes ..).2 h)) _

end Rowbase.Files
