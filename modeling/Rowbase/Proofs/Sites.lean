import Rowbase.Location
import Rowbase.Proofs.Files

/-! # Where the files of a database lie

The names of tables and indices say where their files are looked for. As long as no two of them are
looked for at one place, what happens to one file leaves the others as they are. An index is never
looked for where a table is: the paths of the two end differently. So tables keep their files even
where indices share theirs. -/
namespace Rowbase

/-- What has a file of its own. -/
inductive Site where
  | relation (name : String)
  | index (table name : String)
deriving DecidableEq

/-- Some relations and indices, of which no two relations share a file. -/
structure Sites where
  all : List Site
  /-- Whether no two indices share a file either. -/
  exclusive : Bool

instance : Membership Site Sites := ⟨fun sites s => s ∈ sites.all⟩

instance (s : Site) (sites : Sites) : Decidable (s ∈ sites) := inferInstanceAs (Decidable (s ∈ sites.all))

namespace Sites

/-- Whether a site has its file for itself. -/
def Sole (sites : Sites) : Site → Prop
  | .relation _ => True
  | .index _ _ => sites.exclusive = true

instance (sites : Sites) : DecidablePred sites.Sole
  | .relation _ => inferInstanceAs (Decidable True)
  | .index _ _ => inferInstanceAs (Decidable (sites.exclusive = true))

/-- Whether the file of an index may change: it is one of the sites, if these do not share their files. -/
def Allows (sites : Sites) (t i : String) : Prop := sites.exclusive = true → .index t i ∈ sites

/-- The sites, with no more said of the files of indices. -/
def shared (sites : Sites) : Sites := { sites with exclusive := false }

end Sites

/-- Where the file of a relation or an index is looked for. -/
def Location.pathOf (l : Location) : Site → String
  | .relation name => l.relationPath name
  | .index table name => l.indexPath table name

namespace Files

variable {fs fs' : Files} {path path' : String} {names : List String} {id : Nat} {b : ByteArray}

/-! ## How the place of a file is named -/

theorem splitNames_snoc {c : Char} (hc : c ≠ '/') :
    ∀ text : List Char, ∃ names last, splitNames (text ++ [c]) = names ++ [last ++ [c]]
  | [] => ⟨[], [], by simp [splitNames, hc]⟩
  | d :: text => by
    obtain ⟨names, last, h⟩ := splitNames_snoc hc text
    rw [List.cons_append, splitNames]
    split
    · exact ⟨[] :: names, last, by rw [h]; rfl⟩
    · rw [h]
      cases names with
      | nil => exact ⟨[], d :: last, rfl⟩
      | cons name names => exact ⟨(d :: name) :: names, last, rfl⟩

theorem splitNames_append : ∀ front back : List Char,
    splitNames (front ++ '/' :: back) = splitNames front ++ splitNames back
  | [], back => rfl
  | c :: front, back => by
    have hne : splitNames front ≠ [] := by
      cases front with
      | nil => exact List.cons_ne_nil _ _
      | cons d rest =>
        rw [splitNames]
        split
        · exact List.cons_ne_nil _ _
        · split <;> exact List.cons_ne_nil _ _
    obtain ⟨first, rest, hfront⟩ := List.exists_cons_of_ne_nil hne
    rw [List.cons_append, splitNames, splitNames, splitNames_append front back, hfront]
    split <;> rfl

/-- The way to a place goes through the directory that it lies in. -/
theorem walk_snoc {name : String} {final : List String} : ∀ rest directory : List String,
    fs.walk directory (rest ++ [name]) = .ok final ↔
      ∃ above, fs.walk directory rest = .ok above ∧ fs.node? above = some .directory ∧ step above name = .ok final
  | [], directory => by
    rw [List.nil_append]
    constructor
    · intro h
      rw [walk] at h
      split at h
      · cases h
      · cases h
      · rename_i hd
        obtain ⟨next, hn, h⟩ := bind_eq_ok.1 h
        cases h
        exact ⟨directory, rfl, hd, hn⟩
    · rintro ⟨above, hw, hd, hstep⟩
      cases hw
      rw [walk, hd]
      exact bind_eq_ok.2 ⟨final, hstep, rfl⟩
  | first :: rest, directory => by
    rw [List.cons_append, walk, walk]
    split
    · simp
    · simp
    · simp only [bind_eq_ok, walk_snoc rest]
      constructor
      · rintro ⟨next, hn, above, hw, habove⟩
        exact ⟨above, ⟨next, hn, hw⟩, habove⟩
      · rintro ⟨above, ⟨next, hn, hw⟩, habove⟩
        exact ⟨next, hn, above, hw, habove⟩

/-- A name that is not a special one leads to an entry of the directory. -/
theorem step_eq_ok {directory : List String} {name : String} {c : Char} (hc : name.toList.getLast? = some c)
    (hpoint : c ≠ '.') (h : step directory name = .ok names) : names = directory ++ [name] := by
  have hne : ∀ special : String, special.toList.getLast? ≠ some c → name ≠ special := by
    rintro special hsp rfl
    exact hsp hc
  rw [step, if_neg, if_neg] at h
  · split at h
    · cases h
    · cases h
      rfl
  · exact hne ".." fun h => hpoint (Option.some.inj h).symm
  · rintro (h | h)
    · exact hne "" nofun h
    · exact hne "." (fun h => hpoint (Option.some.inj h).symm) h

/-- A place has the name that the path ends in. -/
theorem getLast?_of_locate {c : Char} (hl : fs.locate path = .ok names)
    (hc : path.toList.getLast? = some c) (hslash : c ≠ '/') (hpoint : c ≠ '.') :
    ∃ name, names.getLast? = some name ∧ name.toList.getLast? = some c := by
  obtain ⟨_, -, hl⟩ := bind_eq_ok.1 hl
  obtain ⟨text, ht⟩ := List.getLast?_eq_some_iff.1 hc
  obtain ⟨above, last, hs⟩ := splitNames_snoc hslash text
  rw [namesOf, ht, hs, List.map_append, List.map_singleton] at hl
  obtain ⟨directory, -, -, hstep⟩ := (walk_snoc _ _).1 hl
  have hlast : (String.ofList (last ++ [c])).toList.getLast? = some c := by
    rw [String.toList_ofList, List.getLast?_concat]
  rw [step_eq_ok hlast hpoint hstep]
  exact ⟨_, List.getLast?_concat, hlast⟩

/-- The path of a file does not end in a slash. -/
theorem endsInSlash_of_find (hf : fs.find path = .ok id) : endsInSlash path = false := by
  rw [endsInSlash, beq_eq_false_iff_ne]
  intro hlast
  obtain ⟨front, hfront⟩ := List.getLast?_eq_some_iff.1 hlast
  obtain ⟨names, hl, hnode⟩ := find_eq_ok.1 hf
  obtain ⟨_, -, hw⟩ := bind_eq_ok.1 hl
  -- the last name is empty, and so leads to the directory in which it is looked for
  have hnames : namesOf path = (splitNames front).map String.ofList ++ [""] := by
    rw [namesOf, hfront, splitNames_append, List.map_append]
    rfl
  rw [hnames] at hw
  obtain ⟨above, -, hd, hstep⟩ := (walk_snoc _ _).1 hw
  rw [step, if_pos (.inl rfl)] at hstep
  cases hstep
  rw [hd] at hnode
  cases hnode

/-- Where a file is there is something already. -/
theorem alreadyExists_of_find (hf : fs.find path = .ok id) : fs.create path = .error .alreadyExists := by
  obtain ⟨names, hl, hnode⟩ := find_eq_ok.1 hf
  have hl := locateFile_eq_ok.2 ⟨endsInSlash_of_find hf, hl⟩
  simp only [create, hl, bind, Except.bind, hnode]

theorem getLast?_joinPath (directory : String) {name : String} {c : Char}
    (h : name.toList.getLast? = some c) : (joinPath directory name).toList.getLast? = some c := by
  rw [joinPath]
  split
  · exact h
  · split <;> simp [List.getLast?_cons, h]

theorem getLast?_relationPath (l : Location) (table : String) :
    (l.relationPath table).toList.getLast? = some 'b' :=
  getLast?_joinPath _ (by simp [toString])

theorem getLast?_indexPath (l : Location) (table index : String) :
    (l.indexPath table index).toList.getLast? = some 'x' :=
  getLast?_joinPath _ (by simp [toString, List.getLast?_cons])

/-- A relation and an index do not lie at one place. -/
theorem locate_relation_ne_index {l : Location} {t table index : String}
    (hr : fs.locate (l.relationPath t) = .ok names) : fs.locate (l.indexPath table index) ≠ .ok names := by
  intro hi
  obtain ⟨name, hn, hb⟩ := getLast?_of_locate hr (getLast?_relationPath l t) (by decide) (by decide)
  obtain ⟨name', hn', hx⟩ :=
    getLast?_of_locate hi (getLast?_indexPath l table index) (by decide) (by decide)
  rw [hn] at hn'
  cases hn'
  rw [hb] at hx
  cases hx

/-! ## Files that lie apart -/

theorem find_congr (hl : fs'.locate path = fs.locate path)
    (hn : ∀ names, fs.locate path = .ok names → fs'.node? names = fs.node? names) :
    fs'.find path = fs.find path := by
  rw [find, find, hl]
  cases h : fs.locate path with
  | error e => rfl
  | ok names =>
    simp only [bind, Except.bind]
    rw [hn names h]

theorem find_of_none (hl : fs.locate path = .ok names) (hd : fs.node? names ≠ some .directory) :
    fs.find path = .error .notFound ∨ ∃ id, fs.find path = .ok id := by
  cases hn : fs.node? names with
  | none => exact .inl (find_of_node? hl hn)
  | some node => cases node with
    | directory => exact absurd hn hd
    | file id => exact .inr ⟨id, find_eq_ok.2 ⟨names, hl, hn⟩⟩

theorem exists?_of_missing (hl : ∃ names, fs.locate path = .ok names ∧ fs.node? names ≠ some .directory)
    (hf : fs.find path = .error .notFound) : fs.exists? path = false := by
  obtain ⟨names, hl, hd⟩ := hl
  rw [exists?, hl]
  dsimp only
  cases hn : fs.node? names with
  | none => rfl
  | some node => cases node with
    | directory => exact absurd hn hd
    | file id =>
      rw [find_eq_ok.2 ⟨names, hl, hn⟩] at hf
      cases hf

/-- Whether some relations and indices can all have files, and no relation shares one. -/
structure Apart (l : Location) (sites : Sites) (fs : Files) : Prop where
  located : ∀ s ∈ sites, ∃ names,
    fs.locateFile (l.pathOf s) = .ok names ∧ fs.node? names ≠ some .directory
  stored : ∀ s ∈ sites, ∀ id, fs.find (l.pathOf s) = .ok id → id < fs.contents.size
  alone : ∀ s ∈ sites, ∀ s' ∈ sites, ∀ id, fs.find (l.pathOf s) = .ok id →
    fs.find (l.pathOf s') = .ok id → fs.locate (l.pathOf s) = fs.locate (l.pathOf s')
  unshared : ∀ s ∈ sites, sites.Sole s → ∀ s' ∈ sites,
    fs.locate (l.pathOf s) = fs.locate (l.pathOf s') → s' = s

theorem Apart.shared (h : Apart l sites fs) : Apart l sites.shared fs where
  located := h.located
  stored := h.stored
  alone := h.alone
  unshared s hs hsole := h.unshared s hs <| match s, hsole with
    | .relation _, _ => trivial
    | .index _ _, hsole => nomatch hsole

/-- Whether nothing but the file at a path became another. -/
structure Beside (l : Location) (sites : Sites) (path : String) (fs fs' : Files) : Prop where
  apart : Apart l sites fs'
  keeps : KeepsDirectories fs fs'
  find : ∀ s ∈ sites, fs.locate (l.pathOf s) ≠ fs.locate path →
    fs'.find (l.pathOf s) = fs.find (l.pathOf s)
  bytes : ∀ s ∈ sites, fs.locate (l.pathOf s) ≠ fs.locate path →
    ∀ id, fs.find (l.pathOf s) = .ok id → fs'.bytes id = fs.bytes id

variable {l : Location} {sites : Sites} {s : Site} {t : String}

theorem Apart.beside_self (h : Apart l sites fs) (path : String) : Beside l sites path fs fs :=
  ⟨h, .refl fs, fun _ _ _ => rfl, fun _ _ _ _ _ => rfl⟩

theorem Apart.locate (h : Apart l sites fs) (hs : s ∈ sites) :
    ∃ names, fs.locate (l.pathOf s) = .ok names ∧ fs.node? names ≠ some .directory := by
  obtain ⟨names, hl, hd⟩ := h.located s hs
  exact ⟨names, (locateFile_eq_ok.1 hl).2, hd⟩

/-- What happens to one file twice happens to it alone. -/
theorem Beside.trans {fs'' : Files} (h : Beside l sites path fs fs')
    (h' : Beside l sites path fs' fs'') (ha : Apart l sites fs) (hl : ∃ names, fs.locate path = .ok names) :
    Beside l sites path fs fs'' := by
  obtain ⟨names, hl⟩ := hl
  have hne : ∀ s ∈ sites, fs.locate (l.pathOf s) ≠ fs.locate path →
      fs'.locate (l.pathOf s) ≠ fs'.locate path := by
    intro s hs hne
    obtain ⟨ns, hns, -⟩ := ha.locate hs
    rwa [locate_of_keeps h.keeps hns, locate_of_keeps h.keeps hl, ← hns, ← hl]
  refine ⟨h'.apart, h.keeps.trans h'.keeps, fun s hs hp => ?_, fun s hs hp id hf => ?_⟩
  · exact (h'.find s hs (hne s hs hp)).trans (h.find s hs hp)
  · exact (h'.bytes s hs (hne s hs hp) id ((h.find s hs hp).trans hf)).trans (h.bytes s hs hp id hf)

/-- The directory of a database stays there. -/
theorem Beside.directory (h : Beside l sites path fs fs') {directory : String}
    (hd : fs.makeDirectories directory = (.ok (), fs)) :
    fs'.makeDirectories directory = (.ok (), fs') := by
  have hmade : (fs.makeDirectories directory).1 = .ok () := by rw [hd]
  refine makeDirectories_of_keeps hmade ?_
  rw [hd]
  exact h.keeps

/-- A file that is not there can be made. -/
theorem Apart.create (h : Apart l sites fs) (hs : s ∈ sites)
    (hf : fs.find (l.pathOf s) = .error .notFound) :
    ∃ id fs', fs.create (l.pathOf s) = .ok (id, fs') := by
  obtain ⟨names, hl, hd⟩ := h.located s hs
  cases hn : fs.node? names with
  | none => exact ⟨_, _, create_eq_ok.2 ⟨names, hl, hn, rfl, rfl⟩⟩
  | some node => cases node with
    | directory => exact absurd hn hd
    | file id =>
      rw [find_eq_ok.2 ⟨names, (locateFile_eq_ok.1 hl).2, hn⟩] at hf
      cases hf

theorem Apart.setBytes (h : Apart l sites fs) (hs : s ∈ sites) (hf : fs.find (l.pathOf s) = .ok id) :
    Beside l sites (l.pathOf s) fs (fs.setBytes id b) where
  apart := by
    refine ⟨fun s' hs' => ?_, fun s' hs' id' => ?_, fun s₁ h₁ s₂ h₂ id' => ?_, fun s₁ h₁ hs₁ s₂ h₂ => ?_⟩
    · obtain ⟨names, hl, hd⟩ := h.located s' hs'
      obtain ⟨hslash, hl⟩ := locateFile_eq_ok.1 hl
      exact ⟨names, locateFile_eq_ok.2 ⟨hslash, (locate_setBytes _).trans hl⟩, hd⟩
    · rw [find_setBytes, size_setBytes]
      exact h.stored s' hs' id'
    · rw [find_setBytes, find_setBytes, locate_setBytes, locate_setBytes]
      exact h.alone s₁ h₁ s₂ h₂ id'
    · rw [locate_setBytes, locate_setBytes]
      exact h.unshared s₁ h₁ hs₁ s₂ h₂
  keeps := keepsDirectories_setBytes
  find _ _ _ := find_setBytes
  bytes s' hs' hne id' hf' := by
    refine bytes_setBytes_of_ne ?_
    rintro rfl
    exact hne (h.alone s' hs' s hs _ hf' hf)

/-- What becomes of files that lie apart when one place changes what it leads to. -/
theorem Apart.replace (h : Apart l sites fs) (hk : KeepsDirectories fs fs')
    (hl : fs.locate path = .ok names)
    (hnode : ∀ other, other ≠ names → fs'.node? other = fs.node? other)
    (hd : fs'.node? names ≠ some .directory) (hsize : fs.contents.size ≤ fs'.contents.size)
    (hid : ∀ id, fs'.node? names = some (.file id) → id = fs.contents.size ∧ id < fs'.contents.size)
    (hbytes : ∀ id, id < fs.contents.size → fs'.bytes id = fs.bytes id) :
    Beside l sites path fs fs' := by
  -- the places themselves stay where they are
  have hloc : ∀ s ∈ sites, fs'.locate (l.pathOf s) = fs.locate (l.pathOf s) := by
    intro s hs
    obtain ⟨ns, hs, -⟩ := h.locate hs
    rw [hs, locate_of_keeps hk hs]
  have hfind : ∀ s ∈ sites, fs.locate (l.pathOf s) ≠ fs.locate path →
      fs'.find (l.pathOf s) = fs.find (l.pathOf s) := by
    intro s hs hne
    refine find_congr (hloc s hs) fun ns hns => hnode ns ?_
    rintro rfl
    exact hne (hns.trans hl.symm)
  -- what lies at the place is a new file, if anything
  have hnew : ∀ s ∈ sites, ∀ id, fs'.find (l.pathOf s) = .ok id →
      (fs.locate (l.pathOf s) = fs.locate path ∧ id = fs.contents.size ∧ id < fs'.contents.size) ∨
        (fs.locate (l.pathOf s) ≠ fs.locate path ∧ fs.find (l.pathOf s) = .ok id) := by
    intro s hs id hf
    by_cases he : fs.locate (l.pathOf s) = fs.locate path
    · obtain ⟨ns, hns, hn⟩ := find_eq_ok.1 hf
      rw [hloc s hs, he, hl] at hns
      cases hns
      exact .inl ⟨he, hid id hn⟩
    · exact .inr ⟨he, (hfind s hs he).symm.trans hf⟩
  refine ⟨⟨fun s hs => ?_, fun s hs id hf => ?_, fun s hs s' hs' id hf hf' => ?_, fun s hs hsole s' hs' he => ?_⟩,
    hk, hfind, fun s hs _ id hf => hbytes id (h.stored s hs id hf)⟩
  · obtain ⟨ns, hns, hns'⟩ := h.located s hs
    obtain ⟨hslash, hns⟩ := locateFile_eq_ok.1 hns
    refine ⟨ns, locateFile_eq_ok.2 ⟨hslash, (hloc s hs).trans hns⟩, ?_⟩
    by_cases he : ns = names
    · exact he ▸ hd
    · rw [hnode ns he]
      exact hns'
  · rcases hnew s hs id hf with ⟨-, -, hlt⟩ | ⟨-, hf⟩
    · exact hlt
    · exact Nat.lt_of_lt_of_le (h.stored s hs id hf) hsize
  · rw [hloc s hs, hloc s' hs']
    rcases hnew s hs id hf with ⟨he, hi, -⟩ | ⟨-, hf⟩ <;>
      rcases hnew s' hs' id hf' with ⟨he', hi', -⟩ | ⟨-, hf'⟩
    · rw [he, he']
    · exact absurd (h.stored s' hs' id hf') (by omega)
    · exact absurd (h.stored s hs id hf) (by omega)
    · exact h.alone s hs s' hs' id hf hf'
  · rw [hloc s hs, hloc s' hs'] at he
    exact h.unshared s hs hsole s' hs' he

theorem Apart.push (h : Apart l sites fs) (hl : fs.locate path = .ok names)
    (hn : fs.node? names = none) : Beside l sites path fs (fs.push names b) := by
  have hne : names ≠ [] := ne_nil_of_node? (by rw [hn]; exact nofun)
  have hself : (fs.push names b).node? names = some (.file fs.contents.size) := by
    rw [node?_push hne, if_pos rfl]
  refine h.replace (keepsDirectories_push hn) hl (fun other ho => ?_) ?_ ?_ (fun id hi => ?_)
    fun id hi => bytes_push_of_lt hi
  · rw [node?_push hne, if_neg ho]
  · rw [hself]
    exact nofun
  · rw [size_push]
    exact Nat.le_succ _
  · rw [hself] at hi
    cases hi
    exact ⟨rfl, by rw [size_push]; exact Nat.lt_succ_self _⟩

theorem remove_eq_ok :
    fs.remove path = .ok fs' ↔ ∃ names id, fs.locate path = .ok names ∧
      fs.node? names = some (.file id) ∧ fs' = { fs with nodes := fs.nodes.erase names } := by
  constructor
  · intro h
    obtain ⟨names, hl, h⟩ := bind_eq_ok.1 h
    split at h
    · rename_i id hn
      cases h
      exact ⟨names, id, hl, hn, rfl⟩
    · cases h
    · cases h
  · rintro ⟨names, id, hl, hn, rfl⟩
    simp only [remove, hl, bind, Except.bind, hn]
    rfl

theorem find_of_removed (hr : fs.remove path = .ok fs') : fs'.find path = .error .notFound := by
  obtain ⟨names, id, hl, hn, rfl⟩ := remove_eq_ok.1 hr
  have hne : names ≠ [] := ne_nil_of_node? (by rw [hn]; exact nofun)
  refine find_of_node? (locate_of_keeps (keepsDirectories_erase hn) hl) ?_
  rw [node?_erase hne, if_pos rfl]

/-- Where nothing can be removed there is no file. -/
theorem find_ne_of_remove {e : Fault} (hr : fs.remove path = .error e) : fs.find path ≠ .ok id := by
  intro hf
  obtain ⟨names, hl, hn⟩ := find_eq_ok.1 hf
  cases hr.symm.trans (remove_eq_ok.2 ⟨names, id, hl, hn, rfl⟩)

/-- Removing a file leaves nothing in its place. -/
theorem Apart.remove (h : Apart l sites fs) (hr : fs.remove path = .ok fs') :
    Beside l sites path fs fs' ∧ fs'.find path = .error .notFound := by
  obtain ⟨names, id, hl, hn, rfl⟩ := remove_eq_ok.1 hr
  have hne : names ≠ [] := ne_nil_of_node? (by rw [hn]; exact nofun)
  have hself : ({ fs with nodes := fs.nodes.erase names } : Files).node? names = none := by
    rw [node?_erase hne, if_pos rfl]
  have hk := keepsDirectories_erase hn
  refine ⟨h.replace hk hl (fun other ho => ?_) ?_ (Nat.le_refl _) (fun id hi => ?_) fun _ _ => rfl,
    find_of_removed hr⟩
  · rw [node?_erase hne, if_neg ho]
  · rw [hself]
    exact nofun
  · rw [hself] at hi
    cases hi

/-- What has a place of its own can be removed if it is there. -/
theorem Apart.remove_error (h : Apart l sites fs) (hs : s ∈ sites) {e : Fault}
    (hr : fs.remove (l.pathOf s) = .error e) : e = .notFound := by
  obtain ⟨names, hl, hd⟩ := h.locate hs
  cases hn : fs.node? names with
  | none =>
    simp only [Files.remove, hl, bind, Except.bind, hn] at hr
    cases hr
    rfl
  | some node => cases node with
    | directory => exact absurd hn hd
    | file id =>
      simp only [Files.remove, hl, bind, Except.bind, hn] at hr
      cases hr

/-- The file of an index can be written, which leaves the others as they are. -/
theorem Apart.write (h : Apart l sites fs) (hs : s ∈ sites) :
    ∃ fs', fs.write (l.pathOf s) b = .ok fs' ∧ Beside l sites (l.pathOf s) fs fs' := by
  obtain ⟨names, hl, hd⟩ := h.located s hs
  have hl' := (locateFile_eq_ok.1 hl).2
  cases hn : fs.node? names with
  | none =>
    refine ⟨fs.push names b, ?_, h.push hl' hn⟩
    simp only [Files.write, hl, bind, Except.bind, hn]
    rfl
  | some node => cases node with
    | directory => exact absurd hn hd
    | file id =>
      refine ⟨fs.setBytes id b, ?_, h.setBytes hs (find_eq_ok.2 ⟨names, hl', hn⟩)⟩
      simp only [Files.write, hl, bind, Except.bind, hn]
      rfl

/-! ## What is read back -/

/-- What was written is read. -/
theorem Apart.read_write (h : Apart l sites fs) (hs : s ∈ sites) (hw : fs.write (l.pathOf s) b = .ok fs') :
    fs'.read (l.pathOf s) = .ok b := Files.read_write (h.stored s hs) hw

/-- The other files are read as before. -/
theorem Beside.read (h : Beside l sites path fs fs') (hs : s ∈ sites)
    (hne : fs.locate (l.pathOf s) ≠ fs.locate path) : fs'.read (l.pathOf s) = fs.read (l.pathOf s) := by
  rw [Files.read, Files.read, h.find s hs hne]
  cases hf : fs.find (l.pathOf s) with
  | error e => rfl
  | ok id => exact congrArg Except.ok (h.bytes s hs hne id hf)

/-- What is not there to be removed is not there. -/
theorem find_of_remove (hr : fs.remove path = .error .notFound) : fs.find path = .error .notFound := by
  cases hl : fs.locate path with
  | error e =>
    rw [remove, hl] at hr
    cases hr
    rw [find, hl]
    rfl
  | ok names =>
    cases hn : fs.node? names with
    | none => exact find_of_node? hl hn
    | some node => cases node <;> simp only [remove, hl, bind, Except.bind, hn] at hr <;> cases hr

/-- A file that is there can be read. -/
theorem find_of_read (h : fs.read path = .ok b) : ∃ id, fs.find path = .ok id := by
  obtain ⟨id, hf, -⟩ := bind_eq_ok.1 h
  exact ⟨id, hf⟩

end Files

end Rowbase
