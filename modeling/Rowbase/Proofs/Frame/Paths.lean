import Rowbase.Proofs.Frame.Files
import Rowbase.Proofs.Sites

/-! # Entries of the directory of a database

A name without a slash names an entry of a directory. So the files of tables and indices with such names lie directly in
the directory of the database, and those of different tables are different. -/
namespace Rowbase

namespace Files

variable {fs fs' : Files} {directory name path : String} {names above : List String}

/-- Whether a name has no slash in it. -/
def Slashless (name : String) : Prop := '/' ∉ name.toList

instance : DecidablePred Slashless := fun name => inferInstanceAs (Decidable ('/' ∉ name.toList))

theorem Slashless.append {back : String} (h : Slashless name) (hb : Slashless back) : Slashless (name ++ back) := by
  rw [Slashless, String.toList_append, List.mem_append, not_or]
  exact ⟨h, hb⟩

/-! ## The names on a path -/

theorem namesOf_append (front back : String) : namesOf (front ++ "/" ++ back) = namesOf front ++ namesOf back := by
  have hchars : (front ++ "/" ++ back).toList = front.toList ++ '/' :: back.toList := by simp
  rw [namesOf, hchars, splitNames_append, List.map_append]
  rfl

theorem namesOf_slashless (h : Slashless name) : namesOf name = [name] := by
  rw [namesOf, splitNames_of_not_mem h, List.map_singleton, String.ofList_toList]

theorem start_append {front : String} (h : front ≠ "") (back : String) : fs.start (front ++ back) = fs.start front := by
  have habsolute : isAbsolute (front ++ back) = isAbsolute front := by
    have hne : front.toList ≠ [] := fun hnil => h (String.toList_eq_nil_iff.1 hnil)
    obtain ⟨c, rest, hfront⟩ := List.exists_cons_of_ne_nil hne
    rw [Bool.eq_iff_iff, isAbsolute, isAbsolute, String.startsWith_string_iff, String.startsWith_string_iff,
      String.toList_append, hfront]
    simp
  rw [start, start, habsolute]

/-! ## Joined paths -/

/-- Whether some names lead to the directory at a path. -/
def Leading (fs : Files) (path : String) (names : List String) : Prop :=
  fs.walk (fs.start path) (namesOf path) = .ok names

/-- A name without a slash is looked for in the directory. -/
theorem leading_of_locate (h : Slashless name) (hl : fs.locate (joinPath directory name) = .ok names) :
    ∃ above, fs.Leading directory above ∧ step above name = .ok names := by
  have hrelative : isAbsolute name = false := by
    rw [isAbsolute, Bool.eq_false_iff, ne_eq, String.startsWith_string_iff]
    intro hslash
    exact h (hslash.subset (.head _))
  obtain ⟨_, -, hl⟩ := bind_eq_ok.1 hl
  rw [joinPath, show name.startsWith "/" = false from hrelative, if_neg (by decide)] at hl
  by_cases hempty : directory = ""
  · -- the empty path is that of the directory where paths start
    subst hempty
    rw [if_pos (by rfl), String.empty_append, start, hrelative, namesOf_slashless h, ← List.nil_append [name]] at hl
    obtain ⟨above, hw, hd, hstep⟩ := (walk_snoc _ _).1 hl
    exact ⟨above, (walk_snoc [] _).2 ⟨above, hw, hd, rfl⟩, hstep⟩
  split at hl
  · rename_i hends
    rw [start_append hempty] at hl
    obtain ⟨front, rfl⟩ : ∃ front, directory = front ++ "/" := by
      rw [(String.isEmpty_eq_false_iff).2 hempty, Bool.false_or, String.endsWith_eq_endsWith_toSlice,
        String.Slice.endsWith_string_iff, String.copy_toSlice] at hends
      obtain ⟨front, hfront⟩ := hends
      exact ⟨String.ofList front, String.toList_inj.1 (by simp [← hfront])⟩
    rw [namesOf_append, namesOf_slashless h] at hl
    obtain ⟨above, hw, hd, hstep⟩ := (walk_snoc _ _).1 hl
    refine ⟨above, ?_, hstep⟩
    rw [Leading, ← String.append_empty (s := front ++ "/"), namesOf_append, String.append_empty]
    exact (walk_snoc _ _).2 ⟨above, hw, hd, rfl⟩
  · rw [String.append_assoc, start_append hempty, ← String.append_assoc, namesOf_append, namesOf_slashless h] at hl
    obtain ⟨above, hw, -, hstep⟩ := (walk_snoc _ _).1 hl
    exact ⟨above, hw, hstep⟩

theorem Leading.unique (h : fs.Leading path names) (h' : fs.Leading path above) : above = names := by
  cases h.symm.trans h'
  rfl

theorem Within.leading_iff {P : List String → Prop} (h : Within P fs fs') :
    fs'.Leading path names ↔ fs.Leading path names := by
  have hstart : fs'.start path = fs.start path := by rw [start, start, h.workDirectory]
  rw [Leading, Leading, hstart]
  exact ⟨walk_of_keeps ⟨h.workDirectory.symm, fun names => (h.directory names).1⟩ _ _, walk_of_keeps h.keeps _ _⟩

end Files

/-! ## The files of tables and indices -/

/-- Whether all names of a table or an index are such. -/
def Site.Named (N : String → Prop) : Site → Prop
  | .relation t => N t
  | .index t i => N t ∧ N i

/-- The name of the file of a table or an index. -/
def Site.entry : Site → String
  | .relation t => t ++ ".db"
  | .index t i => t ++ "-" ++ i ++ ".idx"

/-- Whether names lead to an entry of the directory of a database. -/
def Location.Houses (l : Location) (fs : Files) (names : List String) : Prop :=
  ∃ directory entry, fs.Leading l.directory directory ∧ names = directory ++ [entry]

namespace Files

variable {l : Location} {fs fs' : Files} {names : List String} {s : Site} {t t' : String}

theorem place_of_locate (hs : s.Named Slashless) (hl : fs.locate (l.pathOf s) = .ok names) :
    ∃ directory, fs.Leading l.directory directory ∧ names = directory ++ [s.entry] := by
  cases s with
  | relation t =>
    have hentry : Slashless (t ++ ".db") := hs.append (by decide)
    obtain ⟨directory, hdirectory, hstep⟩ := leading_of_locate hentry hl
    have hlast : (t ++ ".db").toList.getLast? = some 'b' := by simp
    exact ⟨directory, hdirectory, step_eq_ok hlast (by decide) hstep⟩
  | index t i =>
    have hentry : Slashless (t ++ "-" ++ i ++ ".idx") :=
      ((hs.1.append (by decide)).append hs.2).append (by decide)
    obtain ⟨directory, hdirectory, hstep⟩ := leading_of_locate hentry hl
    have hlast : (t ++ "-" ++ i ++ ".idx").toList.getLast? = some 'x' := by simp [List.getLast?_cons]
    exact ⟨directory, hdirectory, step_eq_ok hlast (by decide) hstep⟩

/-- Tables and indices with such names lie in the directory of the database. -/
theorem leads_houses (hs : s.Named Slashless) : Leads (l.Houses fs) fs (l.pathOf s) := fun names hl => by
  obtain ⟨directory, hdirectory, hnames⟩ := place_of_locate hs hl
  exact ⟨directory, s.entry, hdirectory, hnames⟩

/-- Different tables with such names do not lie at one place. -/
theorem eq_of_locate (ht : Slashless t) (ht' : Slashless t') (hl : fs.locate (l.relationPath t) = .ok names)
    (hl' : fs.locate (l.relationPath t') = .ok names) : t' = t := by
  obtain ⟨directory, hd, hnames⟩ := place_of_locate (s := .relation t) ht hl
  obtain ⟨directory', hd', hnames'⟩ := place_of_locate (s := .relation t') ht' hl'
  cases hd.unique hd'
  rw [hnames, List.append_cancel_left_eq, List.cons.injEq] at hnames'
  exact (String.append_left_inj ".db").1 hnames'.1.symm

theorem Within.houses_iff {P : List String → Prop} (h : Within P fs fs') : l.Houses fs' names ↔ l.Houses fs names :=
  exists_congr fun _ => exists_congr fun _ => and_congr_left fun _ => h.leading_iff

end Files

end Rowbase
