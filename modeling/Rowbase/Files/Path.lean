/-! # Paths

A path is a text; the names on it stand between its slashes. -/
namespace Rowbase.Files

/-- The texts between the slashes of a text. -/
def splitNames : List Char → List (List Char)
  | [] => [[]]
  | c :: rest =>
    if c = '/' then [] :: splitNames rest
    else match splitNames rest with
      | [] => [[c]]
      | name :: names => (c :: name) :: names

/-- The names on a path. An absolute path starts with an empty name. -/
def namesOf (path : String) : List String := (splitNames path.toList).map String.ofList

/-- The names on a path that lead elsewhere. No name, and a point, stay where they are. -/
def stepsOf (path : String) : List String :=
  (namesOf path).filter fun name => name ≠ "" ∧ name ≠ "."

/-- Whether a path starts at the root. -/
def isAbsolute (path : String) : Bool := path.startsWith "/"

/-- Whether a path ends in a slash, as only the path of a directory can. -/
def endsInSlash (path : String) : Bool := path.toList.getLast? == some '/'

/-- Whether a path ends in a slash is decided by the last text of which it is put together. -/
theorem endsInSlash_append (front : String) {back : String} (h : back ≠ "") :
    endsInSlash (front ++ back) = endsInSlash back := by
  have hlast := List.getLast?_eq_some_getLast (l := back.toList) (by simpa using h)
  simp [endsInSlash, hlast]

theorem splitNames_of_not_mem {name : List Char} (h : '/' ∉ name) : splitNames name = [name] := by
  induction name with
  | nil => rfl
  | cons c rest ih =>
    simp only [List.mem_cons, not_or] at h
    simp [splitNames, ih h.2, Ne.symm h.1]

end Rowbase.Files
