import Rowbase.Text.Joining

/-! # Clusters

A cluster is what a reader takes for one character: a letter with its marks, a syllable, a flag or
a family of pictographs. A text is cut into clusters by the rules for extended grapheme clusters of
the Unicode standard: between two characters stands a border unless one of the rules joins them.
The clusters together are the text, so nothing of it is lost (`flatten_clusters`). -/
namespace Rowbase.Text

/-- Whether tied consonants may go on behind these characters, the last first: there is a consonant,
and a linker on the way to it. -/
def endsInTie (before : List Joining) : Bool :=
  (before.takeWhile Joining.isBetweenConsonants).contains .linker &&
    (before.dropWhile Joining.isBetweenConsonants).head? == some .consonant

/-- Whether no border stands between the `last` character of a cluster and the `next`. The
characters of the cluster `before` the last stand in reverse. -/
def joins (last : Joining) (before : List Joining) (next : Joining) : Bool :=
  match last, next with
  | .carriageReturn, .lineFeed => true
  | .carriageReturn, _ | .lineFeed, _ | .control, _ => false
  | _, .carriageReturn | _, .lineFeed | _, .control => false
  | .leading, .leading | .leading, .vowel | .leading, .openSyllable
  | .leading, .closedSyllable => true
  | .openSyllable, .vowel | .openSyllable, .trailing | .vowel, .vowel | .vowel, .trailing => true
  | .closedSyllable, .trailing | .trailing, .trailing => true
  | _, .mark | _, .linker | _, .nonJoiner | _, .joiner | _, .spacing => true
  | .prepended, _ => true
  | last, .consonant => endsInTie (last :: before)
  | .joiner, .pictograph => (before.dropWhile Joining.isMark).head? == some .pictograph
  | .regional, .regional => (before.takeWhile (· == .regional)).length % 2 == 0
  | _, _ => false

/-- The clusters of a text that goes on behind `last`, the last character of a cluster. The
characters of the cluster before it stand in reverse, and how they all join beside them. -/
def clustersFrom (last : Char) (before : List Char) (joining : Joining)
    (joinings : List Joining) : List Char → List (List Char)
  | [] => [(last :: before).reverse]
  | next :: rest =>
    let nextJoining := Joining.ofChar next
    if joins joining joinings nextJoining then
      clustersFrom next (last :: before) nextJoining (joining :: joinings) rest
    else (last :: before).reverse :: clustersFrom next [] nextJoining [] rest

/-- The clusters of a text. -/
def clusters : List Char → List (List Char)
  | [] => []
  | c :: rest => clustersFrom c [] (.ofChar c) [] rest

theorem flatten_clustersFrom (last : Char) (before : List Char) (joining : Joining)
    (joinings : List Joining) (rest : List Char) :
    (clustersFrom last before joining joinings rest).flatten =
      (last :: before).reverse ++ rest := by
  induction rest generalizing last before joining joinings with
  | nil => simp [clustersFrom]
  | cons next rest ih =>
    simp only [clustersFrom]
    split <;> simp [ih]

/-- The clusters of a text, one after the other, are the text. -/
@[simp] theorem flatten_clusters (text : List Char) : (clusters text).flatten = text := by
  cases text with
  | nil => rfl
  | cons c rest => simp [clusters, flatten_clustersFrom]

end Rowbase.Text
