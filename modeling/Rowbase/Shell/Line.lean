import Rowbase.Text.Cluster

/-! # Lines as they were typed

A line may hold backspaces. A backspace takes back the cluster before it, if there is one, and is
not part of the line. A line without backspaces is meant as it stands (`meant?_of_not_mem`). -/
namespace Rowbase.Shell

/-- The character that takes back what was typed before it. -/
def backspace : Char := '\x08'

/-- What has been typed of a line, and the sizes in bytes of the clusters that can be taken back,
each with the last first. A size is a byte itself, so whole multiples of 256 do not count. -/
structure Typed where
  chars : List Char := []
  sizes : List UInt8 := []

/-- The characters without those that fill the first bytes; none if that would split a character. -/
def dropBytes : (count : Nat) → List Char → Option (List Char)
  | 0, cs => some cs
  | _, [] => none
  | count, c :: cs => if c.utf8Size ≤ count then dropBytes (count - c.utf8Size) cs else none

/-- Puts a cluster at the end. -/
def Typed.put (t : Typed) (cluster : List Char) : Typed where
  chars := cluster.reverse ++ t.chars
  sizes := (String.ofList cluster).utf8ByteSize.toUInt8 :: t.sizes

/-- Takes back the last cluster, if there is one; none if that would split a character. -/
def Typed.takeBack (t : Typed) : Option Typed :=
  match t.sizes with
  | [] => some t
  | size :: sizes => do return ⟨← dropBytes size.toNat t.chars, sizes⟩

/-- Takes a cluster as it was typed. -/
def Typed.type (t : Typed) (cluster : List Char) : Option Typed :=
  if cluster = [backspace] then t.takeBack else some (t.put cluster)

/-- The line as it was meant; none if it cannot be told. -/
def meant? (line : String) : Option String :=
  if backspace ∈ line.toList then do
    let t ← (Text.clusters line.toList).foldlM Typed.type {}
    return .ofList t.chars.reverse
  else some line

/-- A line without backspaces is meant as it stands. -/
theorem meant?_of_not_mem {line : String} (h : backspace ∉ line.toList) :
    meant? line = some line := by
  simp [meant?, h]

end Rowbase.Shell
