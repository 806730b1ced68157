import Rowbase.Files.Basic
import Rowbase.Heap.Page

/-! # Files of blocks

A relation has a file of its own, which is a row of blocks numbered from 1. How many blocks there
are is counted when the file is opened and kept up to date from then on. Files are taken to be
shorter than 2^32 blocks, so the numbers of blocks have no bound here. -/
namespace Rowbase.Heap

/-- A file of blocks, open or not. -/
structure BlockFile where
  /-- The relation that lies in the file. -/
  relation : String
  path : String
  /-- The number under which the file is open. -/
  file : Option Nat := none
  /-- The number of the last block. -/
  last : Nat := 0
deriving DecidableEq

namespace BlockFile

/-- Whether the file is there. -/
def exists? (b : BlockFile) (fs : Files) : Bool := fs.exists? b.path

/-- Whether the file is open. -/
def isOpen (b : BlockFile) : Bool := b.file.isSome

/-- The numbers of all blocks. -/
def blocks (b : BlockFile) : List Nat := List.range' 1 b.last

/-- Where a block starts in the file. -/
def offset (block : Nat) : Nat := (block - 1) * blockSize

/-- The number of the open file. -/
def openFile (b : BlockFile) : Except StorageError Nat :=
  match b.file with
  | some id => .ok id
  | none => .error (.relation (.notOpen b.relation))

/-- Reads a block. -/
def get (b : BlockFile) (fs : Files) (block : Nat) : Except StorageError Page := do
  if block = 0 ∨ b.last < block then .error (.relation (.blockOutOfRange block b.relation))
  else
    let bytes ← (fs.readAt (← b.openFile) (offset block) blockSize).mapError .file
    return .ofBytes block bytes

/-- Writes a block where it belongs. -/
def put (b : BlockFile) (fs : Files) (p : Page) : Except StorageError Files := do
  return fs.writeAt (← b.openFile) (offset p.block) p.bytes

/-- Adds a blank block at the end. -/
def grow (b : BlockFile) (fs : Files) : Except StorageError (Page × BlockFile × Files) := do
  let p := Page.blank (b.last + 1)
  let fs ← b.put fs p
  return (p, { b with last := b.last + 1 }, fs)

/-- Makes the file, with one blank block. -/
def create (b : BlockFile) (fs : Files) : Except StorageError (BlockFile × Files) :=
  match fs.create b.path with
  | .error .alreadyExists => .error (.relation (.relationExists b.relation))
  | .error e => .error (.file e)
  | .ok (id, fs) => do
    let (_, b, fs) ← grow { b with file := some id, last := 0 } fs
    return (b, fs)

/-- Opens the file unless it is open. Bytes after the last whole block do not count. -/
def opened (b : BlockFile) (fs : Files) : Except StorageError BlockFile :=
  if b.isOpen then .ok b
  else match fs.find b.path with
    | .error .notFound => .error (.relation (.relationMissing b.relation))
    | .error e => .error (.file e)
    | .ok id => .ok { b with file := some id, last := (fs.bytes id).size / blockSize }

/-- Closes the file. The number of its last block is still known. -/
def closed (b : BlockFile) : BlockFile := { b with file := none }

/-- Closes the file for good. -/
def dropped (b : BlockFile) : BlockFile := { b with file := none, last := 0 }

/-- Removes the file if it is there. -/
def remove (b : BlockFile) (fs : Files) : Except StorageError Files :=
  match fs.remove b.path with
  | .ok fs => .ok fs
  | .error .notFound => .ok fs
  | .error e => .error (.file e)

end BlockFile

end Rowbase.Heap
