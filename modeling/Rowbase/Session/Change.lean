import Rowbase.Catalog.Basic

/-! # Undoing

A statement that fails after it changed something takes its changes back. It keeps a log of them,
the newest first, and undoes each in turn; a change that cannot be undone is passed over. -/
namespace Rowbase

/-- A change that can be taken back. -/
inductive Change where
  /-- A row was inserted into a relation. -/
  | inserted (relation : String) (handle : Handle)
  /-- A row was added to an index. -/
  | indexed (table index : String) (handle : Handle) (row : Row)
deriving DecidableEq

/-- Takes a change back. -/
def Change.undo : Change → Act StorageError Catalog Unit
  | inserted relation h => Catalog.onRelation relation (Relation.delete h)
  | indexed table index h row => Catalog.onIndex table index (Index.delete h row)

/-- Takes the changes of a log back. -/
def rollBack (log : List Change) : Act StorageError Catalog Unit :=
  log.forM fun change => discard change.undo.caught

end Rowbase
