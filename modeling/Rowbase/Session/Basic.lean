import Rowbase.Language.Reader.Statement
import Rowbase.Session.Rows

/-! # Sessions

A session carries out statements on a database. Its catalog is set up when the first of them needs
it; if that fails, the next one tries again. -/
namespace Rowbase

/-- A session on the database at a place. -/
structure Session where
  location : Location
  catalog : Option Catalog := none

namespace Session

/-- The catalog, set up if it is not. -/
def opened : Act StorageError Session Catalog := fun (s, fs) =>
  match s.catalog with
  | some c => (.ok c, s, fs)
  | none => match Catalog.setUp.apply (.blank s.location) fs with
    | (.ok (), c, fs) => (.ok c, { s with catalog := some c }, fs)
    | (.error e, _, fs) => (.error e, s, fs)

/-- An act on the catalog. -/
def onCatalog (x : Act ε Catalog α) [MonadLiftT (Act StorageError Session) (Act ε Session)] :
    Act ε Session α := do
  let c ← opened
  x.within (fun _ => c) fun c s => { s with catalog := some c }

/-- Carries out a statement on the catalog. -/
def carryOut : Language.Statement → Act Refusal Catalog Answer
  | .select what table condition => Catalog.select what table condition
  | .insert table columns values => Catalog.insert table columns values
  | .update _ _ _ => return .ofMessage "not implemented"
  | .delete table condition => Catalog.delete table condition
  | .createTable table columns ifNotExists => Catalog.createTable table columns ifNotExists
  | .dropTable table => Catalog.dropTable table
  | .createIndex index table columns kind => Catalog.createIndex index table columns kind
  | .dropIndex index table => Catalog.dropIndex index table
  | .showTables => Catalog.showTables
  | .showColumns table => Catalog.showColumns table
  | .showIndex table => Catalog.showIndex table

/-- Carries out a statement. -/
def execute (s : Language.Statement) : Act Refusal Session Answer := onCatalog (carryOut s)

/-- Carries out the statement that a text is. -/
def executeText (text : String) : Act Error Session Answer := do
  let s ← .result ((Language.Statement.ofText text).mapError .syntaxError)
  (execute s).adapt .refused

end Session

end Rowbase
