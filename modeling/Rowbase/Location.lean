/-! # Where a database lies

A database is a directory with a file for each relation and one for each index. The paths of the
files are made from the names of tables and indices as they stand, so a name with a slash leads
into another directory. -/
namespace Rowbase

/-- The path of `name` as seen from a directory. An absolute path stays what it is. -/
def joinPath (directory name : String) : String :=
  if name.startsWith "/" then name
  else if directory.isEmpty || directory.endsWith "/" then directory ++ name
  else directory ++ "/" ++ name

/-- The directory of a database and the file that the shell remembers lines in. -/
structure Location where
  directory : String := "data"
  history : String := ".heapsql_history"
deriving DecidableEq

namespace Location

/-- The file of a relation. -/
def relationPath (l : Location) (relation : String) : String :=
  joinPath l.directory s!"{relation}.db"

/-- The file of an index. -/
def indexPath (l : Location) (table index : String) : String :=
  joinPath l.directory s!"{table}-{index}.idx"

/-- The file of remembered lines. -/
def historyPath (l : Location) : String := joinPath l.directory l.history

end Location

end Rowbase
