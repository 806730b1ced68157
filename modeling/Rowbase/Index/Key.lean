import Rowbase.Row

/-! # Keys

The key of a row in an index is the list of its values in the index's columns. Keys are ordered
value by value; a key that another begins with comes first. -/
namespace Rowbase

/-- One value for each column of an index. -/
abbrev Key := List Value

namespace Key

/-- The order of keys. -/
protected def compare : Key → Key → Ordering := List.compareLex Value.compare

instance : Std.TransCmp Key.compare := inferInstanceAs (Std.TransCmp (List.compareLex _))

instance : Std.LawfulEqCmp Key.compare := inferInstanceAs (Std.LawfulEqCmp (List.compareLex _))

/-- Whether the key has a NULL; no row is found under such a key. -/
def hasNull (k : Key) : Bool := k.any Value.isNull

/-- The values in parentheses, with commas between them. -/
def shown (k : Key) : String := "(" ++ ", ".intercalate (k.map Value.shown) ++ ")"

end Key

end Rowbase
