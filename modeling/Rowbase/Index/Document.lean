import Rowbase.Heap.Relation
import Rowbase.Index.Key
import Rowbase.Json.Reader

/-! # Saved indices

What an index is saved as: whether it is unique, its columns, and the handles under each key. A
document is a JSON object with these three fields; a value is an object whose only field names its
kind, and NULL is the text "Null". Reading also takes the fields of an object in another order,
among others that it does not know, or as a list in the order in which they are written. -/
namespace Rowbase.Index

/-- An index as it is saved. -/
structure Document where
  unique : Bool
  columns : List String
  entries : List (Key × List Handle)
deriving DecidableEq

/-! ## Writing -/

def namedText (s : String) : Json := .text (some s)

def valueJson : Value → Json
  | .null => namedText "Null"
  | .integer n => .object [(some "Integer", .integer n.toInt)]
  | .text s => .object [(some "Text", namedText s)]
  | .boolean b => .object [(some "Boolean", .boolean b)]

def handleJson (h : Handle) : Json :=
  .object [(some "block_id", .integer h.block), (some "record_id", .integer h.record)]

def entryJson (entry : Key × List Handle) : Json :=
  .list [.list (entry.1.map valueJson), .list (entry.2.map handleJson)]

/-- The document as a JSON object. -/
def Document.json (d : Document) : Json :=
  .object [(some "unique", .boolean d.unique), (some "columns", .list (d.columns.map namedText)),
    (some "entries", .list (d.entries.map entryJson))]

/-- The bytes of the document. -/
def Document.bytes (d : Document) : ByteArray := d.json.write

/-! ## Reading -/

/-- The value of the only field of a name. -/
def field? (fields : List (Option String × Json)) (name : String) : Option Json :=
  match fields.filter (·.1 == some name) with
  | [(_, value)] => some value
  | _ => none

/-- The values of the named fields of an object, or the values of a list of as many. An object may
have other fields, but all its names must be texts. -/
def fields? (names : List String) : Json → Option (List Json)
  | .list items => if items.length = names.length then some items else none
  | .object fields => if fields.all (·.1.isSome) then names.mapM (field? fields) else none
  | _ => none

def list? (read : Json → Option α) : Json → Option (List α)
  | .list items => items.mapM read
  | _ => none

def text? : Json → Option String
  | .text s => s
  | _ => none

def boolean? : Json → Option Bool
  | .boolean b => some b
  | _ => none

/-- An integer that is not negative and less than a bound. -/
def nat? (bound : Nat) : Json → Option Nat
  | .integer (.ofNat n) => if n < bound then some n else none
  | _ => none

def value? : Json → Option Value
  | .text (some "Null") => some .null
  | .object [(some "Null", .null)] => some .null
  | .object [(some "Integer", .integer n)] =>
    if Int32.minValue.toInt ≤ n ∧ n ≤ Int32.maxValue.toInt then some (.integer (Int32.ofInt n))
    else none
  | .object [(some "Text", .text (some s))] => some (.text s)
  | .object [(some "Boolean", .boolean b)] => some (.boolean b)
  | _ => none

/-- What the numbers of blocks stay below; they have 32 bits. -/
def blockBound : Nat := 0x100000000

/-- What the numbers of records stay below; they have 16 bits. -/
def recordBound : Nat := 0x10000

/-- A handle, whose numbers must stay below their bounds. -/
def handle? (j : Json) : Option Handle := do
  match ← fields? ["block_id", "record_id"] j with
  | [block, record] => return ⟨← nat? blockBound block, ← nat? recordBound record⟩
  | _ => none

def entry? : Json → Option (Key × List Handle)
  | .list [key, handles] => do return (← list? value? key, ← list? handle? handles)
  | _ => none

/-- The document that a JSON value is. -/
def Document.ofJson? (j : Json) : Option Document := do
  match ← fields? ["unique", "columns", "entries"] j with
  | [unique, columns, entries] =>
    return ⟨← boolean? unique, ← list? text? columns, ← list? entry? entries⟩
  | _ => none

/-- The document that bytes are. -/
def Document.ofBytes? (bytes : ByteArray) : Option Document := do
  Document.ofJson? (← Json.read bytes)

end Rowbase.Index
