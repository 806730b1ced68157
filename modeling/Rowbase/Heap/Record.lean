import Rowbase.Bytes
import Rowbase.Column
import Rowbase.Heap.Page
import Rowbase.Row

/-! # Records

A row as bytes: its values one after the other in the order of the columns. A value is a zero for
NULL, otherwise a one and then an integer in four bytes, a truth value in one, or a text behind its
length in two. -/
namespace Rowbase.Heap

/-- The size of the largest record; it fills a blank block. -/
def maxRecordSize : Nat := blockSize - 8

/-- The size of the longest text; its length fills two bytes. -/
def maxTextSize : Nat := 65535

/-- The bytes of a value, which must be of the column's kind. -/
def encodeValue (column : Column) : Value → Except RelationFault (List UInt8)
  | .null => .ok [0]
  | v => match column.domain.kind, v with
    | .int, .integer n => .ok (1 :: Bytes.ofNat 4 n.toUInt32.toNat)
    | .text, .text s =>
      if s.utf8ByteSize ≤ maxTextSize then
        .ok (1 :: (Bytes.ofNat 2 s.utf8ByteSize ++ s.toUTF8.data.toList))
      else .error (.textTooLong column.name)
    | .boolean, .boolean b => .ok [1, if b then 1 else 0]
    | kind, v => .error (.unstorable v.kind? kind column.name)

/-- The bytes of a row. Columns without a value hold NULL. -/
def encode (columns : List Column) (row : Row) : Except RelationFault ByteArray := do
  let values ← columns.mapM fun column =>
    encodeValue column ((row.get? column.name).getD .null)
  let bytes := values.flatten.toByteArray
  if maxRecordSize < bytes.size then .error (.rowTooLarge bytes.size) else .ok bytes

/-- The first bytes and the others, if there are so many. -/
def takeBytes (size : Nat) (bytes : List UInt8) :
    Except StorageError (List UInt8 × List UInt8) :=
  if size ≤ bytes.length then .ok (bytes.take size, bytes.drop size)
  else .error (.file .endOfFile)

/-- The value that the bytes start with, and the bytes after it. Any byte but zero announces one,
and any byte but zero is true. -/
def decodeValue (relation : String) (kind : Kind) :
    List UInt8 → Except StorageError (Value × List UInt8)
  | [] => .error (.file .endOfFile)
  | 0 :: rest => .ok (.null, rest)
  | _ :: rest => match kind with
    | .int => do
      let (bytes, rest) ← takeBytes 4 rest
      return (.integer (UInt32.ofNat (Bytes.toNat bytes)).toInt32, rest)
    | .text => do
      let (size, rest) ← takeBytes 2 rest
      let (bytes, rest) ← takeBytes (Bytes.toNat size) rest
      match Text.Utf8.decode bytes.toByteArray with
      | .ok s => return (.text s, rest)
      | .error fault => .error (.relation (.corruptText relation fault))
    | .boolean => do
      let (bytes, rest) ← takeBytes 1 rest
      return (.boolean (bytes != [0]), rest)

/-- The values of the columns, in their order. Bytes after the last are not looked at. -/
def decodeValues (relation : String) :
    List Column → List UInt8 → Except StorageError (List (String × Value))
  | [], _ => .ok []
  | column :: columns, bytes => do
    let (v, rest) ← decodeValue relation column.domain.kind bytes
    return (column.name, v) :: (← decodeValues relation columns rest)

/-- The row that the bytes hold. -/
def decode (relation : String) (columns : List Column) (bytes : ByteArray) :
    Except StorageError Row := do
  return .ofList (← decodeValues relation columns bytes.data.toList)

end Rowbase.Heap
