import Rowbase.Text.Utf8

/-! # JSON

A tree of JSON values and how it is written, as bytes and without blanks. Only integers are kept of
all numbers, and a text that cannot be read is kept as one that cannot. -/
namespace Rowbase

/-- A JSON value. -/
inductive Json where
  | null
  | boolean (b : Bool)
  | integer (n : Int)
  /-- A number with a fraction, an exponent or a sign before zero. -/
  | number
  /-- A text, or none where the bytes between the quotes are no text. -/
  | text (s : Option String)
  | list (items : List Json)
  | object (fields : List (Option String × Json))

namespace Json

def quote : UInt8 := 0x22

def backslash : UInt8 := 0x5C

def comma : UInt8 := 0x2C

def colon : UInt8 := 0x3A

def minus : UInt8 := 0x2D

def openBracket : UInt8 := 0x5B

def closeBracket : UInt8 := 0x5D

def openBrace : UInt8 := 0x7B

def closeBrace : UInt8 := 0x7D

/-- The bytes of a text. -/
def bytesOf (s : String) : List UInt8 := s.toUTF8.data.toList

/-- The characters that have an escape of one letter, with the letter. -/
def shortEscapes : List (UInt8 × UInt8) :=
  [(quote, quote), (backslash, backslash), (0x08, 0x62), (0x09, 0x74), (0x0A, 0x6E), (0x0C, 0x66),
    (0x0D, 0x72)]

/-- A hexadecimal digit. -/
def hexDigit (n : UInt8) : UInt8 := if n < 10 then 0x30 + n else 0x57 + n

/-- A byte of a text as it is written. Quotes, backslashes and control characters are escaped. -/
def escape (b : UInt8) : List UInt8 :=
  match shortEscapes.lookup b with
  | some letter => [backslash, letter]
  | none =>
    if b < 0x20 then [backslash, 0x75, 0x30, 0x30, hexDigit (b / 16), hexDigit (b % 16)]
    else [b]

/-- A text in quotes, in front of other bytes. -/
def putText (s : String) (rest : List UInt8) : List UInt8 :=
  quote :: ((bytesOf s).flatMap escape ++ quote :: rest)

mutual

/-- A value in front of other bytes. -/
def put (rest : List UInt8) : Json → List UInt8
  | null => bytesOf "null" ++ rest
  | boolean b => bytesOf (if b then "true" else "false") ++ rest
  | integer n => bytesOf (toString n) ++ rest
  | number => bytesOf "-0" ++ rest
  | text s => putText (s.getD "") rest
  | list items => openBracket :: putItems (closeBracket :: rest) items
  | object fields => openBrace :: putFields (closeBrace :: rest) fields

/-- Values with commas between them, in front of other bytes. -/
def putItems (rest : List UInt8) : List Json → List UInt8
  | [] => rest
  | [item] => item.put rest
  | item :: items => item.put (comma :: putItems rest items)

/-- Named values with commas between them, in front of other bytes. -/
def putFields (rest : List UInt8) : List (Option String × Json) → List UInt8
  | [] => rest
  | [(name, value)] => putText (name.getD "") (colon :: value.put rest)
  | (name, value) :: fields =>
    putText (name.getD "") (colon :: value.put (comma :: putFields rest fields))

end

/-- The bytes of a value. -/
def write (j : Json) : ByteArray := (j.put []).toByteArray

end Json

end Rowbase
