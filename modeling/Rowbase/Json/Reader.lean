import Rowbase.Json.Basic

/-! # Reading JSON

`Json.read` takes bytes apart by the grammar of JSON. Bytes that form no value are refused; what is
wrong with them is not said. A text is first cut into bytes and escaped code units, which are put
together only then, so that a text with a lone surrogate or a byte sequence that is not UTF-8 can
still be passed over. -/
namespace Rowbase.Json

/-- Blanks between values. -/
def isBlank (b : UInt8) : Bool := b == 0x20 || b == 0x09 || b == 0x0A || b == 0x0D

def skipBlanks (bytes : List UInt8) : List UInt8 := bytes.dropWhile isBlank

def isDigit (b : UInt8) : Bool := 0x30 ≤ b && b ≤ 0x39

/-- The value of a hexadecimal digit, in either case. -/
def hexValue? (b : UInt8) : Option Nat :=
  if isDigit b then some (b - 0x30).toNat
  else if 0x61 ≤ b && b ≤ 0x66 then some (b - 0x57).toNat
  else if 0x41 ≤ b && b ≤ 0x46 then some (b - 0x37).toNat
  else none

/-! ## Texts -/

/-- A piece of a text: a byte, or a code unit of 16 bits that was escaped. -/
inductive Piece where
  | byte (b : UInt8)
  | unit (n : Nat)

/-- The byte that a letter behind a backslash stands for. -/
def unescape? (letter : UInt8) : Option UInt8 :=
  if letter = 0x2F then some 0x2F
  else (shortEscapes.find? (·.2 == letter)).map Prod.fst

/-- The pieces up to the closing quote, and the bytes after it. -/
def readPieces : List UInt8 → Option (List Piece × List UInt8)
  | [] => none
  | b :: rest =>
    if b = quote then some ([], rest)
    else if b = backslash then match rest with
      | 0x75 :: h₁ :: h₂ :: h₃ :: h₄ :: rest => do
        let n := ((← hexValue? h₁) * 16 + (← hexValue? h₂)) * 256 +
          ((← hexValue? h₃) * 16 + (← hexValue? h₄))
        let (pieces, rest) ← readPieces rest
        return (.unit n :: pieces, rest)
      | letter :: rest => do
        let b ← unescape? letter
        let (pieces, rest) ← readPieces rest
        return (.byte b :: pieces, rest)
      | [] => none
    else if b < 0x20 then none
    else do
      let (pieces, rest) ← readPieces rest
      return (.byte b :: pieces, rest)

/-- The bytes of a character. -/
def charBytes (n : Nat) : List UInt8 := bytesOf (Char.ofNat n).toString

/-- The bytes of all pieces; a surrogate without its partner has none. -/
def joinPieces : List Piece → Option (List UInt8)
  | [] => some []
  | .byte b :: rest => (b :: ·) <$> joinPieces rest
  | .unit n :: rest =>
    if n < 0xD800 ∨ 0xDFFF < n then (charBytes n ++ ·) <$> joinPieces rest
    else if n < 0xDC00 then match rest with
      | .unit m :: rest =>
        if 0xDC00 ≤ m ∧ m ≤ 0xDFFF then
          (charBytes ((n - 0xD800) * 0x400 + (m - 0xDC00) + 0x10000) ++ ·) <$> joinPieces rest
        else none
      | _ => none
    else none

/-- The text behind an opening quote, and the bytes after its closing quote. -/
def readText (bytes : List UInt8) : Option (Option String × List UInt8) := do
  let (pieces, rest) ← readPieces bytes
  return ((joinPieces pieces).bind fun text => (Text.Utf8.decode text.toByteArray).toOption, rest)

/-! ## Numbers -/

/-- The digits that the bytes start with, at least one, and the bytes after them. -/
def readDigits (bytes : List UInt8) : Option (List UInt8 × List UInt8) :=
  match bytes.takeWhile isDigit with
  | [] => none
  | digits => some (digits, bytes.dropWhile isDigit)

/-- The bytes after a fraction, if there is one, and whether there is. -/
def skipFraction : List UInt8 → Option (Bool × List UInt8)
  | 0x2E :: rest => do return (true, (← readDigits rest).2)
  | bytes => some (false, bytes)

/-- The bytes after an exponent, if there is one, and whether there is. -/
def skipExponent : List UInt8 → Option (Bool × List UInt8)
  | 0x65 :: rest | 0x45 :: rest => do
    let rest := match rest with
      | 0x2B :: rest | 0x2D :: rest => rest
      | rest => rest
    return (true, (← readDigits rest).2)
  | bytes => some (false, bytes)

/-- The number that digits write. -/
def digitsValue (digits : List UInt8) : Nat :=
  Nat.ofDigitChars 10 (digits.map fun b => Char.ofNat b.toNat) 0

/-- The number that the bytes start with. It has no zero in front but a lone one. -/
def readNumber (bytes : List UInt8) : Option (Json × List UInt8) := do
  let negative := bytes.head? == some minus
  let (digits, rest) ← readDigits (if negative then bytes.tail else bytes)
  if digits.head? == some 0x30 && digits.length != 1 then none
  else
    let (fraction, rest) ← skipFraction rest
    let (exponent, rest) ← skipExponent rest
    let n : Int := digitsValue digits
    if fraction || exponent || negative && n == 0 then return (number, rest)
    else return (integer (if negative then -n else n), rest)

/-! ## Values -/

/-- The bytes after a word that they must start with. -/
def readWord (word : String) (bytes : List UInt8) : Option (List UInt8) :=
  let word := bytesOf word
  if word.isPrefixOf bytes then some (bytes.drop word.length) else none

mutual

/-- The value that the bytes start with, and the bytes after it. Each call inside another takes
one of `fuel`. -/
def readValue : (fuel : Nat) → List UInt8 → Option (Json × List UInt8)
  | 0, _ => none
  | fuel + 1, bytes =>
    let bytes := skipBlanks bytes
    match bytes with
    | [] => none
    | b :: rest =>
      if b = openBracket then
        match skipBlanks rest with
        | [] => none
        | b :: rest' =>
          if b = closeBracket then some (list [], rest')
          else (readItems fuel rest).map fun (items, rest) => (list items, rest)
      else if b = openBrace then
        match skipBlanks rest with
        | [] => none
        | b :: rest' =>
          if b = closeBrace then some (object [], rest')
          else (readFields fuel rest).map fun (fields, rest) => (object fields, rest)
      else if b = quote then (readText rest).map fun (s, rest) => (text s, rest)
      else if b = 0x6E then (readWord "null" bytes).map (null, ·)
      else if b = 0x74 then (readWord "true" bytes).map (boolean true, ·)
      else if b = 0x66 then (readWord "false" bytes).map (boolean false, ·)
      else readNumber bytes

/-- Values with commas between them up to a closing bracket, and the bytes after it. -/
def readItems : (fuel : Nat) → List UInt8 → Option (List Json × List UInt8)
  | 0, _ => none
  | fuel + 1, bytes => do
    let (item, rest) ← readValue fuel bytes
    match skipBlanks rest with
    | [] => none
    | b :: rest =>
      if b = closeBracket then return ([item], rest)
      else if b = comma then
        let (items, rest) ← readItems fuel rest
        return (item :: items, rest)
      else none

/-- Named values with commas between them up to a closing brace, and the bytes after it. -/
def readFields : (fuel : Nat) → List UInt8 → Option (List (Option String × Json) × List UInt8)
  | 0, _ => none
  | fuel + 1, bytes =>
    match skipBlanks bytes with
    | [] => none
    | b :: rest =>
      if b ≠ quote then none
      else do
        let (name, rest) ← readText rest
        match skipBlanks rest with
        | [] => none
        | b :: rest =>
          if b ≠ colon then none
          else do
            let (value, rest) ← readValue fuel rest
            match skipBlanks rest with
            | [] => none
            | b :: rest =>
              if b = closeBrace then return ([(name, value)], rest)
              else if b = comma then
                let (fields, rest) ← readFields fuel rest
                return ((name, value) :: fields, rest)
              else none

end

/-- The value that the bytes are, with nothing but blanks around it. -/
def read (bytes : ByteArray) : Option Json := do
  let bytes := bytes.data.toList
  let (value, rest) ← readValue (2 * bytes.length + 1) bytes
  if (skipBlanks rest).isEmpty then some value else none

end Rowbase.Json
