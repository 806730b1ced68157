import Rowbase.Text.Conjuncts
import Rowbase.Text.Marks
import Rowbase.Text.Pictographs

/-! # How characters join

What a reader takes for one character may be written with several. How a character joins those
beside it depends on its class alone: the Unicode grapheme cluster classes, with the pictographs
and the consonants that can be tied told apart from all others. -/
namespace Rowbase.Text

/-- How a character joins the characters beside it. -/
inductive Joining where
  | carriageReturn
  | lineFeed
  /-- Joins nothing. -/
  | control
  /-- A mark, which joins what it follows. -/
  | mark
  /-- A mark that ties the consonants on both sides of it. -/
  | linker
  /-- A mark that keeps the consonants on both sides of it apart. -/
  | nonJoiner
  /-- Joins what it follows, and ties the pictographs on both sides of it. -/
  | joiner
  /-- A mark that takes a place of its own and joins what it follows. -/
  | spacing
  /-- Joins what follows it. -/
  | prepended
  /-- One of the two letters that make a flag. -/
  | regional
  /-- A leading consonant of a Hangul syllable. -/
  | leading
  /-- A vowel of a Hangul syllable. -/
  | vowel
  /-- A trailing consonant of a Hangul syllable. -/
  | trailing
  /-- A Hangul syllable without a trailing consonant. -/
  | openSyllable
  /-- A Hangul syllable with a trailing consonant. -/
  | closedSyllable
  | pictograph
  /-- A consonant that can be tied to others. -/
  | consonant
  | other
deriving DecidableEq

/-- The code points of the class Control: those of control and format characters. -/
def controlRanges : List (Nat × Nat) :=
  [(0x0, 0x9), (0xB, 0xC), (0xE, 0x1F), (0x7F, 0x9F), (0xAD, 0xAD), (0x61C, 0x61C),
   (0x180E, 0x180E), (0x200B, 0x200B), (0x200E, 0x200F), (0x2028, 0x202E), (0x2060, 0x206F),
   (0xFEFF, 0xFEFF), (0xFFF0, 0xFFFB), (0x13430, 0x1343F), (0x1BCA0, 0x1BCA3), (0x1D173, 0x1D17A),
   (0xE0000, 0xE001F), (0xE0080, 0xE00FF), (0xE01F0, 0xE0FFF)]

/-- The code points of the class Prepend. -/
def prependedRanges : List (Nat × Nat) :=
  [(0x600, 0x605), (0x6DD, 0x6DD), (0x70F, 0x70F), (0x890, 0x891), (0x8E2, 0x8E2), (0xD4E, 0xD4E),
   (0x110BD, 0x110BD), (0x110CD, 0x110CD), (0x111C2, 0x111C3), (0x113D1, 0x113D1),
   (0x1193F, 0x1193F), (0x11941, 0x11941), (0x11A84, 0x11A89), (0x11D46, 0x11D46),
   (0x11F02, 0x11F02)]

/-- The code points of the letters that make flags. -/
def regionalRanges : List (Nat × Nat) := [(0x1F1E6, 0x1F1FF)]

/-- The code points of leading consonants. -/
def leadingRanges : List (Nat × Nat) := [(0x1100, 0x115F), (0xA960, 0xA97C)]

/-- The code points of vowels that stand alone, with those of Kirat Rai, which join likewise. -/
def vowelRanges : List (Nat × Nat) :=
  [(0x1160, 0x11A7), (0xD7B0, 0xD7C6), (0x16D63, 0x16D63), (0x16D67, 0x16D6A)]

/-- The code points of trailing consonants. -/
def trailingRanges : List (Nat × Nat) := [(0x11A8, 0x11FF), (0xD7CB, 0xD7FB)]

/-- The first Hangul syllable. -/
def syllableStart : Nat := 0xAC00

/-- The code points of Hangul syllables. -/
def syllableRanges : List (Nat × Nat) := [(syllableStart, 0xD7A3)]

/-- In how many ways a syllable can end. The first of them is without a trailing consonant. -/
def syllableEnds : Nat := 28

/-- How a character joins those beside it. -/
def Joining.ofChar (c : Char) : Joining :=
  let n := c.toNat
  if c = '\r' then .carriageReturn
  else if c = '\n' then .lineFeed
  else if inRanges controlRanges n then .control
  else if n < 0x80 then .other
  else if n = 0x200C then .nonJoiner
  else if n = 0x200D then .joiner
  else if isLinker c then .linker
  else if isMark c then .mark
  else if isSpacingMark c then .spacing
  else if inRanges prependedRanges n then .prepended
  else if inRanges regionalRanges n then .regional
  else if inRanges leadingRanges n then .leading
  else if inRanges vowelRanges n then .vowel
  else if inRanges trailingRanges n then .trailing
  else if inRanges syllableRanges n then
    if (n - syllableStart) % syllableEnds = 0 then .openSyllable else .closedSyllable
  else if isPictograph c then .pictograph
  else if isConsonant c then .consonant
  else .other

/-- Whether it is a mark that takes no place of its own. -/
def Joining.isMark : Joining → Bool
  | mark | linker | nonJoiner => true
  | _ => false

/-- Whether it can stand between consonants that are tied. -/
def Joining.isBetweenConsonants : Joining → Bool
  | mark | linker | joiner => true
  | _ => false

end Rowbase.Text
