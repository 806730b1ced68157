/-! # Writing a word in capitals

Upper case is taken character by character and may lengthen a word: the sharp s becomes two
letters, and so do the ligatures. Only words whose capitals are all ASCII matter here, since they
are compared with words that are, so a word with any other capital has none. -/
namespace Rowbase.Text

/-- The characters beyond ASCII whose upper case is ASCII, with that upper case. -/
def foreignCapitals : List (Char × List Char) :=
  [('ß', ['S', 'S']), ('ı', ['I']), ('ſ', ['S']), ('ﬀ', ['F', 'F']), ('ﬁ', ['F', 'I']),
    ('ﬂ', ['F', 'L']), ('ﬃ', ['F', 'F', 'I']), ('ﬄ', ['F', 'F', 'L']), ('ﬅ', ['S', 'T']),
    ('ﬆ', ['S', 'T'])]

/-- The upper case of a character when it is made of ASCII characters. -/
def capital? (c : Char) : Option (List Char) :=
  if c.toNat < 0x80 then some [c.toUpper] else foreignCapitals.lookup c

/-- The word in capitals, none when one of them is not ASCII. -/
def capitals? (word : String) : Option String :=
  (word.toList.mapM capital?).map fun letters => String.ofList letters.flatten

end Rowbase.Text
