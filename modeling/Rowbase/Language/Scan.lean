import Rowbase.Error
import Rowbase.Language.Token
import Rowbase.Text.Blank
import Rowbase.Text.Numeric

/-! # From text to tokens

A text is read from the left: blanks and comments are dropped, then the first character decides
what kind of token starts there and the token takes all the characters it can. Scanning stops at
the first place where no token starts or a started one is unfinished, and keeps the tokens before
it. Inside the scanner such a place is known by the number of characters from it to the end;
positions from the start of the text appear only in the errors. -/
namespace Rowbase.Language

/-- What went wrong where a token should have been. -/
inductive Lapse where
  /-- No token starts with this character. -/
  | character (c : Char)
  /-- A quote is not closed. -/
  | openText
  /-- An integer does not fit into 64 bits. -/
  | hugeInteger
deriving DecidableEq

/-- The characters from the next token on. A comment runs from two hyphens to the end of its line;
`inComment` says whether the text starts inside one. -/
def skipBlanks : (inComment : Bool) → List Char → List Char
  | _, [] => []
  | true, c :: rest => if c = '\n' then skipBlanks false rest else skipBlanks true rest
  | false, '-' :: '-' :: rest => skipBlanks true rest
  | false, c :: rest => if Text.isBlank c then skipBlanks false rest else c :: rest

/-- The text up to the closing quote, whose first characters are `read` in reverse, and what
follows the quote. A doubled quote stands for itself. -/
def readQuoted (quote : Char) (read : List Char) : List Char → Option (List Char × List Char)
  | [] => none
  | [c] => if c = quote then some (read.reverse, []) else none
  | c :: d :: rest =>
    if c ≠ quote then readQuoted quote (c :: read) (d :: rest)
    else if d = quote then readQuoted quote (quote :: read) rest
    else some (read.reverse, d :: rest)

/-- What integers without a sign stay below; they have 64 bits with it. -/
def integerBound : Nat := 0x8000000000000000

/-- The number that the text starts with: digits, and if a point and a digit follow, the point and
all digits after it. An integer that does not fit into 64 bits is none. -/
def readNumber (cs : List Char) : Option Token × List Char :=
  let whole := cs.takeWhile Char.isDigit
  let rest := cs.dropWhile Char.isDigit
  match rest with
  | '.' :: d :: rest' =>
    if d.isDigit then
      let fraction := (d :: rest').takeWhile Char.isDigit
      (some (.float (.ofDigits whole fraction)), (d :: rest').dropWhile Char.isDigit)
    else (readInteger whole, rest)
  | _ => (readInteger whole, rest)
where
  readInteger (digits : List Char) : Option Token :=
    let n := Nat.ofDigitChars 10 digits 0
    if n < integerBound then some (.integer n) else none

/-- The token with its number negated. -/
def Token.negate : Token → Token
  | integer n => integer (-n)
  | float x => float x.negate
  | t => t

/-- Whether a word can go on with this character. -/
def isWordChar (c : Char) : Bool := Text.isAlphanumeric c || c == '_'

/-- Whether a word can start with this character. -/
def isWordStart (c : Char) : Bool := Text.isAlphabetic c || c == '_'

/-- The keyword that a word spells, otherwise the word as a name. -/
def Token.ofWord (word : List Char) : Token :=
  let word := String.ofList word
  match Keyword.ofWord? word with
  | some k => .keyword k
  | none => .name word

/-- The token that starts with `c` and goes on in `rest`, with what follows it. A lapse comes with
the number of characters from it to the end. -/
def scanToken (c : Char) (rest : List Char) : Except (Lapse × Nat) (Token × List Char) :=
  match c with
  | '(' => .ok (.leftParen, rest)
  | ')' => .ok (.rightParen, rest)
  | ',' => .ok (.comma, rest)
  | ';' => .ok (.semicolon, rest)
  | '*' => .ok (.asterisk, rest)
  | '=' => .ok (.comparison .eq, rest)
  | '<' => match rest with
    | '=' :: rest => .ok (.comparison .le, rest)
    | '>' :: rest => .ok (.comparison .neq, rest)
    | rest => .ok (.comparison .lt, rest)
  | '>' => match rest with
    | '=' :: rest => .ok (.comparison .ge, rest)
    | rest => .ok (.comparison .gt, rest)
  | '!' => match rest with
    | '=' :: rest => .ok (.comparison .neq, rest)
    | rest => .error (.character '!', rest.length + 1)
  | '\'' => match readQuoted '\'' [] rest with
    | some (s, rest) => .ok (.text (String.ofList s), rest)
    | none => .error (.openText, rest.length + 1)
  | '"' => match readQuoted '"' [] rest with
    | some (s, rest) => .ok (.name (String.ofList s), rest)
    | none => .error (.openText, rest.length + 1)
  | '-' =>
    if (rest.head?.map Char.isDigit).getD false then
      match readNumber rest with
      | (some t, rest) => .ok (t.negate, rest)
      | (none, _) => .error (.hugeInteger, rest.length)
    else .error (.character '-', rest.length + 1)
  | c =>
    if c.isDigit then
      match readNumber (c :: rest) with
      | (some t, rest) => .ok (t, rest)
      | (none, _) => .error (.hugeInteger, rest.length + 1)
    else if isWordStart c then
      .ok (.ofWord (c :: rest.takeWhile isWordChar), rest.dropWhile isWordChar)
    else .error (.character c, rest.length + 1)

theorem length_skipBlanks_le (inComment : Bool) (cs : List Char) :
    (skipBlanks inComment cs).length ≤ cs.length := by
  fun_induction skipBlanks inComment cs <;> simp_all <;> omega

theorem length_readQuoted_le {quote : Char} {read cs s rest : List Char}
    (h : readQuoted quote read cs = some (s, rest)) : rest.length ≤ cs.length := by
  fun_induction readQuoted quote read cs <;> simp_all <;> grind

theorem length_dropWhile_le (p : Char → Bool) (cs : List Char) :
    (cs.dropWhile p).length ≤ cs.length := (List.dropWhile_sublist p).length_le

/-- A number takes at least its leading digits. -/
theorem length_readNumber_le (cs : List Char) :
    (readNumber cs).2.length ≤ (cs.dropWhile Char.isDigit).length := by
  simp only [readNumber]
  split
  · rename_i d rest' heq
    split
    · have hfraction := length_dropWhile_le Char.isDigit (d :: rest')
      simp only [heq, List.length_cons] at hfraction ⊢
      omega
    · exact Nat.le_refl _
  · exact Nat.le_refl _

/-- A token takes at least its first character. -/
theorem length_scanToken_le {c : Char} {rest rest' : List Char} {t : Token}
    (h : scanToken c rest = .ok (t, rest')) : rest'.length ≤ rest.length := by
  unfold scanToken at h
  split at h
  case h_7 | h_8 | h_9 => split at h <;> simp_all
  case h_10 | h_11 =>
    split at h
    · rename_i hq
      simp only [Except.ok.injEq, Prod.mk.injEq] at h
      exact h.2 ▸ length_readQuoted_le hq
    · cases h
  case h_12 =>
    split at h
    · split at h
      · rename_i hn
        have hread := length_readNumber_le rest
        have hdrop := length_dropWhile_le Char.isDigit rest
        simp only [Except.ok.injEq, Prod.mk.injEq] at h
        rw [hn, h.2] at hread
        exact Nat.le_trans hread hdrop
      · cases h
    · cases h
  case h_13 =>
    split at h
    · rename_i hd
      split at h
      · rename_i hn
        have hread := length_readNumber_le (c :: rest)
        have hdrop := length_dropWhile_le Char.isDigit rest
        simp only [Except.ok.injEq, Prod.mk.injEq] at h
        rw [hn, h.2, List.dropWhile_cons_of_pos hd] at hread
        exact Nat.le_trans hread hdrop
      · cases h
    · split at h
      · simp only [Except.ok.injEq, Prod.mk.injEq] at h
        exact h.2 ▸ length_dropWhile_le _ _
      · cases h
  all_goals simp_all

set_option linter.unusedVariables false in
/-- The tokens of a text up to the first lapse, and that lapse. -/
def scan (cs : List Char) : List Token × Option (Lapse × Nat) :=
  match hskip : skipBlanks false cs with
  | [] => ([], none)
  | c :: rest =>
    match htoken : scanToken c rest with
    | .error lapse => ([], some lapse)
    | .ok (t, rest') =>
      let (ts, lapse) := scan rest'
      (t :: ts, lapse)
termination_by cs.length
decreasing_by
  have h := length_skipBlanks_le false cs
  have := length_scanToken_le htoken
  simp only [hskip, List.length_cons] at h
  omega

/-- The error for a lapse in a text of `size` characters. -/
def Lapse.error (size : Nat) : Lapse × Nat → SyntaxError
  | (.character c, left) => .unexpectedCharacter c (size - left)
  | (.openText, left) => .unterminatedText (size - left)
  | (.hugeInteger, left) => .invalidNumber (size - left)

/-- The tokens of a text up to its first error, and that error. -/
def Token.scan (s : String) : List Token × Option SyntaxError :=
  let cs := s.toList
  let (ts, lapse) := Language.scan cs
  (ts, lapse.map (Lapse.error cs.length))

/-- The tokens of a text. -/
def Token.ofText (s : String) : Except SyntaxError (List Token) :=
  match Token.scan s with
  | (ts, none) => .ok ts
  | (_, some e) => .error e

end Rowbase.Language
