import Rowbase.Language.Scan

/-! # Which token is scanned

What a single token can be, without the scanner: a sign, a text or a name in quotes, a number with or without a sign
before it, or a word. The scanner finds just these tokens, each with just what follows it, so what is true of every
token that is scanned is shown from the kinds of tokens. -/
namespace Rowbase.Text

theorem isAlphabetic_eq_false_of_lt {c : Char} (h : c.toNat < 0x41) : isAlphabetic c = false := by
  have hlow : c.toNat < 0x1000 := by omega
  have hhigh : c.toNat ≤ 0x5A := by omega
  simp [isAlphabetic, alphabeticLatin, inRanges, hlow, hhigh]
  omega

end Rowbase.Text

namespace Rowbase.Language

/-! ## The kinds of tokens -/

/-- The signs that are scanned whatever follows them, with their tokens. -/
def signs : List (List Char × Token) :=
  [(['('], .leftParen), ([')'], .rightParen), ([','], .comma), ([';'], .semicolon), (['*'], .asterisk),
    (['='], .comparison .eq), (['<', '='], .comparison .le), (['<', '>'], .comparison .neq),
    (['>', '='], .comparison .ge), (['!', '='], .comparison .neq)]

theorem forall_mem_signs {p : List Char × Token → Prop} : (∀ sign ∈ signs, p sign) ↔
    p (['('], .leftParen) ∧ p ([')'], .rightParen) ∧ p ([','], .comma) ∧ p ([';'], .semicolon) ∧
    p (['*'], .asterisk) ∧ p (['='], .comparison .eq) ∧ p (['<', '='], .comparison .le) ∧
    p (['<', '>'], .comparison .neq) ∧ p (['>', '='], .comparison .ge) ∧ p (['!', '='], .comparison .neq) := by
  simp [signs]

/-- Which token starts with a character and goes on in the text behind it, and what follows the token. -/
inductive Scans : Char → List Char → Token → List Char → Prop
  | sign {c cs t} (h : (c :: cs, t) ∈ signs) (rest) : Scans c (cs ++ rest) t rest
  | lt {rest} (hle : ∀ tail, rest = '=' :: tail → False) (hneq : ∀ tail, rest = '>' :: tail → False) :
    Scans '<' rest (.comparison .lt) rest
  | gt {rest} (hge : ∀ tail, rest = '=' :: tail → False) : Scans '>' rest (.comparison .gt) rest
  | text {rest s rest'} (h : readQuoted '\'' [] rest = some (s, rest')) :
    Scans '\'' rest (.text (String.ofList s)) rest'
  | name {rest s rest'} (h : readQuoted '"' [] rest = some (s, rest')) :
    Scans '"' rest (.name (String.ofList s)) rest'
  | negative {rest t rest'} (hd : (rest.head?.map Char.isDigit).getD false = true)
    (h : readNumber rest = (some t, rest')) : Scans '-' rest t.negate rest'
  | number {c rest t rest'} (hd : c.isDigit = true) (h : readNumber (c :: rest) = (some t, rest')) :
    Scans c rest t rest'
  | word {c} (h : isWordStart c = true) (rest) :
    Scans c rest (.ofWord (c :: rest.takeWhile isWordChar)) (rest.dropWhile isWordChar)

variable {cs rest rest' : List Char} {c : Char} {t : Token}

/-! ## The scanner finds just these -/

theorem isWordStart_eq_false_of_lt (h : c.toNat < 0x41) : isWordStart c = false := by
  have hne : c ≠ '_' := by
    rintro rfl
    exact absurd h (by decide)
  simp [isWordStart, Text.isAlphabetic_eq_false_of_lt h, hne]

theorem isWordStart_eq_false_of_isDigit (h : c.isDigit = true) : isWordStart c = false := by
  have hle : c.toNat ≤ '9'.toNat := (Char.isDigit_iff_toNat.1 h).2
  exact isWordStart_eq_false_of_lt (Nat.lt_of_le_of_lt hle (by decide))

theorem scanToken_sign (h : (c :: cs, t) ∈ signs) (rest : List Char) : scanToken c (cs ++ rest) = .ok (t, rest) := by
  have hsigns : ∀ sign ∈ signs, ∀ c cs, sign.1 = c :: cs → scanToken c (cs ++ rest) = .ok (sign.2, rest) := by
    rw [forall_mem_signs]
    refine ⟨?_, ?_, ?_, ?_, ?_, ?_, ?_, ?_, ?_, ?_⟩ <;> rintro c cs ⟨⟩ <;> rfl
  exact hsigns _ h c cs rfl

theorem scanToken_negative (hd : (rest.head?.map Char.isDigit).getD false = true)
    (hread : readNumber rest = (some t, rest')) : scanToken '-' rest = .ok (t.negate, rest') := by
  unfold scanToken
  simp only [if_pos hd, hread]

theorem scanToken_digit (h : c.isDigit = true) (hread : readNumber (c :: rest) = (some t, rest')) :
    scanToken c rest = .ok (t, rest') := by
  unfold scanToken
  split
  case h_13 => rw [if_pos h, hread]
  all_goals exact absurd h (by decide)

theorem scanToken_word (h : isWordStart c = true) (rest : List Char) : scanToken c rest =
    .ok (.ofWord (c :: rest.takeWhile isWordChar), rest.dropWhile isWordChar) := by
  have hdigit : c.isDigit = false := by
    cases hd : c.isDigit with
    | false => rfl
    | true =>
      rw [isWordStart_eq_false_of_isDigit hd] at h
      cases h
  unfold scanToken
  split
  case h_13 => rw [hdigit, h]; rfl
  all_goals exact absurd h (by decide)

/-- Each kind of token is scanned. -/
theorem Scans.scanToken_eq_ok (h : Scans c rest t rest') : scanToken c rest = .ok (t, rest') := by
  cases h with
  | sign h => exact scanToken_sign h rest'
  | lt hle hneq =>
    rw [scanToken]
    · exact hle
    · exact hneq
  | gt hge =>
    rw [scanToken]
    exact hge
  | text h | name h => rw [scanToken, h]
  | negative hd h => exact scanToken_negative hd h
  | number hd h => exact scanToken_digit hd h
  | word h => exact scanToken_word h rest

/-- What is scanned is one of the kinds of tokens. -/
theorem scans_of_scanToken (h : scanToken c rest = .ok (t, rest')) : Scans c rest t rest' := by
  obtain ⟨hleft, hright, hcomma, hsemicolon, hasterisk, heq, hle, hless, hge, hbang⟩ :=
    forall_mem_signs.1 fun sign (h : sign ∈ signs) => h
  unfold scanToken at h
  split at h
  case h_1 => cases h; exact .sign hleft _
  case h_2 => cases h; exact .sign hright _
  case h_3 => cases h; exact .sign hcomma _
  case h_4 => cases h; exact .sign hsemicolon _
  case h_5 => cases h; exact .sign hasterisk _
  case h_6 => cases h; exact .sign heq _
  case h_7 =>
    split at h
    case h_1 => cases h; exact .sign hle _
    case h_2 => cases h; exact .sign hless _
    case h_3 hnot hnot' => cases h; exact .lt hnot hnot'
  case h_8 =>
    split at h
    case h_1 => cases h; exact .sign hge _
    case h_2 hnot => cases h; exact .gt hnot
  case h_9 =>
    split at h
    case h_1 => cases h; exact .sign hbang _
    case h_2 => cases h
  case h_10 =>
    split at h
    case h_1 hread => cases h; exact .text hread
    case h_2 => cases h
  case h_11 =>
    split at h
    case h_1 hread => cases h; exact .name hread
    case h_2 => cases h
  case h_12 =>
    split at h
    case isTrue hd =>
      split at h
      case h_1 hread => cases h; exact .negative hd hread
      case h_2 => cases h
    case isFalse => cases h
  case h_13 =>
    split at h
    case isTrue hd =>
      split at h
      case h_1 hread => cases h; exact .number hd hread
      case h_2 => cases h
    case isFalse =>
      split at h
      case isTrue hstart => cases h; exact .word hstart _
      case isFalse => cases h

/-- The scanner finds just the tokens of these kinds. -/
theorem scanToken_eq_ok_iff : scanToken c rest = .ok (t, rest') ↔ Scans c rest t rest' :=
  ⟨scans_of_scanToken, Scans.scanToken_eq_ok⟩

end Rowbase.Language
