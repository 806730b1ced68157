import Rowbase.Language.Statement
import Rowbase.Proofs.Language.Reader
import Rowbase.Proofs.Language.Scans

/-! # How tokens are spelled

A text spells tokens when it is scanned to them wherever a blank, a comma or a parenthesis follows, since no word,
number or sign goes on with one of these. What spells tokens is put together from words, numbers, signs and texts in
quotes with blanks, commas and parentheses between them. -/
namespace Rowbase.Text

/-- No blank is a letter. -/
theorem isAlphabetic_eq_false_of_isBlank {c : Char} (h : isBlank c = true) : isAlphabetic c = false := by
  have hascending : Ascending blankRanges := by
    unfold Ascending
    decide
  have hbound : ∀ r ∈ blankRanges, r.2 < 0xA000 := by decide
  have hlatin : ∀ r ∈ blankRanges, ∀ i < r.2 - r.1 + 1, inRanges alphabeticLatin (r.1 + i) = false := by decide
  have hscripts : ∀ r ∈ blankRanges, ∀ i < r.2 - r.1 + 1, inRanges alphabeticScripts (r.1 + i) = false := by
    decide +kernel
  obtain ⟨r, hr, hlow, hhigh⟩ := (inRanges_iff hascending _).1 h
  have hi : c.toNat - r.1 < r.2 - r.1 + 1 := by omega
  have hc : r.1 + (c.toNat - r.1) = c.toNat := by omega
  have hlt := hbound r hr
  unfold isAlphabetic
  split
  · exact hc ▸ hlatin r hr _ hi
  · rw [if_pos (by omega)]
    exact hc ▸ hscripts r hr _ hi

end Rowbase.Text

namespace Rowbase.Language

variable {cs cs' rest rest' : List Char} {c : Char} {t : Token} {ts ts' : List Token} {s s' : String}

/-! ## One token -/

theorem scan_of_end (h : skipBlanks false cs = []) : scan cs = ([], none) := by
  rw [scan]
  split
  · rfl
  · rename_i hcons
    rw [h] at hcons
    cases hcons

theorem scan_of_lapse {lapse : Lapse × Nat} (hskip : skipBlanks false cs = c :: rest)
    (h : scanToken c rest = .error lapse) : scan cs = ([], some lapse) := by
  rw [scan]
  split
  · rename_i hnil
    rw [hskip] at hnil
    cases hnil
  · rename_i hcons
    rw [hskip] at hcons
    cases hcons
    split
    · rename_i htoken
      cases h.symm.trans htoken
      rfl
    · rename_i htoken
      cases h.symm.trans htoken

theorem scan_of_token (hskip : skipBlanks false cs = c :: rest) (h : scanToken c rest = .ok (t, rest')) :
    scan cs = (t :: (scan rest').1, (scan rest').2) := by
  rw [scan]
  split
  · rename_i hnil
    rw [hskip] at hnil
    cases hnil
  · rename_i hcons
    rw [hskip] at hcons
    cases hcons
    split
    · rename_i htoken
      cases h.symm.trans htoken
    · rename_i htoken
      cases h.symm.trans htoken
      rfl

/-- Scanning depends on nothing but what is behind the blanks. -/
theorem scan_congr (h : skipBlanks false cs = skipBlanks false cs') : scan cs = scan cs' := by
  cases hskip : skipBlanks false cs' with
  | nil => rw [scan_of_end hskip, scan_of_end (h.trans hskip)]
  | cons c rest =>
    cases htoken : scanToken c rest with
    | error lapse => rw [scan_of_lapse hskip htoken, scan_of_lapse (h.trans hskip) htoken]
    | ok p => rw [scan_of_token hskip htoken, scan_of_token (h.trans hskip) htoken]

theorem scan_blank (cs : List Char) : scan (' ' :: cs) = scan cs := by
  apply scan_congr
  rw [skipBlanks]
  · rfl
  · exact fun rest h => by cases h

theorem skipBlanks_cons (hblank : Text.isBlank c = false) (hc : c ≠ '-') (rest : List Char) :
    skipBlanks false (c :: rest) = c :: rest := by
  rw [skipBlanks]
  · rw [hblank]
    rfl
  · exact fun rest' h => absurd h hc

/-! ## Where tokens end -/

/-- The characters that no word, number or sign goes on with. -/
def breaks : List Char := [' ', ',', '(', ')']

theorem forall_mem_breaks {p : Char → Prop} : (∀ c ∈ breaks, p c) ↔ p ' ' ∧ p ',' ∧ p '(' ∧ p ')' := by
  simp [breaks]

/-- Whether a text is empty or starts with one of these characters. -/
def Breaks : List Char → Prop
  | [] => True
  | c :: _ => c ∈ breaks

theorem Breaks.append (h : Breaks cs) (h' : Breaks cs') : Breaks (cs ++ cs') := by
  cases cs with
  | nil => exact h'
  | cons c cs => exact h

section
variable {p : Char → Bool}

theorem takeWhile_append_breaks (hp : ∀ c ∈ breaks, p c = false) (hcs : ∀ c ∈ cs, p c = true)
    (h : Breaks rest) : (cs ++ rest).takeWhile p = cs := by
  rw [List.takeWhile_append_of_pos hcs]
  cases rest with
  | nil => simp
  | cons c rest => simp [hp c h]

theorem dropWhile_append_breaks (hp : ∀ c ∈ breaks, p c = false) (hcs : ∀ c ∈ cs, p c = true)
    (h : Breaks rest) : (cs ++ rest).dropWhile p = rest := by
  rw [List.dropWhile_append_of_pos hcs]
  cases rest with
  | nil => rfl
  | cons c rest => simp [hp c h]

end

/-- Whether a text is scanned to these tokens wherever tokens end behind it. -/
def Spells (s : String) (ts : List Token) : Prop :=
  ∀ rest, Breaks rest → scan (s.toList ++ rest) = (ts ++ (scan rest).1, (scan rest).2)

/-! ## Putting spelled texts together -/

theorem spells_empty : Spells "" [] := by
  intro rest h
  rfl

theorem Spells.append (h : Spells s ts) (h' : Spells s' ts') (hs' : Breaks s'.toList) :
    Spells (s ++ s') (ts ++ ts') := by
  intro rest hrest
  rw [String.toList_append, List.append_assoc, h _ (hs'.append hrest), h' rest hrest, List.append_assoc]

theorem Spells.blank (h : Spells s ts) : Spells (" " ++ s) ts := by
  intro rest hrest
  rw [String.toList_append]
  exact (scan_blank _).trans (h rest hrest)

/-- A single token, whose first character tells what it is. -/
theorem spells_token (hs : s.toList = c :: cs) (hblank : Text.isBlank c = false) (hc : c ≠ '-')
    (ht : ∀ rest, Breaks rest → scanToken c (cs ++ rest) = .ok (t, rest)) : Spells s [t] := by
  intro rest hrest
  rw [hs]
  exact scan_of_token (skipBlanks_cons hblank hc _) (ht rest hrest)

/-- A sign of one character, whatever follows it. -/
theorem Spells.sign {sign : String} (hs : sign.toList = [c]) (hblank : Text.isBlank c = false) (hc : c ≠ '-')
    (ht : ∀ rest, scanToken c rest = .ok (t, rest)) (h : Spells s ts) : Spells (sign ++ s) (t :: ts) := by
  intro rest hrest
  rw [String.toList_append, hs]
  have hsign := scan_of_token (skipBlanks_cons hblank hc (s.toList ++ rest)) (ht _)
  rw [h rest hrest] at hsign
  exact hsign

theorem Spells.leftParen (h : Spells s ts) : Spells ("(" ++ s) (.leftParen :: ts) :=
  Spells.sign rfl (by decide) (by decide) (fun _ => rfl) h

theorem Spells.comma (h : Spells s ts) : Spells ("," ++ s) (.comma :: ts) :=
  Spells.sign rfl (by decide) (by decide) (fun _ => rfl) h

theorem spells_rightParen : Spells ")" [.rightParen] :=
  spells_token rfl (by decide) (by decide) fun _ _ => rfl

theorem spells_asterisk : Spells "*" [.asterisk] :=
  spells_token rfl (by decide) (by decide) fun _ _ => rfl

/-! ## Words -/

theorem isBlank_eq_false (h : isWordStart c = true) : Text.isBlank c = false := by
  cases hblank : Text.isBlank c with
  | false => rfl
  | true =>
    have hc : c = '_' := by simpa [isWordStart, Text.isAlphabetic_eq_false_of_isBlank hblank] using h
    rw [hc] at hblank
    exact absurd hblank (by decide)

/-- A word is scanned as the token that it is. -/
theorem spells_word (hstart : isWordStart c = true) (hcs : ∀ c ∈ cs, isWordChar c = true) :
    Spells (String.ofList (c :: cs)) [.ofWord (c :: cs)] := by
  have hbreaks : ∀ c ∈ breaks, isWordChar c = false := forall_mem_breaks.2 (by decide)
  have hhyphen : c ≠ '-' := by
    rintro rfl
    exact absurd hstart (by decide)
  refine spells_token String.toList_ofList (isBlank_eq_false hstart) hhyphen fun rest hrest => ?_
  rw [scanToken_word hstart, takeWhile_append_breaks hbreaks hcs hrest, dropWhile_append_breaks hbreaks hcs hrest]

theorem ofWord_text (k : Keyword) : Token.ofWord k.text.toList = .keyword k := by
  cases k <;> rfl

theorem spells_keyword (k : Keyword) : Spells k.text [.keyword k] := by
  have hstart : k.text.toList.all isWordStart = true := by cases k <;> decide
  have hchars : k.text.toList.all isWordChar = true := by cases k <;> decide
  have htoken := ofWord_text k
  rw [← String.ofList_toList (s := k.text)]
  cases hword : k.text.toList with
  | nil => cases k <;> cases hword
  | cons c cs =>
    rw [hword] at hstart hchars htoken
    rw [← htoken]
    exact spells_word (List.all_eq_true.1 hstart c (.head _)) fun c' hc' => List.all_eq_true.1 hchars c' (.tail _ hc')

/-- Whether a name can be written as it is: it is a word and no keyword. -/
def Bare (name : String) : Prop :=
  ∃ c cs, name.toList = c :: cs ∧ isWordStart c = true ∧ cs.all isWordChar = true ∧ Keyword.ofWord? name = none

theorem spells_name (h : Bare s) : Spells s [.name s] := by
  obtain ⟨c, cs, hs, hstart, hcs, hkeyword⟩ := h
  have hname : s = String.ofList (c :: cs) := by rw [← hs, String.ofList_toList]
  have htoken : Token.ofWord (c :: cs) = .name s := by
    rw [Token.ofWord, ← hname, hkeyword]
  rw [← htoken, hname]
  exact spells_word hstart (List.all_eq_true.1 hcs)

/-! ## Comparisons -/

theorem spells_comparison (op : Comparison) : Spells op.text [.comparison op] := by
  cases op with
  | lt | gt =>
    refine spells_token rfl (by decide) (by decide) fun rest hrest => ?_
    cases rest with
    | nil => rfl
    | cons c rest =>
      obtain rfl | rfl | rfl | rfl : c = ' ' ∨ c = ',' ∨ c = '(' ∨ c = ')' := by
        simpa [Breaks, breaks] using hrest
      all_goals rfl
  | _ => exact spells_token rfl (by decide) (by decide) fun rest _ => rfl

/-! ## Texts in quotes -/

/-- A text with its quotes doubled is read up to the quote behind it. -/
theorem readQuoted_doubled {quote : Char} (hrest : rest.head? ≠ some quote) (cs read : List Char) :
    readQuoted quote read ((cs.flatMap fun c => if c = quote then [c, c] else [c]) ++ quote :: rest) =
      some (read.reverse ++ cs, rest) := by
  induction cs generalizing read with
  | nil =>
    cases rest with
    | nil => simp [readQuoted]
    | cons d rest =>
      have hd : d ≠ quote := by simpa using hrest
      simp [readQuoted, hd]
  | cons c cs ih =>
    by_cases hc : c = quote
    · subst hc
      simpa [readQuoted] using ih (c :: read)
    · rw [List.flatMap_cons, if_neg hc, List.append_assoc, List.singleton_append]
      have htail := ih (c :: read)
      generalize (cs.flatMap fun c => if c = quote then [c, c] else [c]) ++ quote :: rest = tail at htail
      cases tail with
      | nil => cases htail
      | cons d tail => simpa [readQuoted, hc] using htail

theorem spells_quoted (s : String) : Spells (quoted s) [.text s] := by
  have hs : (quoted s).toList =
      '\'' :: ((s.toList.flatMap fun c => if c = '\'' then [c, c] else [c]) ++ ['\'']) := by
    simp [quoted, String.toList_append]
  refine spells_token hs (by decide) (by decide) fun rest hrest => ?_
  have hquote : rest.head? ≠ some '\'' := by
    cases rest with
    | nil => simp
    | cons c rest =>
      have hbreaks : '\'' ∉ breaks := by decide
      intro hc
      cases hc
      exact hbreaks hrest
  rw [List.append_assoc, List.singleton_append, scanToken, readQuoted_doubled hquote]
  simp

/-! ## Integers -/

theorem readNumber_digits {n : Nat} (hn : n < integerBound) (hrest : Breaks rest) :
    readNumber (Nat.toDigits 10 n ++ rest) = (some (.integer n), rest) := by
  have hdigits : ∀ c ∈ Nat.toDigits 10 n, c.isDigit = true := fun c hc =>
    Nat.isDigit_of_mem_toDigits (by decide) (by decide) hc
  have hbreaks : ∀ c ∈ breaks, c.isDigit = false := forall_mem_breaks.2 (by decide)
  have hinteger : readNumber.readInteger (Nat.toDigits 10 n) = some (.integer n) := by
    simp [readNumber.readInteger, Nat.ofDigitChars_toDigits, hn]
  have hpoint : ∀ rest', rest ≠ '.' :: rest' := by
    have hbreaks : '.' ∉ breaks := by decide
    rintro rest' rfl
    exact hbreaks hrest
  simp only [readNumber]
  rw [takeWhile_append_breaks hbreaks hdigits hrest, dropWhile_append_breaks hbreaks hdigits hrest, hinteger]
  split
  · exact absurd rfl (hpoint _)
  · rfl

theorem isBlank_eq_false_of_isDigit (h : c.isDigit = true) : Text.isBlank c = false := by
  have hlow : 0x30 ≤ c.toNat := (Char.isDigit_iff_toNat.1 h).1
  have hhigh : c.toNat ≤ 0x39 := (Char.isDigit_iff_toNat.1 h).2
  have htab : ¬ c.toNat ≤ 0xD := by omega
  have hspace : ¬ c.toNat ≤ 0x20 := by omega
  have hnext : c.toNat ≤ 0x85 := by omega
  simp [Text.isBlank, Text.blankRanges, Text.inRanges, htab, hspace, hnext]
  omega

theorem toDigits_eq_cons (n : Nat) : ∃ c cs, Nat.toDigits 10 n = c :: cs ∧ c.isDigit = true := by
  cases hdigits : Nat.toDigits 10 n with
  | nil => exact absurd hdigits Nat.toDigits_ne_nil
  | cons c cs =>
    have hc : c ∈ Nat.toDigits 10 n := hdigits ▸ List.mem_cons_self
    exact ⟨c, cs, rfl, Nat.isDigit_of_mem_toDigits (by decide) (by decide) hc⟩

section
variable (hd : c.isDigit = true) (hread : ∀ rest, Breaks rest → readNumber (c :: (cs ++ rest)) = (some t, rest))
include hd hread

theorem spells_number (hs : s.toList = c :: cs) : Spells s [t] := by
  have hhyphen : c ≠ '-' := by
    rintro rfl
    exact absurd hd (by decide)
  exact spells_token hs (isBlank_eq_false_of_isDigit hd) hhyphen fun rest hrest => scanToken_digit hd (hread rest hrest)

/-- A hyphen before a number negates it; it does not start a comment. -/
theorem spells_negative (hs : s.toList = '-' :: c :: cs) : Spells s [t.negate] := by
  intro rest hrest
  have hskip : skipBlanks false ('-' :: c :: (cs ++ rest)) = '-' :: c :: (cs ++ rest) := by
    rw [skipBlanks]
    · rfl
    · rintro rest' - h
      rw [(List.cons.inj h).1] at hd
      exact absurd hd (by decide)
  rw [hs]
  exact scan_of_token hskip (scanToken_negative hd (hread rest hrest))

end

/-- The integers that are scanned have 64 bits without their sign; so the least one with it is not among them. -/
theorem spells_integer {n : Int} (hn : n.natAbs < integerBound) : Spells (toString n) [.integer n] := by
  obtain ⟨c, cs, hdigits, hd⟩ := toDigits_eq_cons n.natAbs
  have hread : ∀ rest, Breaks rest → readNumber (c :: (cs ++ rest)) = (some (.integer n.natAbs), rest) := by
    intro rest hrest
    rw [← List.cons_append, ← hdigits]
    exact readNumber_digits hn hrest
  cases n with
  | ofNat n =>
    have hs : (toString (Int.ofNat n)).toList = Nat.toDigits 10 n := by simp [toString, Int.repr, Nat.repr]
    exact spells_number hd hread (hs.trans hdigits)
  | negSucc n =>
    have hs : (toString (Int.negSucc n)).toList = '-' :: Nat.toDigits 10 (n + 1) := by
      simp [toString, Int.repr, Nat.repr, String.toList_append]
    exact spells_negative hd hread (hs.trans (congrArg (List.cons '-') hdigits))

/-! ## What is scanned -/

/-- Whether a token, if it is an integer, has 64 bits without its sign. -/
def Token.Bounded : Token → Prop
  | integer n => n.natAbs < integerBound
  | _ => True

theorem bounded_readNumber (h : readNumber cs = (some t, rest)) : t.Bounded := by
  have hinteger : ∀ digits t, readNumber.readInteger digits = some t → t.Bounded := by
    intro digits t ht
    rw [readNumber.readInteger] at ht
    split at ht
    · cases ht
      assumption
    · cases ht
  simp only [readNumber] at h
  split at h
  · split at h
    · cases h
      trivial
    · exact hinteger _ _ (Prod.mk.inj h).1
  · exact hinteger _ _ (Prod.mk.inj h).1

theorem bounded_negate (h : t.Bounded) : t.negate.Bounded := by
  cases t with
  | integer n =>
    change (-n).natAbs < integerBound
    rw [Int.natAbs_neg]
    exact h
  | _ => trivial

theorem bounded_ofWord (cs : List Char) : (Token.ofWord cs).Bounded := by
  unfold Token.ofWord
  dsimp only
  split <;> trivial

theorem bounded_sign : ∀ sign ∈ signs, sign.2.Bounded := by
  rw [forall_mem_signs]
  simp [Token.Bounded]

theorem bounded_scanToken (h : scanToken c rest = .ok (t, rest')) : t.Bounded := by
  cases scans_of_scanToken h with
  | sign hsign => exact bounded_sign _ hsign
  | lt | gt | text | name => trivial
  | negative hd hread => exact bounded_negate (bounded_readNumber hread)
  | number hd hread => exact bounded_readNumber hread
  | word => exact bounded_ofWord _

/-- The integers of a text have 64 bits. -/
theorem bounded_scan (cs : List Char) : ∀ t ∈ (scan cs).1, t.Bounded := by
  fun_induction scan cs with
  | case1 cs hskip => exact List.forall_mem_nil _
  | case2 cs c rest hskip lapse htoken => exact List.forall_mem_nil _
  | case3 cs c rest hskip t rest' htoken ts lapse hscan ih =>
    rw [hscan] at ih
    exact List.forall_mem_cons.2 ⟨bounded_scanToken htoken, ih⟩

theorem ofText_eq_ok_iff {text : String} : Token.ofText text = .ok ts ↔ scan text.toList = (ts, none) := by
  rw [Token.ofText, Token.scan]
  cases scan text.toList with
  | mk ts' lapse => cases lapse <;> simp

theorem ofText_eq_ok {text : String} (h : Token.ofText text = .ok ts) : (scan text.toList).1 = ts :=
  congrArg Prod.fst (ofText_eq_ok_iff.1 h)

/-- A text that spells tokens has just these tokens. -/
theorem Spells.ofText (h : Spells s ts) : Token.ofText s = .ok ts := by
  have hempty : scan [] = ([], none) := scan_of_end rfl
  have hs := h [] trivial
  rw [List.append_nil, hempty, List.append_nil] at hs
  exact ofText_eq_ok_iff.2 hs

end Rowbase.Language
