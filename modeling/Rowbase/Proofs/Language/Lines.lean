import Rowbase.Proofs.Language.Spelling

/-! # Texts line by line

A line break ends every comment and is part of no word, number or sign, so a token stops at the same place whether a
line break or nothing follows it. What stands on the lines below a text that can be scanned is therefore scanned as if
it stood alone. Only a text in quotes goes on over a line break, and one that was closed is not reopened by it. -/
namespace Rowbase.Language

variable {cs rest rest' read s below : List Char} {c d quote : Char} {t : Token} {ts us : List Token}

/-! ## Where the readers stop -/

section
variable {p : Char → Bool} (hp : p '\n' = false)
include hp

theorem takeWhile_line (cs below : List Char) : (cs ++ '\n' :: below).takeWhile p = cs.takeWhile p := by
  rw [List.takeWhile_append, List.takeWhile_cons_of_neg (by simp [hp]), List.append_nil]
  split
  · rename_i h
    exact ((List.takeWhile_prefix p).eq_of_length h).symm
  · rfl

theorem dropWhile_line (cs below : List Char) :
    (cs ++ '\n' :: below).dropWhile p = cs.dropWhile p ++ '\n' :: below := by
  rw [List.dropWhile_append, List.dropWhile_cons_of_neg (by simp [hp])]
  split
  · rename_i h
    rw [List.isEmpty_iff.1 h, List.nil_append]
  · rfl

end

/-- What is not ahead, other than a line break, is not ahead with another line below either. -/
theorem line_ne_cons (hd : d ≠ '\n') (h : ∀ tail, cs = d :: tail → False) (tail : List Char)
    (heq : cs ++ '\n' :: below = d :: tail) : False := by
  cases cs with
  | nil => exact hd (List.cons.inj heq).1.symm
  | cons c cs => exact h cs (by rw [(List.cons.inj heq).1])

theorem skipBlanks_line (inComment : Bool) (cs below : List Char) : skipBlanks inComment (cs ++ '\n' :: below) =
    if skipBlanks inComment cs = [] then skipBlanks false below else skipBlanks inComment cs ++ '\n' :: below := by
  have hbreak : Text.isBlank '\n' = true := by decide
  fun_induction skipBlanks inComment cs with
  | case1 inComment => cases inComment <;> simp [skipBlanks, hbreak]
  | case2 rest ih => simpa [skipBlanks] using ih
  | case3 c rest hc ih => simpa [skipBlanks, hc] using ih
  | case4 rest ih => simpa [skipBlanks] using ih
  | case5 c rest hc hblank ih =>
    rw [List.cons_append, skipBlanks, if_pos hblank, ih]
    exact fun tail hhyphen => line_ne_cons (by decide) (fun tail => hc tail hhyphen) tail
  | case6 c rest hc hblank =>
    rw [List.cons_append, skipBlanks, if_neg hblank, if_neg (List.cons_ne_nil c rest)]
    exact fun tail hhyphen => line_ne_cons (by decide) (fun tail => hc tail hhyphen) tail

theorem readQuoted_line (hquote : quote ≠ '\n') (h : readQuoted quote read cs = some (s, rest)) (below : List Char) :
    readQuoted quote read (cs ++ '\n' :: below) = some (s, rest ++ '\n' :: below) := by
  fun_induction readQuoted quote read cs with
  | case1 read => cases h
  | case2 read =>
    cases h
    simp [readQuoted, hquote.symm]
  | case3 read d hd => cases h
  | case4 read d e tail hd ih =>
    have htail := ih h
    simp only [List.cons_append, readQuoted, if_pos hd] at htail ⊢
    exact htail
  | case5 read d tail hd ih =>
    have htail := ih h
    simp only [List.cons_append, readQuoted, if_neg hd] at htail ⊢
    simpa using htail
  | case6 read d e tail hd he =>
    cases h
    simp only [List.cons_append, readQuoted, if_neg hd, if_neg he]

/-- A point at the end of a line belongs to no number, since no digit follows it. -/
theorem readNumber_line (cs below : List Char) :
    readNumber (cs ++ '\n' :: below) = ((readNumber cs).1, (readNumber cs).2 ++ '\n' :: below) := by
  have hdigit : Char.isDigit '\n' = false := by decide
  simp only [readNumber]
  rw [takeWhile_line hdigit, dropWhile_line hdigit]
  cases cs.dropWhile Char.isDigit with
  | nil => rfl
  | cons point tail =>
    by_cases hpoint : point = '.'
    · subst hpoint
      cases tail with
      | nil => simp [hdigit]
      | cons d tail =>
        by_cases hd : d.isDigit = true
        · simp only [List.cons_append, if_pos hd]
          rw [← List.cons_append, takeWhile_line hdigit, dropWhile_line hdigit]
        · simp only [List.cons_append, if_neg hd]
    · simp [hpoint]

theorem isDigit_head_line (cs below : List Char) :
    ((cs ++ '\n' :: below).head?.map Char.isDigit).getD false = (cs.head?.map Char.isDigit).getD false := by
  cases cs <;> rfl

theorem Scans.line (h : Scans c rest t rest') (below : List Char) :
    Scans c (rest ++ '\n' :: below) t (rest' ++ '\n' :: below) := by
  cases h with
  | @sign _ cs _ hsign =>
    rw [List.append_assoc]
    exact .sign hsign _
  | lt hle hneq => exact .lt (line_ne_cons (by decide) hle) (line_ne_cons (by decide) hneq)
  | gt hge => exact .gt (line_ne_cons (by decide) hge)
  | text hread => exact .text (readQuoted_line (by decide) hread below)
  | name hread => exact .name (readQuoted_line (by decide) hread below)
  | negative hd hread =>
    have hline := readNumber_line rest below
    rw [hread] at hline
    exact .negative ((isDigit_head_line rest below).trans hd) hline
  | number hd hread =>
    have hline := readNumber_line (c :: rest) below
    rw [hread] at hline
    exact .number hd hline
  | word hstart =>
    have hword : isWordChar '\n' = false := by decide
    rw [← takeWhile_line hword rest below, ← dropWhile_line hword]
    exact .word hstart _

/-- A token that was scanned up to the end of a line or before it is the same with another line below. -/
theorem scanToken_line (h : scanToken c rest = .ok (t, rest')) (below : List Char) :
    scanToken c (rest ++ '\n' :: below) = .ok (t, rest' ++ '\n' :: below) :=
  ((scans_of_scanToken h).line below).scanToken_eq_ok

/-! ## Whole texts -/

/-- What stands below a text without a lapse is scanned as if it stood alone. By induction on the tokens of the text
above. -/
theorem scan_line (h : (scan cs).2 = none) (below : List Char) :
    scan (cs ++ '\n' :: below) = ((scan cs).1 ++ (scan below).1, (scan below).2) := by
  fun_induction scan cs with
  | case1 cs hskip =>
    have hblanks := skipBlanks_line false cs below
    rw [if_pos hskip] at hblanks
    exact scan_congr hblanks
  | case2 cs c rest hskip lapse htoken => cases h
  | case3 cs c rest hskip t rest' htoken ts lapse hscan ih =>
    have hblanks := skipBlanks_line false cs below
    rw [hskip, if_neg (List.cons_ne_nil c rest)] at hblanks
    rw [scan_of_token hblanks (scanToken_line htoken below)]
    rw [hscan] at ih
    rw [ih h]
    rfl

/-- Two texts on lines of their own have the tokens of the upper one and then those of the lower one. -/
theorem Token.ofText_lines {above below : String} (h : Token.ofText above = .ok ts)
    (h' : Token.ofText below = .ok us) : Token.ofText (above ++ "\n" ++ below) = .ok (ts ++ us) := by
  rw [ofText_eq_ok_iff] at h h' ⊢
  have hline := scan_line (congrArg Prod.snd h) below.toList
  rw [h, h'] at hline
  rwa [String.append_assoc, String.toList_append, String.toList_append]

/-- The quote above is in a comment, which ends with its line, and the signs on either side of the line break stay
apart. -/
theorem Token.ofText_lines_apart :
    Token.ofText "a < -- it's" = .ok [.name "a", .comparison .lt] ∧
      Token.ofText "= 'x'" = .ok [.comparison .eq, .text "x"] ∧
      Token.ofText ("a < -- it's" ++ "\n" ++ "= 'x'") =
        .ok [.name "a", .comparison .lt, .comparison .eq, .text "x"] := by
  have habove : Language.scan "a < -- it's".toList = ([.name "a", .comparison .lt], none) := by
    have hname : scanToken 'a' " < -- it's".toList = .ok (.name "a", " < -- it's".toList) := rfl
    have hless : scanToken '<' " -- it's".toList = .ok (.comparison .lt, " -- it's".toList) := rfl
    rw [scan_of_token rfl hname, scan_of_token rfl hless, scan_of_end rfl]
  have hbelow : Language.scan "= 'x'".toList = ([.comparison .eq, .text "x"], none) := by
    have hequal : scanToken '=' " 'x'".toList = .ok (.comparison .eq, " 'x'".toList) := rfl
    have htext : scanToken '\'' "x'".toList = .ok (.text "x", []) := rfl
    rw [scan_of_token rfl hequal, scan_of_token rfl htext, scan_of_end rfl]
  have habove := ofText_eq_ok_iff.2 habove
  have hbelow := ofText_eq_ok_iff.2 hbelow
  exact ⟨habove, hbelow, Token.ofText_lines habove hbelow⟩

end Rowbase.Language
