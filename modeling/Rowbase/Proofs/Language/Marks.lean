import Rowbase.Proofs.Decimal.Digits
import Rowbase.Proofs.Language.Written

/-! # What a text holds for its tokens

A name that is not bare is scanned only where quotes stand around it, and a float only where there is a point. So the
tokens of a text are bounds for the quotes and points in it. -/
namespace Rowbase.Language

variable {c d quote : Char} {cs rest rest' read s : List Char} {t : Token}

theorem bare_iff {name : String} : Bare name ↔ name.toList.head?.any isWordStart = true ∧
    name.toList.tail.all isWordChar = true ∧ Keyword.ofWord? name = none := by
  unfold Bare
  cases name.toList with
  | nil => simp
  | cons c cs => simp

instance : DecidablePred Bare := fun _ => decidable_of_iff _ bare_iff.symm

/-- How many quotes or points a token takes at the least, those aside that stand in every text of it as well. -/
def Token.marks (c : Char) : Token → Nat
  | .name s => if Bare s then 0 else s.toList.count c + if c = '"' then 2 else 0
  | .text s => s.toList.count c
  | .float _ => if c = '.' then 1 else 0
  | _ => 0

/-! ## Scanning -/

theorem count_skipBlanks_le (inComment : Bool) (cs : List Char) : (skipBlanks inComment cs).count c ≤ cs.count c := by
  fun_induction skipBlanks inComment cs <;> simp_all [List.count_cons] <;> omega

theorem count_readQuoted_of_ne (hc : c ≠ quote) (h : readQuoted quote read cs = some (s, rest)) :
    s.count c + rest.count c = read.count c + cs.count c := by
  have hquote : quote ≠ c := hc.symm
  fun_induction readQuoted quote read cs with
  | case1 read | case3 read d hd => cases h
  | case2 read =>
    cases h
    simp [hquote]
  | case4 read d e tail hd ih =>
    have hcount := ih h
    simp only [List.count_cons] at hcount ⊢
    omega
  | case5 read d tail hd ih =>
    have hcount := ih h
    obtain rfl : d = quote := Classical.not_not.1 hd
    simpa [List.count_cons, hquote] using hcount
  | case6 read d e tail hd he =>
    cases h
    obtain rfl : d = quote := Classical.not_not.1 hd
    simp [List.count_cons, hquote]

/-- The quotes in a text in quotes are doubled, and one stands behind it. -/
theorem count_readQuoted_self (h : readQuoted quote read cs = some (s, rest)) :
    2 * s.count quote + 1 + rest.count quote = 2 * read.count quote + cs.count quote := by
  fun_induction readQuoted quote read cs with
  | case1 read | case3 read d hd => cases h
  | case2 read =>
    cases h
    simp
  | case4 read d e tail hd ih =>
    have hcount := ih h
    simp only [List.count_cons, beq_iff_eq, if_neg hd] at hcount ⊢
    omega
  | case5 read d tail hd ih =>
    have hcount := ih h
    obtain rfl : d = quote := Classical.not_not.1 hd
    simp only [List.count_cons, beq_self_eq_true, if_true] at hcount ⊢
    omega
  | case6 read d e tail hd he =>
    cases h
    obtain rfl : d = quote := Classical.not_not.1 hd
    simp only [List.count_reverse, List.count_cons, beq_self_eq_true, if_true]
    omega

section
variable (hc : c = '"' ∨ c = '.')
include hc

theorem marks_readNumber (h : readNumber cs = (some t, rest)) : t.marks c + rest.count c ≤ cs.count c := by
  have hdrop : (cs.dropWhile Char.isDigit).count c ≤ cs.count c := (List.dropWhile_sublist _).count_le c
  have hinteger : ∀ digits, readNumber.readInteger digits = some t → t.marks c = 0 := by
    intro digits ht
    rw [readNumber.readInteger] at ht
    split at ht
    · cases ht
      rfl
    · cases ht
  simp only [readNumber] at h
  split at h
  · rename_i d tail heq
    split at h
    · -- of a float the point is dropped with the digits
      cases h
      have hfraction : ((d :: tail).dropWhile Char.isDigit).count c ≤ (d :: tail).count c :=
        (List.dropWhile_sublist _).count_le c
      rw [heq, List.count_cons] at hdrop
      rcases hc with rfl | rfl
      · simp only [Token.marks]
        simp at hdrop ⊢
        omega
      · simp only [Token.marks]
        simp at hdrop ⊢
        omega
    · rw [hinteger _ (Prod.mk.inj h).1, ← (Prod.mk.inj h).2]
      omega
  · rw [hinteger _ (Prod.mk.inj h).1, ← (Prod.mk.inj h).2]
    omega

omit hc in
theorem marks_negate (t : Token) : t.negate.marks c = t.marks c := by
  cases t <;> rfl

omit hc in
/-- A word that is no keyword is a bare name. -/
theorem marks_ofWord (hstart : isWordStart d = true) (rest : List Char) :
    (Token.ofWord (d :: rest.takeWhile isWordChar)).marks c = 0 := by
  unfold Token.ofWord
  dsimp only
  split
  · rfl
  · rename_i hkeyword
    refine if_pos ⟨d, rest.takeWhile isWordChar, String.toList_ofList, hstart, ?_, hkeyword⟩
    exact List.all_takeWhile

omit hc in
theorem marks_sign : ∀ sign ∈ signs, sign.2.marks c = 0 := by
  rw [forall_mem_signs]
  simp [Token.marks]

/-- The quotes around a name are marks of it only where they are counted. -/
theorem marks_quotedName (h : readQuoted '"' [] rest = some (s, rest')) :
    (Token.name (String.ofList s)).marks c + rest'.count c ≤ ('"' :: rest).count c := by
  simp only [Token.marks, String.toList_ofList]
  rcases hc with rfl | rfl
  · have hcount := count_readQuoted_self h
    simp only [List.count_cons, List.count_nil, beq_self_eq_true, if_true] at hcount ⊢
    split <;> omega
  · have hcount := count_readQuoted_of_ne (c := '.') (by decide) h
    simp only [List.count_cons, List.count_nil] at hcount ⊢
    split <;> simp <;> omega

/-- A token that is scanned takes its marks from the text. -/
theorem marks_scanToken (h : scanToken d rest = .ok (t, rest')) : t.marks c + rest'.count c ≤ (d :: rest).count c := by
  cases scans_of_scanToken h with
  | @sign _ cs _ hsign =>
    rw [marks_sign _ hsign, Nat.zero_add]
    exact ((List.sublist_append_right cs rest').trans (List.sublist_cons_self d _)).count_le c
  | lt | gt =>
    simp only [Token.marks, List.count_cons]
    omega
  | text hread =>
    have hne : c ≠ '\'' := by rcases hc with rfl | rfl <;> decide
    have hcount := count_readQuoted_of_ne hne hread
    simp only [Token.marks, String.toList_ofList, List.count_cons, List.count_nil] at hcount ⊢
    omega
  | name hread => exact marks_quotedName hc hread
  | negative hd hread =>
    have hmarks := marks_readNumber hc hread
    rw [marks_negate, List.count_cons]
    omega
  | number hd hread => exact marks_readNumber hc hread
  | word hstart =>
    rw [marks_ofWord hstart, Nat.zero_add]
    exact ((List.dropWhile_sublist _).trans (List.sublist_cons_self d rest)).count_le c

/-- The marks of all tokens of a text are in the text. -/
theorem marks_scan (cs : List Char) : ((scan cs).1.map (Token.marks c)).sum ≤ cs.count c := by
  fun_induction scan cs with
  | case1 cs hskip | case2 cs d rest hskip lapse htoken => exact Nat.zero_le _
  | case3 cs d rest hskip t rest' htoken ts lapse hscan ih =>
    have hmarks := marks_scanToken hc htoken
    have hblanks : (d :: rest).count c ≤ cs.count c := hskip ▸ count_skipBlanks_le false cs
    simp only [hscan] at ih
    rw [List.map_cons, List.sum_cons]
    omega

end

end Rowbase.Language
