import Mathlib.Algebra.Order.BigOperators.Group.List
import Rowbase.Proofs.Language.Taking

/-! # Which statements are read back from their text

Names are written without quotes, and whole floats without a point. So the text of a statement reads as the statement
again just if all its names are bare and all its floats have a fraction: any other statement has a token for which its
text does not hold the quotes or the point. -/
namespace Rowbase.Language

open Decimal

/-! ## Which statements -/

/-- Whether all names in an expression are bare and all its floats have a fraction. -/
def Expr.Lasting (e : Expr) : Prop :=
  (∀ name ∈ e.names, Bare name) ∧ ∀ x, .float x ∈ e.literals → x.magnitude.Fractional

/-- Whether all names in a statement are bare and all its floats have a fraction. -/
def Statement.Lasting (s : Statement) : Prop := (∀ name ∈ s.names, Bare name) ∧ ∀ e ∈ s.expressions, e.Lasting

variable {c d : Char} {cs rest rest' : List Char} {t : Token} {x : Binary64}

/-! ## Floats with a fraction are spelled -/

theorem rounded_readNumber (h : readNumber cs = (some (.float x), rest)) : x.magnitude.Rounded := by
  have hinteger : ∀ digits, readNumber.readInteger digits ≠ some (.float x) := by
    intro digits ht
    rw [readNumber.readInteger] at ht
    split at ht <;> cases ht
  simp only [readNumber] at h
  split at h
  · split at h
    · cases h
      unfold Binary64.ofDigits
      dsimp only
      refine Magnitude.rounded_ofRatio _ ?_
      exact Nat.pow_pos (by decide)
    · exact absurd (Prod.mk.inj h).1 (hinteger _)
  · exact absurd (Prod.mk.inj h).1 (hinteger _)

theorem ofWord_ne_float (word : List Char) : Token.ofWord word ≠ .float x := by
  unfold Token.ofWord
  dsimp only
  split <;> exact fun h => by cases h

theorem rounded_scanToken (h : scanToken d rest = .ok (t, rest')) (ht : t = .float x) : x.magnitude.Rounded := by
  cases scans_of_scanToken h with
  | sign hsign =>
    have hfloat : ∀ sign ∈ signs, sign.2 ≠ .float x := by
      rw [forall_mem_signs]
      simp
    exact absurd ht (hfloat _ hsign)
  | lt | gt | text | name => cases ht
  | @negative _ t _ hd hread =>
    cases t with
    | float y =>
      cases ht
      have hy : y.magnitude.Rounded := rounded_readNumber hread
      exact hy
    | _ => cases ht
  | number hd hread => exact rounded_readNumber (ht ▸ hread)
  | word => exact absurd ht (ofWord_ne_float _)

/-- The floats of a text are rounded. -/
theorem rounded_scan (cs : List Char) : ∀ x, .float x ∈ (scan cs).1 → x.magnitude.Rounded := by
  fun_induction scan cs with
  | case1 cs hskip | case2 cs d rest hskip lapse htoken => exact fun x hx => by cases hx
  | case3 cs d rest hskip t rest' htoken ts lapse hscan ih =>
    simp only [hscan] at ih
    intro x hx
    rcases List.mem_cons.1 hx with rfl | hx
    · exact rounded_scanToken htoken rfl
    · exact ih x hx

theorem readNumber_point {whole fraction : List Char} (hne : fraction ≠ [])
    (hdigits : ∀ c ∈ whole ++ fraction, c.isDigit = true) (hrest : Breaks rest) :
    readNumber (whole ++ '.' :: fraction ++ rest) = (some (.float (.ofDigits whole fraction)), rest) := by
  rw [List.forall_mem_append] at hdigits
  have hbreaks : ∀ c ∈ breaks, c.isDigit = false := forall_mem_breaks.2 (by decide)
  have hpoint : Char.isDigit '.' = false := by decide
  have hwhole : (whole ++ '.' :: fraction ++ rest).takeWhile Char.isDigit = whole := by
    rw [List.append_assoc, List.takeWhile_append_of_pos hdigits.1]
    simp [hpoint]
  have hbehind : (whole ++ '.' :: fraction ++ rest).dropWhile Char.isDigit = '.' :: (fraction ++ rest) := by
    rw [List.append_assoc, List.dropWhile_append_of_pos hdigits.1]
    simp [hpoint]
  obtain ⟨d, tail, rfl⟩ := List.exists_cons_of_ne_nil hne
  simp only [readNumber]
  rw [hwhole, hbehind]
  change (if d.isDigit = true then
    (some (Token.float (.ofDigits whole ((d :: tail ++ rest).takeWhile Char.isDigit))),
      (d :: tail ++ rest).dropWhile Char.isDigit) else _) = _
  rw [if_pos (hdigits.2 d (.head _)), takeWhile_append_breaks hbreaks hdigits.2 hrest,
    dropWhile_append_breaks hbreaks hdigits.2 hrest]

/-- A float with a fraction is spelled as it is written. -/
theorem spells_float (hr : x.magnitude.Rounded) (hx : x.magnitude.Fractional) : Spells x.text [.float x] := by
  obtain ⟨negative, magnitude⟩ := x
  obtain ⟨whole, fraction, htext, hwhole, hfraction, hdigits, hvalue⟩ := Magnitude.text_of_fractional hx
  obtain ⟨d, tail, rfl⟩ := List.exists_cons_of_ne_nil hwhole
  have hd : d.isDigit = true := hdigits d (.head _)
  have hofDigits : Binary64.ofDigits (d :: tail) fraction = ⟨false, magnitude⟩ := by
    rw [Binary64.ofDigits, hvalue hr]
  have hread : ∀ rest, Breaks rest → readNumber (d :: (tail ++ '.' :: fraction ++ rest)) =
      (some (.float ⟨false, magnitude⟩), rest) := by
    intro rest hrest
    rw [← hofDigits]
    exact readNumber_point hfraction hdigits hrest
  cases negative with
  | false =>
    have hs : (Binary64.text ⟨false, magnitude⟩).toList = d :: (tail ++ '.' :: fraction) := by
      simp [Binary64.text, htext]
    exact spells_number hd hread hs
  | true =>
    have hs : (Binary64.text ⟨true, magnitude⟩).toList = '-' :: d :: (tail ++ '.' :: fraction) := by
      simp [Binary64.text, htext, String.toList_append]
    exact spells_negative hd hread hs

/-! ## What is written holds no more marks than its tokens -/

theorem count_digits (hc : c.isDigit = false) (h : ∀ d ∈ cs, d.isDigit = true) : cs.count c = 0 := by
  refine List.count_eq_zero.2 fun hm => ?_
  rw [h c hm] at hc
  cases hc

theorem count_quoted {s : String} (hc : c ≠ '\'') : (quoted s).toList.count c = s.toList.count c := by
  have hquote : '\'' ≠ c := hc.symm
  have hdoubled : ∀ cs : List Char, (cs.flatMap fun d => if d = '\'' then [d, d] else [d]).count c = cs.count c := by
    intro cs
    induction cs with
    | nil => rfl
    | cons d cs ih =>
      by_cases hd : d = '\''
      · simp [hd, ih, hquote]
      · simp [hd, ih, List.count_cons]
  simp [quoted, String.toList_append, hdoubled, hquote]

theorem marks_loose (ts : List Token) : ((loose ts).map (Token.marks c)).sum = (ts.map (Token.marks c)).sum := by
  have hsingle : ∀ t : Token, (t.loose.map (Token.marks c)).sum = t.marks c := by
    intro t
    cases t with
    | name s =>
      by_cases hs : Bare s
      · simp [Token.loose, Token.marks, hs]
      · simp [Token.loose, hs]
    | text s | float x => simp [Token.loose]
    | _ => rfl
  induction ts with
  | nil => rfl
  | cons t ts ih => simp [hsingle, ih]

/-- Where one of two functions is at most the other, but its sum is not less, the two are equal. -/
theorem eq_of_sum_le {α : Type} {f g : α → Nat} : ∀ {as : List α}, (∀ a ∈ as, f a ≤ g a) →
    (as.map g).sum ≤ (as.map f).sum → ∀ a ∈ as, f a = g a
  | [], _, _ => List.forall_mem_nil _
  | a :: as, hle, hsum => by
    have hothers := List.sum_le_sum fun b hb => hle b (.tail _ hb)
    have hfirst := hle a (.head _)
    rw [List.map_cons, List.map_cons, List.sum_cons, List.sum_cons] at hsum
    exact List.forall_mem_cons.2
      ⟨by omega, eq_of_sum_le (fun b hb => hle b (.tail _ hb)) (by omega)⟩

section
variable (hc : c = '"' ∨ c = '.')
include hc

theorem isDigit_eq_false : c.isDigit = false := by
  rcases hc with rfl | rfl <;> decide

theorem count_text (x : Binary64) : x.text.toList.count c = x.magnitude.text.toList.count c := by
  have hhyphen : '-' ≠ c := by rcases hc with rfl | rfl <;> decide
  rw [Binary64.text]
  split <;> simp [String.toList_append, hhyphen]

theorem count_text_of_fractional (hx : x.magnitude.Fractional) :
    x.text.toList.count c = if c = '.' then 1 else 0 := by
  obtain ⟨whole, fraction, htext, -, -, hdigits, -⟩ := Magnitude.text_of_fractional hx
  rw [List.forall_mem_append] at hdigits
  have hdigit := isDigit_eq_false hc
  rw [count_text hc, htext, String.toList_ofList, List.count_append, List.count_cons, count_digits hdigit hdigits.1,
    count_digits hdigit hdigits.2]
  rcases hc with rfl | rfl <;> rfl

theorem count_text_of_not_fractional (hx : ¬ x.magnitude.Fractional) : x.text.toList.count c = 0 := by
  rw [count_text hc]
  rcases Magnitude.text_of_not_fractional hx with hinf | hdigits
  · rw [hinf]
    rcases hc with rfl | rfl <;> decide
  · exact count_digits (isDigit_eq_false hc) hdigits

theorem count_integer (n : Int) : (toString n).toList.count c = 0 := by
  have hhyphen : '-' ≠ c := by rcases hc with rfl | rfl <;> decide
  have hdigits : ∀ n, (Nat.toDigits 10 n).count c = 0 := fun n =>
    count_digits (isDigit_eq_false hc) fun _ hm => Nat.isDigit_of_mem_toDigits (by decide) (by decide) hm
  cases n with
  | ofNat n => simp [toString, Int.repr, Nat.repr, hdigits]
  | negSucc n => simp [toString, Int.repr, Nat.repr, String.toList_append, hdigits, hhyphen]

theorem count_bare {s : String} (h : Bare s) : s.toList.count c = 0 := by
  obtain ⟨d, cs, hs, hstart, hcs, -⟩ := h
  have hnotStart : isWordStart c = false := by rcases hc with rfl | rfl <;> decide
  have hnotChar : isWordChar c = false := by rcases hc with rfl | rfl <;> decide
  rw [hs, List.count_eq_zero, List.mem_cons, not_or]
  refine ⟨?_, fun hm => ?_⟩
  · rintro rfl
    rw [hstart] at hnotStart
    cases hnotStart
  · rw [List.all_eq_true.1 hcs c hm] at hnotChar
    cases hnotChar

/-- No token is written with more marks than it takes. -/
theorem count_written_le (t : Token) : t.written.toList.count c ≤ t.marks c := by
  have hquote : c ≠ '\'' := by rcases hc with rfl | rfl <;> decide
  cases t with
  | keyword k => rcases hc with rfl | rfl <;> cases k <;> decide
  | integer n => exact Nat.le_of_eq (count_integer hc n)
  | float x =>
    by_cases hx : x.magnitude.Fractional
    · exact Nat.le_of_eq (count_text_of_fractional hc hx)
    · exact (count_text_of_not_fractional hc hx).trans_le (Nat.zero_le _)
  | text s => exact Nat.le_of_eq (count_quoted hquote)
  | name s =>
    by_cases hs : Bare s
    · rw [Token.marks, if_pos hs, Token.written, count_bare hc hs]
    · rw [Token.marks, if_neg hs]
      exact Nat.le_add_right _ _
  | comparison op => rcases hc with rfl | rfl <;> cases op <;> decide
  | _ => rcases hc with rfl | rfl <;> decide

/-- A statement that is read from its own text has no token that takes more marks than it is written with. -/
theorem marks_eq_of_ofText {s : Statement} (h : Statement.ofText s.written = .ok s) :
    ∀ t ∈ s.tokens, t.written.toList.count c = t.marks c := by
  obtain ⟨ts, hts, hs⟩ := bind_eq_ok.1 h
  obtain ⟨rest, hrun⟩ := Statement.run_of_ofTokens hs
  have hspace : c ≠ ' ' := by rcases hc with rfl | rfl <;> decide
  have hwithin : (loose s.tokens).Sublist (loose ts) := by
    have htaken := Reader.takes_statement hrun
    rw [Within, loose_append] at htaken
    exact (List.sublist_append_left _ _).trans htaken
  have hsum : (s.tokens.map (Token.marks c)).sum ≤ (s.tokens.map fun t => t.written.toList.count c).sum := calc
    (s.tokens.map (Token.marks c)).sum = ((loose s.tokens).map (Token.marks c)).sum := (marks_loose _).symm
    _ ≤ ((loose ts).map (Token.marks c)).sum := (hwithin.map _).sum_le_sum fun _ _ => Nat.zero_le _
    _ = (ts.map (Token.marks c)).sum := marks_loose _
    _ ≤ s.written.toList.count c := ofText_eq_ok hts ▸ marks_scan hc _
    _ = _ := (layout_statement s).count_eq hspace
  exact eq_of_sum_le (fun t _ => count_written_le hc t) hsum

end

/-! ## Which statements are read back -/

theorem mem_commaTokens {ts : List Token} (ht : t ∈ ts) :
    ∀ {tss : List (List Token)}, ts ∈ tss → t ∈ Reader.commaTokens tss
  | [us], hts => by
    cases List.mem_singleton.1 hts
    exact ht
  | us :: us' :: tss, hts => by
    rw [Reader.commaTokens, List.mem_append, List.mem_cons]
    · rcases List.mem_cons.1 hts with rfl | hts
      · exact .inl ht
      · exact .inr (.inr (mem_commaTokens ht hts))
    · exact List.cons_ne_nil _ _

theorem name_mem_nameTokens {name : String} {names : List String} (h : name ∈ names) :
    .name name ∈ nameTokens names :=
  mem_commaTokens (.head _) (List.mem_map_of_mem h)

theorem Expr.name_mem_tokens {e : Expr} {name : String} (h : name ∈ e.names) : .name name ∈ e.tokens := by
  induction e with
  | column name' =>
    cases List.mem_singleton.1 h
    exact .head _
  | literal l => cases h
  | binary op left right ihl ihr =>
    rw [tokens, List.mem_append, List.mem_cons]
    exact (List.mem_append.1 h).imp ihl fun h => .inr (ihr h)
  | not e ih => exact .tail _ (ih h)
  | nested e ih => exact .tail _ (List.mem_append_left _ (ih h))

namespace Statement

variable {s : Statement}

theorem name_mem_tokens {name : String} (h : name ∈ s.names) : .name name ∈ s.tokens := by
  cases s with
  | select what table e? =>
    cases what with
    | all =>
      cases List.mem_singleton.1 h
      simp [tokens]
    | columns as =>
      rcases List.mem_append.1 h with h | h
      · have hcolumn : .name name ∈ nameTokens as := name_mem_nameTokens h
        simp [tokens, Selection.tokens, hcolumn]
      · cases List.mem_singleton.1 h
        simp [tokens]
  | insert table columns es =>
    rcases List.mem_cons.1 h with rfl | h
    · simp [tokens]
    · cases columns with
      | none => cases h
      | some as =>
        have hcolumn : .name name ∈ nameTokens as := name_mem_nameTokens h
        simp [tokens, hcolumn]
  | update table as e? =>
    rcases List.mem_cons.1 h with rfl | h
    · simp [tokens]
    · obtain ⟨a, ha, rfl⟩ := List.mem_map.1 h
      have hassignment : .name a.1 ∈ Reader.commaTokens (as.map assignmentTokens) :=
        mem_commaTokens (.head _) (List.mem_map_of_mem ha)
      simp [tokens, hassignment]
  | createTable table cs ifNotExists =>
    rcases List.mem_cons.1 h with rfl | h
    · simp [tokens]
    · obtain ⟨c, hc, rfl⟩ := List.mem_map.1 h
      have hcolumn : .name c.name ∈ Reader.commaTokens (cs.map ColumnDeclaration.tokens) :=
        mem_commaTokens (.head _) (List.mem_map_of_mem hc)
      simp [tokens, hcolumn]
  | createIndex index table as kind =>
    simp only [names, List.mem_cons] at h
    rcases h with rfl | rfl | h
    · simp [tokens]
    · simp [tokens]
    · simp [tokens, name_mem_nameTokens h]
  | dropIndex index table => simpa [tokens, names] using h
  | showColumns table? =>
    cases table? with
    | none => cases h
    | some table => simpa [tokens, names] using h
  | showTables => cases h
  | delete table e? | dropTable table | showIndex table =>
    cases List.mem_singleton.1 h
    simp [tokens]

theorem mem_tokens_of_expression {e : Expr} (he : e ∈ s.expressions) (ht : t ∈ e.tokens) : t ∈ s.tokens := by
  have hcondition : ∀ {e? : Option Expr}, e ∈ e?.toList → t ∈ conditionTokens e? := by
    intro e? h
    rw [Option.mem_toList] at h
    rw [h]
    exact .tail _ ht
  cases s with
  | select what table e? => simp [tokens, hcondition he]
  | insert table columns es =>
    have hvalue : t ∈ Reader.commaTokens (es.map Expr.tokens) := mem_commaTokens ht (List.mem_map_of_mem he)
    simp [tokens, hvalue]
  | update table as e? =>
    rcases List.mem_append.1 he with he | he
    · obtain ⟨a, ha, rfl⟩ := List.mem_map.1 he
      have hassignment : t ∈ Reader.commaTokens (as.map assignmentTokens) :=
        mem_commaTokens (.tail _ (.tail _ ht)) (List.mem_map_of_mem ha)
      simp [tokens, hassignment]
    · simp [tokens, hcondition he]
  | delete table e? => simp [tokens, hcondition he]
  | _ => cases he

/-- A statement that is read from its own text has only bare names and floats with a fraction. -/
theorem lasting_of_ofText (h : ofText s.written = .ok s) : s.Lasting := by
  have hname : ∀ name, .name name ∈ s.tokens → Bare name := by
    intro name hm
    by_contra hbare
    have hquotes := marks_eq_of_ofText (.inl rfl) h _ hm
    simp [Token.marks, Token.written, hbare] at hquotes
  have hfloat : ∀ x, .float x ∈ s.tokens → x.magnitude.Fractional := by
    intro x hm
    by_contra hwhole
    have hpoint := marks_eq_of_ofText (.inr rfl) h _ hm
    rw [Token.written, count_text_of_not_fractional (.inr rfl) hwhole] at hpoint
    cases hpoint
  exact ⟨fun name hm => hname name (name_mem_tokens hm), fun e he =>
    ⟨fun name hm => hname name (mem_tokens_of_expression he (Expr.name_mem_tokens hm)), fun x hx =>
      hfloat x (mem_tokens_of_expression he (literal_mem_tokens hx))⟩⟩

/-- The floats of a statement are tokens of the text that it was read from. -/
theorem rounded_of_ofText {text : String} (h : ofText text = .ok s) (hx : .float x ∈ s.tokens) :
    x.magnitude.Rounded := by
  obtain ⟨ts, hts, hs⟩ := bind_eq_ok.1 h
  obtain ⟨rest, hrun⟩ := run_of_ofTokens hs
  have htaken : (loose (s.tokens ++ rest)).Sublist (loose ts) := Reader.takes_statement hrun
  rw [loose_append] at htaken
  have hloose : .float x ∈ loose ts :=
    htaken.subset (List.mem_append_left _ (List.mem_flatMap.2 ⟨_, hx, .head _⟩))
  obtain ⟨t, ht, hmem⟩ := List.mem_flatMap.1 hloose
  have hscanned := rounded_scan text.toList x
  rw [ofText_eq_ok hts] at hscanned
  refine hscanned ?_
  cases t with
  | float y =>
    cases List.mem_singleton.1 hmem
    exact ht
  | text _ => cases List.mem_singleton.1 hmem
  | name s =>
    rw [Token.loose] at hmem
    split at hmem
    · cases hmem
    · cases List.mem_singleton.1 hmem
  | _ => cases hmem

/-- Writing a statement and reading it gives the statement again just if all its names are bare and all its floats have
a fraction. -/
theorem ofText_written_iff {text : String} (h : ofText text = .ok s) : ofText s.written = .ok s ↔ s.Lasting := by
  refine ⟨lasting_of_ofText, fun hlasting => ?_⟩
  have hs := readable_of_ofText h
  have hspells : Spells s.written s.tokens := spells_written hs hlasting.1 fun e he =>
    ⟨(hlasting.2 e he).1, fun x hx => spells_float
      (rounded_of_ofText h (mem_tokens_of_expression he (literal_mem_tokens hx))) ((hlasting.2 e he).2 x hx)⟩
  have hrun : Reader.run Reader.statement (s.tokens ++ []) = .ok (s, []) :=
    Reader.run_statement hs fun t ht => by cases ht
  rw [List.append_nil] at hrun
  rw [ofText, hspells.ofText]
  exact (ofTokens_eq s.tokens).trans (hrun ▸ rfl)

/-- The condition `a = 2.5`. -/
def half : Expr := .binary (.comparison .eq) (.column "a") (.literal (.float ⟨false, .finite 5629499534213120 1023⟩))

theorem ofText_written_iff_half :
    (ofText "select * from t where a = 2.50" = .ok (.select .all "t" (some half)) ∧
      ofText "SELECT * FROM t WHERE a = 2.5" = .ok (.select .all "t" (some half))) ∧
    ofText "select * from \"from\" where a = 2.50" = .ok (.select .all "from" (some half)) ∧
      ofText "SELECT * FROM from WHERE a = 2.5" ≠ .ok (.select .all "from" (some half)) := by
  have hbare : ofText "select * from t where a = 2.50" = .ok (.select .all "t" (some half)) :=
    ok_of_toOption (by decide +kernel)
  have hquoted : ofText "select * from \"from\" where a = 2.50" = .ok (.select .all "from" (some half)) :=
    ok_of_toOption (by decide +kernel)
  have hwritten : (Statement.select .all "t" (some half)).written = "SELECT * FROM t WHERE a = 2.5" := by decide +kernel
  have hwritten' : (Statement.select .all "from" (some half)).written = "SELECT * FROM from WHERE a = 2.5" := by
    decide +kernel
  have hfraction : (Magnitude.finite 5629499534213120 1023).Fractional := by decide +kernel
  refine ⟨⟨hbare, hwritten ▸ (ofText_written_iff hbare).2 ⟨?_, ?_⟩⟩, hquoted, fun h => ?_⟩
  · intro name hm
    cases List.mem_singleton.1 hm
    decide
  · intro e he
    cases List.mem_singleton.1 he
    refine ⟨by decide, fun x hx => ?_⟩
    cases List.mem_singleton.1 hx
    exact hfraction
  · have hlasting := (ofText_written_iff hquoted).1 (hwritten' ▸ h)
    exact absurd (hlasting.1 "from" (.head _)) (by decide)

end Statement

end Rowbase.Language
