import Rowbase.Proofs.Decimal.Rounding

/-! # Which numbers are written with a point

A number is written with a point just if it is not whole. The digits before and behind the point are then those of a
decimal in its cell, so they read as the same number. -/
namespace Rowbase.Decimal

variable {mantissa scale d k n p unit one fuel : Nat} {c : Cell} {cs : List Char}

/-! ## Points of grids -/

namespace Cell

theorem holds_value (hm : mantissa ≠ 0) (hk : 0 < k) :
    ((Cell.of mantissa scale).times k).holds ((Cell.of mantissa scale).times k).value = true := by
  have hpow : 0 < 2 ^ scale := Nat.two_pow_pos scale
  have hle : 2 ^ scale ≤ mantissa * 2 ^ scale := Nat.le_mul_of_pos_left _ (Nat.pos_of_ne_zero hm)
  have hlow : (Cell.of mantissa scale).low < (Cell.of mantissa scale).value := by
    simp only [Cell.of, Nat.pow_eq, Nat.mul_assoc]
    split <;> omega
  have hhigh : (Cell.of mantissa scale).value < (Cell.of mantissa scale).high := by
    simp only [Cell.of, Nat.pow_eq]
    omega
  simp [holds, times, Nat.mul_lt_mul_of_pos_right hlow hk, Nat.mul_lt_mul_of_pos_right hhigh hk]

/-- A grid that has the magnitude itself among its points has one for its cell. -/
theorem exists_point? (hunit : 0 < unit) (hvalue : c.value = n * unit) (h : c.holds c.value = true) :
    ∃ d, c.point? unit = some d := by
  have hdiv : c.value / unit = n := by rw [hvalue, Nat.mul_div_cancel n hunit]
  unfold point?
  dsimp only
  rw [hdiv, ← hvalue, h]
  cases c.holds ((n + 1) * unit) <;> simp

theorem exists_whole? (hone : 0 < one) (hvalue : c.value = n * one) (h : c.holds c.value = true) (p : Nat) :
    ∃ q, c.whole? one p = some q := by
  induction p with
  | zero =>
    obtain ⟨d, hd⟩ := exists_point? hone hvalue h
    exact ⟨(d, 0), by rw [whole?, hd]; rfl⟩
  | succ p ih =>
    rw [whole?]
    split
    · exact ⟨_, rfl⟩
    · exact ih

theorem whole?_eq_none (h : ∀ n, c.holds (n * one) = false) (p : Nat) : c.whole? one p = none := by
  induction p with
  | zero =>
    cases hpoint : c.point? one with
    | none => rw [whole?, hpoint]; rfl
    | some d =>
      have hholds := holds_of_point? hpoint
      rw [h] at hholds
      cases hholds
  | succ p ih =>
    cases hpoint : c.point? (Nat.pow 10 (p + 1) * one) with
    | none =>
      rw [whole?, hpoint]
      exact ih
    | some d =>
      have hholds := holds_of_point? hpoint
      rw [← Nat.mul_assoc, h] at hholds
      cases hholds

theorem point?_of_fraction? (h : c.fraction? one fuel k = some (d, n)) :
    k ≤ n ∧ (c.times (Nat.pow 10 n)).point? one = some d := by
  induction fuel generalizing k with
  | zero => cases h
  | succ fuel ih =>
    rw [fraction?] at h
    split at h
    · cases h
      exact ⟨Nat.le_refl _, by assumption⟩
    · obtain ⟨hle, hpoint⟩ := ih h
      exact ⟨by omega, hpoint⟩

theorem exists_fraction? (hle : k ≤ n) (hlt : n < k + fuel)
    (h : ∃ d, (c.times (Nat.pow 10 n)).point? one = some d) : ∃ q, c.fraction? one fuel k = some q := by
  induction fuel generalizing k with
  | zero => omega
  | succ fuel ih =>
    rw [fraction?]
    split
    · exact ⟨_, rfl⟩
    · rename_i hnone
      refine ih ?_ (by omega)
      by_contra hgt
      obtain rfl : n = k := by omega
      rw [hnone] at h
      obtain ⟨d, hd⟩ := h
      cases hd

end Cell

/-! ## Whole numbers and others -/

/-- Whether a magnitude is finite and not a natural. -/
def Magnitude.Fractional : Magnitude → Prop
  | .finite mantissa scale => ¬ Nat.pow 2 1074 ∣ mantissa * Nat.pow 2 scale
  | .infinite => False

instance : DecidablePred Magnitude.Fractional
  | .finite mantissa scale => inferInstanceAs (Decidable ¬ Nat.pow 2 1074 ∣ mantissa * Nat.pow 2 scale)
  | .infinite => inferInstanceAs (Decidable False)

variable {e : Nat}

/-- No whole number is between the bounds of a number that is not whole. -/
theorem holds_eq_false (hm : mantissa ≠ 0) (h : ¬ 2 ^ e ∣ mantissa * 2 ^ scale) (n : Nat) :
    (Cell.of mantissa scale).holds (4 * (n * 2 ^ e)) = false := by
  have hlt : scale < e := by
    by_contra hge
    exact h (Nat.dvd_mul_left_of_dvd (Nat.pow_dvd_pow 2 (Nat.le_of_not_lt hge)) _)
  obtain ⟨r, rfl⟩ := Nat.exists_eq_add_of_lt hlt
  rw [Bool.eq_false_iff]
  intro hholds
  have htimes : ((Cell.of mantissa scale).times 1).holds (4 * (n * 2 ^ (scale + r + 1))) = true := by
    simpa [Cell.times] using hholds
  obtain ⟨hlow, hhigh, -⟩ := holds_times hm htimes
  rw [Nat.one_mul] at hlow hhigh
  have hunits : n * 2 ^ (scale + r + 1) = n * 2 ^ (r + 1) * 2 ^ scale := by
    rw [Nat.add_assoc, Nat.add_comm scale, Nat.pow_add, Nat.mul_assoc]
  rw [hunits] at hlow hhigh
  -- the two differ by less than a unit of the mantissa, of which both are multiples
  have hpow : 0 < 2 ^ scale := Nat.two_pow_pos scale
  have hle : 4 * mantissa ≤ 4 * (n * 2 ^ (r + 1)) + 2 := by
    refine Nat.le_of_mul_le_mul_right ?_ hpow
    rw [Nat.add_mul, Nat.mul_assoc, Nat.mul_assoc 4]
    exact hlow
  have hge : 4 * (n * 2 ^ (r + 1)) ≤ 4 * mantissa + 2 := by
    refine Nat.le_of_mul_le_mul_right ?_ hpow
    rw [Nat.add_mul, Nat.mul_assoc, Nat.mul_assoc 4]
    exact hhigh
  have heq : mantissa = n * 2 ^ (r + 1) := by omega
  exact h ⟨n, by rw [heq, ← hunits, Nat.mul_comm]⟩

/-- A whole number is written without a point. -/
theorem digits_of_dvd (hm : mantissa ≠ 0) (h : Nat.pow 2 e ∣ mantissa * Nat.pow 2 scale)
    (hone : one = 4 * Nat.pow 2 e) :
    ∃ d p, (Cell.of mantissa scale).digits one = Nat.toDigits 10 d ++ List.replicate p '0' := by
  subst hone
  simp only [Nat.pow_eq] at h ⊢
  obtain ⟨n, hn⟩ := h
  have hone : 0 < 4 * 2 ^ e := Nat.mul_pos (by decide) (Nat.two_pow_pos e)
  have hvalue : (Cell.of mantissa scale).value = n * (4 * 2 ^ e) := by
    rw [Cell.of, Nat.pow_eq, Nat.mul_assoc, hn, Nat.mul_left_comm n, Nat.mul_comm n]
  have hholds : (Cell.of mantissa scale).holds (Cell.of mantissa scale).value = true := by
    have htimes : ((Cell.of mantissa scale).times 1).holds ((Cell.of mantissa scale).times 1).value = true :=
      Cell.holds_value hm Nat.one_pos
    simpa [Cell.times] using htimes
  unfold Cell.digits
  dsimp only
  generalize (Nat.toDigits 10 _).length = places
  obtain ⟨⟨d, p⟩, hq⟩ := Cell.exists_whole? hone hvalue hholds places
  exact ⟨d, p, by rw [hq]⟩

/-- Any other number is written with a point, as a decimal in its cell. -/
theorem digits_of_not_dvd (hm : mantissa ≠ 0) (he : 1 ≤ e) (hfuel : e < 1078)
    (h : ¬ 2 ^ e ∣ mantissa * 2 ^ scale) :
    ∃ d k, (Cell.of mantissa scale).digits (4 * 2 ^ e) = withPoint d k ∧ 1 ≤ k ∧
      ((Cell.of mantissa scale).times (10 ^ k)).holds (4 * (d * 2 ^ e)) = true := by
  have hone : 0 < 4 * 2 ^ e := Nat.mul_pos (by decide) (Nat.two_pow_pos e)
  have hwhole : ∀ p, (Cell.of mantissa scale).whole? (4 * 2 ^ e) p = none := by
    refine Cell.whole?_eq_none fun n => ?_
    rw [Nat.mul_left_comm]
    exact holds_eq_false hm h n
  -- with as many places as its denominator has bits, the number itself is on the grid
  have hvalue : ((Cell.of mantissa scale).times (Nat.pow 10 e)).value =
      mantissa * 2 ^ scale * 5 ^ e * (4 * 2 ^ e) := by
    have hten : 10 ^ e = 5 ^ e * 2 ^ e := by rw [← Nat.mul_pow]
    simp only [Cell.times, Cell.of, Nat.pow_eq, hten]
    ring
  have hpoint := Cell.exists_point? hone hvalue (Cell.holds_value hm (Nat.pow_pos (by decide)))
  obtain ⟨⟨d, k⟩, hq⟩ : ∃ q, (Cell.of mantissa scale).fraction? (4 * 2 ^ e) 1077 1 = some q :=
    Cell.exists_fraction? he (by omega) hpoint
  obtain ⟨hk, hpoint⟩ := Cell.point?_of_fraction? hq
  have hholds := Cell.holds_of_point? hpoint
  rw [Nat.mul_left_comm] at hholds
  refine ⟨d, k, ?_, hk, hholds⟩
  unfold Cell.digits
  dsimp only
  rw [hwhole, hq]

/-! ## Texts -/

/-- What stands around the point. -/
theorem withPoint_eq (d : Nat) (hk : 1 ≤ k) : ∃ whole fraction, withPoint d k = whole ++ '.' :: fraction ∧
    whole ≠ [] ∧ fraction.length = k ∧ (∀ c ∈ whole ++ fraction, c.isDigit = true) ∧
    Nat.ofDigitChars 10 (whole ++ fraction) 0 = d := by
  unfold withPoint
  dsimp only
  generalize hpadded : List.replicate (k + 1 - (Nat.toDigits 10 d).length) '0' ++ Nat.toDigits 10 d = padded
  have hlength : k + 1 ≤ padded.length := by
    rw [← hpadded, List.length_append, List.length_replicate]
    omega
  refine ⟨_, _, rfl, ?_, ?_, ?_, ?_⟩
  · intro hnil
    have hzero := congrArg List.length hnil
    rw [List.length_take, List.length_nil] at hzero
    omega
  · rw [List.length_drop]
    omega
  · rw [List.take_append_drop, ← hpadded]
    intro c hc
    rcases List.mem_append.1 hc with hc | hc
    · rw [List.eq_of_mem_replicate hc]
      rfl
    · exact Nat.isDigit_of_mem_toDigits (by decide) (by decide) hc
  · rw [List.take_append_drop, ← hpadded, Nat.ofDigitChars_append, Nat.ofDigitChars_replicate_zero, Nat.mul_zero]
    exact Nat.ofDigitChars_toDigits (by decide) (by decide)

theorem digits_of_fractional (hm : mantissa ≠ 0) (he : 1 ≤ e) (hfuel : e < 1078)
    (h : ¬ Nat.pow 2 e ∣ mantissa * Nat.pow 2 scale) (hone : one = 4 * Nat.pow 2 e) :
    ∃ whole fraction, (Cell.of mantissa scale).digits one = whole ++ '.' :: fraction ∧ whole ≠ [] ∧ fraction ≠ [] ∧
      (∀ c ∈ whole ++ fraction, c.isDigit = true) ∧
      ((Magnitude.finite mantissa scale).Rounded → Magnitude.ofUnits
        (Nat.ofDigitChars 10 (whole ++ fraction) 0 * Nat.pow 2 e) (Nat.pow 10 fraction.length) =
          .finite mantissa scale) := by
  subst hone
  simp only [Nat.pow_eq] at h ⊢
  obtain ⟨d, k, hdigits, hk, hholds⟩ := digits_of_not_dvd hm he hfuel h
  obtain ⟨whole, fraction, htext, hwhole, hlength, hall, hvalue⟩ := withPoint_eq d hk
  refine ⟨whole, fraction, hdigits.trans htext, hwhole, ?_, hall, fun hr => ?_⟩
  · rintro rfl
    rw [List.length_nil] at hlength
    omega
  · rw [hvalue, hlength]
    exact ofUnits_of_holds hr hm (Nat.pow_pos (by decide)) hholds

namespace Magnitude

variable {x : Magnitude}

theorem one_eq : Nat.pow 2 1076 = 4 * Nat.pow 2 1074 := by decide +kernel

/-- A number that is not whole is written with a point, and what is written reads as the number. -/
theorem text_of_fractional (h : x.Fractional) : ∃ whole fraction, x.text = String.ofList (whole ++ '.' :: fraction) ∧
    whole ≠ [] ∧ fraction ≠ [] ∧ (∀ c ∈ whole ++ fraction, c.isDigit = true) ∧
    (x.Rounded → ofRatio (Nat.ofDigitChars 10 (whole ++ fraction) 0) (Nat.pow 10 fraction.length) = x) := by
  cases x with
  | infinite => cases h
  | finite mantissa scale =>
    have hm : mantissa ≠ 0 := by
      rintro rfl
      exact h (by rw [Nat.zero_mul]; exact Nat.dvd_zero _)
    obtain ⟨whole, fraction, hdigits, hrest⟩ :=
      digits_of_fractional hm (by decide) (by decide) h one_eq
    refine ⟨whole, fraction, ?_, hrest⟩
    rw [text, if_neg hm, hdigits]

/-- A whole number is written in digits, and infinity as a word. -/
theorem text_of_not_fractional (h : ¬ x.Fractional) : x.text = "inf" ∨ ∀ c ∈ x.text.toList, c.isDigit = true := by
  cases x with
  | infinite => exact .inl rfl
  | finite mantissa scale =>
    right
    rw [text]
    split
    · intro c hc
      obtain rfl : c = '0' := List.mem_singleton.1 hc
      rfl
    · rename_i hm
      have hdvd : Nat.pow 2 1074 ∣ mantissa * Nat.pow 2 scale := Classical.not_not.1 h
      obtain ⟨d, p, hdigits⟩ := digits_of_dvd hm hdvd one_eq
      rw [hdigits, String.toList_ofList]
      intro c hc
      rcases List.mem_append.1 hc with hc | hc
      · exact Nat.isDigit_of_mem_toDigits (by decide) (by decide) hc
      · rw [List.eq_of_mem_replicate hc]
        rfl

end Magnitude

end Rowbase.Decimal
