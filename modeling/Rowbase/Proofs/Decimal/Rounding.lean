import Mathlib.Tactic.Ring
import Rowbase.Decimal.Shortest

/-! # Decimals round to the magnitude whose cell they are in

Rounding makes each magnitude in one way only: with the least scale that its mantissa allows. A fraction between the
bounds of such a magnitude is rounded to it, also where the scale changes just below it. -/
namespace Rowbase.Decimal

variable {n d m q s num den mantissa scale : Nat}

/-! ## Rounded quotients -/

theorem roundEven_eq (hd : 0 < d) (hlow : 2 * (m * d) ≤ 2 * n + d) (hhigh : 2 * n ≤ 2 * (m * d) + d)
    (heven : 2 * (m * d) = 2 * n + d ∨ 2 * n = 2 * (m * d) + d → m % 2 = 0) : roundEven n d = m := by
  have hdiv : n / d * d + n % d = n := Nat.div_add_mod' n d
  have hmod : n % d < d := Nat.mod_lt n hd
  unfold roundEven
  generalize n / d = q at *
  generalize n % d = r at *
  have hle : m ≤ q + 1 := by
    by_contra hgt
    have hmul : (q + 2) * d ≤ m * d := Nat.mul_le_mul_right d (by omega)
    rw [Nat.add_mul] at hmul
    omega
  have hge : q ≤ m := by
    by_contra hlt
    have hmul : (m + 1) * d ≤ q * d := Nat.mul_le_mul_right d (by omega)
    rw [Nat.add_mul, Nat.one_mul] at hmul
    omega
  obtain rfl | rfl : m = q ∨ m = q + 1 := by omega
  · have hdown : (2 * r < d || (2 * r == d && m % 2 == 0)) = true := by
      simp only [Bool.or_eq_true, Bool.and_eq_true, decide_eq_true_eq, beq_iff_eq]
      omega
    simp [hdown]
  · rw [Nat.add_mul, Nat.one_mul] at hlow heven
    have hup : ¬ (2 * r < d || (2 * r == d && q % 2 == 0)) = true := by
      simp only [Bool.or_eq_true, Bool.and_eq_true, decide_eq_true_eq, beq_iff_eq]
      omega
    simp [hup]

/-- A quotient is rounded to no more than a natural that it does not pass. -/
theorem roundEven_le (hd : 0 < d) (h : n ≤ m * d) : roundEven n d ≤ m := by
  obtain ⟨-, hbound⟩ := roundEven_bounds n hd
  by_contra hlt
  have hmul : (m + 1) * d ≤ roundEven n d * d := Nat.mul_le_mul_right d (by omega)
  rw [Nat.add_mul, Nat.one_mul] at hmul
  omega

theorem le_roundEven (hd : 0 < d) (h : m * d ≤ n) : m ≤ roundEven n d := by
  obtain ⟨hbound, -⟩ := roundEven_bounds n hd
  by_contra hlt
  have hmul : (roundEven n d + 1) * d ≤ m * d := Nat.mul_le_mul_right d (by omega)
  rw [Nat.add_mul, Nat.one_mul] at hmul
  omega

/-! ## Scales -/

/-- The least scale that brings a natural down to 53 bits. -/
theorem log2_eq (hlow : s ≠ 0 → 2 ^ 52 * 2 ^ s ≤ q) (hhigh : q < 2 ^ 53 * 2 ^ s) : q.log2 + 1 - 53 = s := by
  by_cases hq : q = 0
  · subst hq
    have hs : s = 0 := by
      by_contra hs
      have := Nat.mul_pos (Nat.two_pow_pos 52) (Nat.two_pow_pos s)
      have := hlow hs
      omega
    simp [hs]
  · have hlt : q.log2 < 53 + s := (Nat.log2_lt hq).2 (Nat.pow_add 2 53 s ▸ hhigh)
    by_cases hs : s = 0
    · omega
    · have hle : 52 + s ≤ q.log2 := (Nat.le_log2 hq).2 (Nat.pow_add 2 52 s ▸ hlow hs)
      omega

namespace Magnitude

/-- The magnitude whose mantissa may have come out with one bit too many. -/
def carried (mantissa scale : Nat) : Magnitude :=
  if mantissa = 2 ^ 53 then if scale + 1 ≤ 2045 then .finite (2 ^ 52) (scale + 1) else .infinite
  else if scale ≤ 2045 then .finite mantissa scale else .infinite

theorem ofUnits_eq (hs : (n / den).log2 + 1 - 53 = scale) :
    ofUnits n den = carried (roundEven n (den * 2 ^ scale)) scale := by
  unfold ofUnits carried
  dsimp only
  rw [hs]
  simp only [Nat.pow_eq]
  generalize roundEven n (den * 2 ^ scale) = mantissa
  by_cases h : mantissa = 2 ^ 53
  · rw [if_pos h, if_pos h]
  · rw [if_neg h, if_neg h]

/-- Whether a magnitude is as rounding makes it: its mantissa has 53 bits, all of them if it has a scale. -/
def Rounded : Magnitude → Prop
  | .finite mantissa scale => mantissa < 2 ^ 53 ∧ (scale ≠ 0 → 2 ^ 52 ≤ mantissa) ∧ scale ≤ 2045
  | .infinite => True

theorem rounded_carried (hle : mantissa ≤ 2 ^ 53) (hfull : scale ≠ 0 → 2 ^ 52 ≤ mantissa) :
    (carried mantissa scale).Rounded := by
  unfold carried
  split
  · split
    · exact ⟨by decide, fun _ => Nat.le_refl _, by assumption⟩
    · trivial
  · split
    · exact ⟨by omega, hfull, by assumption⟩
    · trivial

/-- Rounding makes magnitudes in one way only. -/
theorem rounded_ofRatio (num : Nat) (hden : 0 < den) : (ofRatio num den).Rounded := by
  rw [ofRatio]
  generalize num * Nat.pow 2 1074 = n
  generalize hs : (n / den).log2 + 1 - 53 = scale
  rw [ofUnits_eq hs]
  have hdiv := Nat.div_add_mod' n den
  have hmod := Nat.mod_lt n hden
  have hd : 0 < den * 2 ^ scale := Nat.mul_pos hden (Nat.two_pow_pos scale)
  have hlt : n / den < 2 ^ (53 + scale) := Nat.lt_of_lt_of_le Nat.lt_log2_self
    (Nat.pow_le_pow_right (by decide) (by omega))
  refine rounded_carried (roundEven_le hd ?_) fun hne => le_roundEven hd ?_
  · have hmul : (n / den + 1) * den ≤ 2 ^ (53 + scale) * den := Nat.mul_le_mul_right den hlt
    have hsplit : 2 ^ 53 * (den * 2 ^ scale) = 2 ^ (53 + scale) * den := by
      rw [Nat.pow_add, Nat.mul_comm den, Nat.mul_assoc]
    rw [hsplit]
    rw [Nat.add_mul, Nat.one_mul] at hmul
    omega
  · have hq : n / den ≠ 0 := by
      intro hq
      rw [hq] at hs
      exact hne hs.symm
    have hle : 2 ^ (52 + scale) ≤ n / den := (Nat.le_log2 hq).1 (by omega)
    have hmul : 2 ^ (52 + scale) * den ≤ n / den * den := Nat.mul_le_mul_right den hle
    have hsplit : 2 ^ 52 * (den * 2 ^ scale) = 2 ^ (52 + scale) * den := by
      rw [Nat.pow_add, Nat.mul_comm den, Nat.mul_assoc]
    rw [hsplit]
    omega

end Magnitude

/-! ## Cells -/

/-- A fraction that a cell holds is at most half a unit of the mantissa away, and exactly half a unit only if the
mantissa is even. Where the scale changes it is at most a quarter of a unit below. -/
theorem holds_times (hm : mantissa ≠ 0) (h : ((Cell.of mantissa scale).times den).holds (4 * n) = true) :
    4 * (mantissa * (den * 2 ^ scale)) ≤ 4 * n + 2 * (den * 2 ^ scale) ∧
    4 * n ≤ 4 * (mantissa * (den * 2 ^ scale)) + 2 * (den * 2 ^ scale) ∧
    (4 * (mantissa * (den * 2 ^ scale)) = 4 * n + 2 * (den * 2 ^ scale) ∨
      4 * n = 4 * (mantissa * (den * 2 ^ scale)) + 2 * (den * 2 ^ scale) → mantissa % 2 = 0) ∧
    (mantissa = 2 ^ 52 → scale ≠ 0 → 4 * (mantissa * (den * 2 ^ scale)) ≤ 4 * n + den * 2 ^ scale) := by
  have hvalue : 4 * mantissa * 2 ^ scale * den = 4 * (mantissa * (den * 2 ^ scale)) := by
    rw [Nat.mul_assoc, Nat.mul_assoc, Nat.mul_comm (2 ^ scale)]
  have hunit : 2 ^ scale * den = den * 2 ^ scale := Nat.mul_comm _ _
  have hle : den * 2 ^ scale ≤ mantissa * (den * 2 ^ scale) := Nat.le_mul_of_pos_left _ (Nat.pos_of_ne_zero hm)
  simp only [Cell.holds, Cell.times, Cell.of, Nat.pow_eq, Bool.or_eq_true, Bool.and_eq_true, decide_eq_true_eq,
    beq_iff_eq] at h
  rw [Nat.sub_mul, Nat.add_mul, hvalue, Nat.mul_assoc 2, hunit] at h
  by_cases hchange : mantissa = 2 ^ 52 ∧ scale ≠ 0
  · rw [if_pos hchange, hunit] at h
    omega
  · rw [if_neg hchange, Nat.mul_assoc 2, hunit] at h
    omega

/-- A fraction between the bounds of a magnitude is rounded to it. -/
theorem ofUnits_of_holds (hr : (Magnitude.finite mantissa scale).Rounded) (hm : mantissa ≠ 0) (hden : 0 < den)
    (h : ((Cell.of mantissa scale).times den).holds (4 * n) = true) :
    Magnitude.ofUnits n den = .finite mantissa scale := by
  obtain ⟨hbits, hfull, hscale⟩ := hr
  obtain ⟨hlow, hhigh, heven, hchange⟩ := holds_times hm h
  have hunit : 0 < den * 2 ^ scale := Nat.mul_pos hden (Nat.two_pow_pos scale)
  have hupper : n < 2 ^ 53 * (den * 2 ^ scale) := by
    have hmul : mantissa * (den * 2 ^ scale) ≤ (2 ^ 53 - 1) * (den * 2 ^ scale) := Nat.mul_le_mul_right _ (by omega)
    omega
  have hroom : ∀ k, n < k * (den * 2 ^ scale) → n / den < k * 2 ^ scale := fun k hk =>
    (Nat.div_lt_iff_lt_mul hden).2 (by rwa [Nat.mul_assoc, Nat.mul_comm (2 ^ scale)])
  by_cases hbelow : scale ≠ 0 ∧ n < 2 ^ 52 * (den * 2 ^ scale)
  · -- just below the least mantissa of 53 bits the fraction is rounded with a smaller scale, and carries
    obtain ⟨hne, hlt⟩ := hbelow
    have hleast : mantissa = 2 ^ 52 := by
      by_contra hne52
      have hmul : (2 ^ 52 + 1) * (den * 2 ^ scale) ≤ mantissa * (den * 2 ^ scale) :=
        Nat.mul_le_mul_right _ (by have := hfull hne; omega)
      omega
    have hquarter := hchange hleast hne
    obtain ⟨s, rfl⟩ : ∃ s, scale = s + 1 := ⟨scale - 1, by omega⟩
    have hhalf : den * 2 ^ (s + 1) = 2 * (den * 2 ^ s) := by rw [Nat.pow_succ, ← Nat.mul_assoc, Nat.mul_comm 2]
    have hs : (n / den).log2 + 1 - 53 = s := by
      refine log2_eq (fun _ => (Nat.le_div_iff_mul_le hden).2 ?_) ?_
      · rw [Nat.mul_assoc, Nat.mul_comm (2 ^ s)]
        rw [hleast] at hquarter
        omega
      · have hlt' := hroom _ hlt
        rw [Nat.pow_succ] at hlt'
        omega
    have hcarry : roundEven n (den * 2 ^ s) = 2 ^ 53 := by
      rw [hleast] at hquarter
      exact roundEven_eq (Nat.mul_pos hden (Nat.two_pow_pos s)) (by omega) (by omega) (fun _ => by decide)
    rw [Magnitude.ofUnits_eq hs, hcarry, Magnitude.carried, if_pos rfl, if_pos hscale, hleast]
  · have hs : (n / den).log2 + 1 - 53 = scale := by
      refine log2_eq (fun hne => (Nat.le_div_iff_mul_le hden).2 ?_) (hroom _ hupper)
      rw [Nat.mul_assoc, Nat.mul_comm (2 ^ scale)]
      exact Nat.le_of_not_lt fun hlt => hbelow ⟨hne, hlt⟩
    have hround : roundEven n (den * 2 ^ scale) = mantissa := by
      refine roundEven_eq hunit (by omega) (by omega) fun htie => heven ?_
      omega
    rw [Magnitude.ofUnits_eq hs, hround, Magnitude.carried, if_neg (Nat.ne_of_lt hbits), if_pos hscale]

end Rowbase.Decimal
