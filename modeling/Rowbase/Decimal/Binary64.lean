/-! # Numbers of 64 bits with a binary point

A finite magnitude is a whole multiple of the least positive one, `2 ^ -1074`, kept as a mantissa
of at most 53 bits and a power of two. Decimal fractions are rounded to the nearest magnitude in
exact arithmetic, halves to the even mantissa; what lies beyond the greatest magnitude is
infinite. No machine arithmetic takes part, so every fact about a number is a fact about
naturals. -/
namespace Rowbase.Decimal

/-- A distance from zero. -/
inductive Magnitude where
  /-- The number `mantissa * 2 ^ scale / 2 ^ 1074`. -/
  | finite (mantissa scale : Nat)
  /-- More than every finite magnitude. -/
  | infinite
deriving DecidableEq

/-- A number with its sign; zero has two. -/
structure Binary64 where
  negative : Bool
  magnitude : Magnitude
deriving DecidableEq

/-- The quotient of two naturals rounded to the nearest natural, a half to the even one. -/
def roundEven (n d : Nat) : Nat :=
  let q := n / d
  let r := n % d
  if 2 * r < d || (2 * r == d && q % 2 == 0) then q else q + 1

/-- A rounded quotient is at most half a unit away. -/
theorem roundEven_bounds (n : Nat) {d : Nat} (hd : 0 < d) :
    2 * n ≤ 2 * (roundEven n d * d) + d ∧ 2 * (roundEven n d * d) ≤ 2 * n + d := by
  have hdiv : n / d * d + n % d = n := Nat.div_add_mod' n d
  have hmod : n % d < d := Nat.mod_lt n hd
  have hcases : roundEven n d = n / d ∧ 2 * (n % d) ≤ d ∨
      roundEven n d = n / d + 1 ∧ d ≤ 2 * (n % d) := by
    unfold roundEven
    by_cases h : (2 * (n % d) < d || (2 * (n % d) == d && n / d % 2 == 0)) = true
    · left
      refine ⟨by simp [h], ?_⟩
      simp only [Bool.or_eq_true, Bool.and_eq_true, decide_eq_true_eq, beq_iff_eq] at h
      omega
    · right
      refine ⟨by simp [h], ?_⟩
      simp only [Bool.or_eq_true, decide_eq_true_eq, not_or] at h
      omega
  rcases hcases with ⟨h, hr⟩ | ⟨h, hr⟩
  · rw [h]; omega
  · rw [h, Nat.add_mul]; omega

/-- The magnitude nearest to `units / den` times the least positive one. The scale is the least one
that brings the mantissa down to 53 bits; rounding may carry into a fifty-fourth, which is then
halved away. -/
def Magnitude.ofUnits (units den : Nat) : Magnitude :=
  let scale := (units / den).log2 + 1 - 53
  let mantissa := roundEven units (den * Nat.pow 2 scale)
  let (mantissa, scale) :=
    if mantissa = Nat.pow 2 53 then (Nat.pow 2 52, scale + 1) else (mantissa, scale)
  if scale ≤ 2045 then .finite mantissa scale else .infinite

/-- The magnitude nearest to `num / den`. -/
def Magnitude.ofRatio (num den : Nat) : Magnitude := ofUnits (num * Nat.pow 2 1074) den

/-- The number written as digits, a point and digits. -/
def Binary64.ofDigits (whole fraction : List Char) : Binary64 :=
  ⟨false, .ofRatio (Nat.ofDigitChars 10 (whole ++ fraction) 0) (Nat.pow 10 fraction.length)⟩

/-- The number of the other sign. -/
def Binary64.negate (x : Binary64) : Binary64 := { x with negative := !x.negative }

end Rowbase.Decimal
