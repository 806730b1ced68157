import Rowbase.Decimal.Binary64

/-! # The fewest digits that read back

Every real number between two bounds rounds to the same magnitude; the bounds themselves belong
to it when its mantissa is even. Of the decimal grids `10 ^ p`, from coarse to fine, the first one
with a point between the bounds gives the digits. If both neighbours of the magnitude on that grid
lie between the bounds the nearer one is taken, and the upper one when they are equally near.

The digits are written with every place between them and the point, never with an exponent, and
whole numbers without a point. -/
namespace Rowbase.Decimal

/-- A magnitude with the bounds of what rounds to it, all three over the denominator `2 ^ 1076`.
`closed` says whether the bounds belong to it. -/
structure Cell where
  value : Nat
  low : Nat
  high : Nat
  closed : Bool

/-- The cell of `mantissa * 2 ^ scale / 2 ^ 1074`. Below the least mantissa of 53 bits the
magnitudes stand twice as close, so there the lower bound is half as far. -/
def Cell.of (mantissa scale : Nat) : Cell :=
  let value := 4 * mantissa * Nat.pow 2 scale
  let below := if mantissa = Nat.pow 2 52 && scale ≠ 0 then Nat.pow 2 scale else 2 * Nat.pow 2 scale
  ⟨value, value - below, value + 2 * Nat.pow 2 scale, mantissa % 2 == 0⟩

/-- The cell with everything multiplied by `k`. -/
def Cell.times (c : Cell) (k : Nat) : Cell := ⟨c.value * k, c.low * k, c.high * k, c.closed⟩

/-- Whether `x`, over the cell's denominator, rounds to the cell's magnitude. -/
def Cell.holds (c : Cell) (x : Nat) : Bool :=
  c.low < x && x < c.high || c.closed && (x == c.low || x == c.high)

/-- The multiple of `unit` that stands for the cell, if one of its two neighbours does. -/
def Cell.point? (c : Cell) (unit : Nat) : Option Nat :=
  let d := c.value / unit
  match c.holds (d * unit), c.holds ((d + 1) * unit) with
  | true, true => some (if c.value - d * unit < (d + 1) * unit - c.value then d else d + 1)
  | true, false => some d
  | false, true => some (d + 1)
  | false, false => none

/-- A point of a grid rounds to the magnitude it was found for. -/
theorem Cell.holds_of_point? {c : Cell} {unit d : Nat} (h : c.point? unit = some d) :
    c.holds (d * unit) = true := by
  simp only [Cell.point?] at h
  split at h
  · split at h <;> simp_all
  all_goals simp_all

/-- The point of the coarsest grid among `10 ^ p`, …, `10 ^ 0` that has one, and the power. The
cell's denominator is `one`. -/
def Cell.whole? (c : Cell) (one : Nat) : Nat → Option (Nat × Nat)
  | 0 => (c.point? one).map (·, 0)
  | p + 1 => match c.point? (Nat.pow 10 (p + 1) * one) with
    | some d => some (d, p + 1)
    | none => c.whole? one p

/-- The point of the coarsest grid among `10 ^ -k`, `10 ^ -(k + 1)`, … that has one, and the number
of its places. A cell has a point with 1076 places, so that many grids are enough. -/
def Cell.fraction? (c : Cell) (one : Nat) : Nat → Nat → Option (Nat × Nat)
  | 0, _ => none
  | fuel + 1, k => match (c.times (Nat.pow 10 k)).point? one with
    | some d => some (d, k)
    | none => c.fraction? one fuel (k + 1)

/-- The digits of `d / 10 ^ k` with a point before the last `k` of them. -/
def withPoint (d k : Nat) : List Char :=
  let digits := Nat.toDigits 10 d
  let padded := List.replicate (k + 1 - digits.length) '0' ++ digits
  padded.take (padded.length - k) ++ '.' :: padded.drop (padded.length - k)

/-- The shortest decimal of a positive magnitude. -/
def Cell.digits (c : Cell) (one : Nat) : List Char :=
  let places := (Nat.toDigits 10 (c.high / one)).length
  match c.whole? one places with
  | some (d, p) => Nat.toDigits 10 d ++ List.replicate p '0'
  | none => match c.fraction? one 1077 1 with
    | some (d, k) => withPoint d k
    | none => ['0']

/-- The text of a magnitude. -/
def Magnitude.text : Magnitude → String
  | .infinite => "inf"
  | .finite mantissa scale =>
    if mantissa = 0 then "0" else String.ofList ((Cell.of mantissa scale).digits (Nat.pow 2 1076))

/-- The text of a number. -/
def Binary64.text (x : Binary64) : String :=
  if x.negative then "-" ++ x.magnitude.text else x.magnitude.text

end Rowbase.Decimal
