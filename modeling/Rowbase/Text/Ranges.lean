/-! # Character classes as sorted tables of code points

A class of characters is a list of closed ranges in ascending order. Looking a character up
stops at the first range that does not end before it, so the ASCII characters, which stand in
the first ranges, are decided in a step or two. -/
namespace Rowbase.Text

/-- Whether `n` lies in a range of a table sorted by its upper ends. -/
def inRanges : List (Nat × Nat) → Nat → Bool
  | [], _ => false
  | (low, high) :: rest, n => if n ≤ high then low ≤ n else inRanges rest n

/-- Every range starts after the one before it has ended. -/
def Ascending (ranges : List (Nat × Nat)) : Prop :=
  ranges.Pairwise fun a b => a.2 < b.1

/-- In an ascending table the search finds `n` exactly when some range holds it. -/
theorem inRanges_iff {ranges : List (Nat × Nat)} (h : Ascending ranges) (n : Nat) :
    inRanges ranges n = true ↔ ∃ r ∈ ranges, r.1 ≤ n ∧ n ≤ r.2 := by
  induction ranges with
  | nil => simp [inRanges]
  | cons r rest ih =>
    obtain ⟨low, high⟩ := r
    have hr := List.pairwise_cons.1 h
    by_cases hn : n ≤ high
    · have hrest : ¬ ∃ r ∈ rest, r.1 ≤ n ∧ n ≤ r.2 := by
        rintro ⟨r, hmem, hlow, -⟩
        have := hr.1 r hmem
        omega
      simp [inRanges, hn, hrest]
    · simp [inRanges, hn, ih hr.2]

end Rowbase.Text
