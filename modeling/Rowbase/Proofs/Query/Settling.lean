import Rowbase.Proofs.Query.Optimize

/-! # What optimising leaves

One pass is enough. It leaves a single way to the table, and above it only projections and those filters that found
something in their way: a filter stands right over the way to the table just where the two ask a column for different
values. Such a plan has nothing left to join, so optimising it again, for whatever indices, gives it back. -/
namespace Rowbase.Plan

variable {indices : List IndexOutline} {condition : Row} {p : Plan}

/-- Whether each filter of a plan has to stay where it is. -/
def Settled : Plan → Prop
  | filter condition input => input.Blocks condition ∧ input.Settled
  | project _ input => input.Settled
  | _ => True

theorem Settled.optimize_eq (indices : List IndexOutline) (h : p.Settled) : p.optimize indices = p := by
  induction p with
  | filter condition input ih =>
    obtain ⟨hblocks, hinput⟩ := h
    unfold optimize
    rw [ih hinput]
    rcases restrict_cases indices condition input with ⟨-, hstays⟩ | ⟨hfree, -⟩
    · exact hstays
    · exact absurd hblocks hfree
  | project columns input ih =>
    unfold optimize
    rw [ih h]
  | _ => rfl

theorem settled_access (indices : List IndexOutline) (table : String) (condition : Row) :
    (access indices table condition).Settled := by
  rcases access_cases indices table condition with h | ⟨o, -, -, residual, h, -⟩ <;> rw [h] <;> trivial

theorem projections_access (indices : List IndexOutline) (table : String) (condition : Row) :
    (access indices table condition).projections = [] := by
  rcases access_cases indices table condition with h | ⟨o, -, -, residual, h, -⟩ <;> rw [h] <;> rfl

/-- Over a settled plan a condition either has to stay, or leaves nothing but a way to the table. -/
theorem Settled.restrict (indices : List IndexOutline) (condition : Row) (h : p.Settled) :
    (p.restrict indices condition).Settled := by
  rcases restrict_cases indices condition p with ⟨hblocks, hstays⟩ | ⟨-, -, joined, haccess⟩
  · rw [hstays]
    exact ⟨hblocks, h⟩
  · rw [haccess]
    exact settled_access indices p.table joined

theorem projections_restrict (indices : List IndexOutline) (condition : Row) (p : Plan) :
    (p.restrict indices condition).projections = p.projections := by
  rcases restrict_cases indices condition p with ⟨-, hstays⟩ | ⟨-, hnone, joined, haccess⟩
  · rw [hstays]
    rfl
  · rw [haccess, hnone]
    exact projections_access indices p.table joined

theorem settled_optimize (indices : List IndexOutline) (p : Plan) : (p.optimize indices).Settled := by
  induction p with
  | filter condition input ih => exact ih.restrict indices condition
  | project columns input ih => exact ih
  | _ => trivial

theorem projections_optimize (indices : List IndexOutline) (p : Plan) :
    (p.optimize indices).projections = p.projections := by
  induction p with
  | filter condition input ih => exact (projections_restrict indices condition _).trans ih
  | project columns input ih => exact congrArg (columns :: ·) ih
  | _ => rfl

/-- Just the settled plans are left as they are. -/
theorem optimize_eq_self_iff : p.optimize indices = p ↔ p.Settled := by
  constructor
  · intro h
    have hsettled := settled_optimize indices p
    rwa [h] at hsettled
  · exact Settled.optimize_eq indices

/-- Optimising settles a plan in one pass. The plan reads the same table and cuts down to the same columns as before;
no filter stands right over a scan, and one right over another way to the table only where the two clash; and
optimising the plan again, for these or any other indices, changes nothing. -/
theorem optimize_settles (indices : List IndexOutline) (p : Plan) :
    (p.optimize indices).Settled ∧
      (∀ indices', (p.optimize indices).optimize indices' = p.optimize indices) ∧
      (p.optimize indices).table = p.table ∧
      (p.optimize indices).projections = p.projections := by
  have hsettled := settled_optimize indices p
  refine ⟨hsettled, ?_, table_optimize indices p, projections_optimize indices p⟩
  intro indices'
  exact optimize_eq_self_iff.2 hsettled

/-- Of two filters that ask a column for different values the upper one stays. -/
example : optimize [] (filter (.ofList [("a", .integer 2)]) (filter (.ofList [("a", .integer 1)]) (scan "t"))) =
    filter (.ofList [("a", .integer 2)]) (filteredScan "t" (.ofList [("a", .integer 1)])) := by decide

end Rowbase.Plan
