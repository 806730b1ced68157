import Mathlib.Tactic.Common
import Rowbase.Index.Key

/-! # The order of keys

The first two values in which keys differ decide, and the lengths where there are none. Keys of any lengths with values
of any kinds so stand in one total order, in which a key is equal to itself alone. Within a kind the order calls equal
just what a condition does. -/
namespace Rowbase

namespace Value

theorem compare_eq_iff {v w : Value} : v.compare w = .eq ↔ v = w := Std.LawfulEqCmp.compare_eq_iff_eq

/-- Values of one kind are equal in the order just if they are for a condition. -/
theorem compare_eq_iff_agrees {v w : Value} {k : Kind} (hv : v.kind? = some k) (hw : w.kind? = some k) :
    v.compare w = .eq ↔ v.agrees w = .ok true := by
  rw [compare_eq_iff]
  unfold agrees
  simp [hv, hw]

end Value

namespace Key

/-- Keys are compared value by value, up to the first two that differ or to where one of the keys ends. -/
theorem compare_eq_foldr (a b : Key) : a.compare b =
    ((a.zip b).map fun p => p.1.compare p.2).foldr Ordering.then (Ord.compare a.length b.length) := by
  unfold Key.compare
  induction a generalizing b with
  | nil =>
    cases b with
    | nil => rfl
    | cons w b => exact List.compareLex_nil_cons.trans (Nat.compare_eq_lt.2 (Nat.zero_lt_succ _)).symm
  | cons v a ih =>
    cases b with
    | nil => exact List.compareLex_cons_nil.trans (Nat.compare_eq_gt.2 (Nat.zero_lt_succ _)).symm
    | cons w b =>
      have hlengths : Ord.compare (v :: a).length (w :: b).length = Ord.compare a.length b.length := by
        simp [Ord.compare, compareOfLessAndEq]
      rw [List.compareLex_cons_cons, hlengths, ih b]
      rfl

/-- Comparing keys is a total order in which a key is equal to itself alone. The first values that differ decide, then
the lengths, and values of one kind are equal just if they are for a condition. -/
theorem total_order :
    (∀ a b : Key, a.compare b =
      ((a.zip b).map fun p => p.1.compare p.2).foldr Ordering.then (Ord.compare a.length b.length)) ∧
    (∀ a b : Key, a.compare b = .eq ↔ a = b) ∧
    (∀ a b : Key, b.compare a = (a.compare b).swap) ∧
    (∀ a b c : Key, (a.compare b).isLE → (b.compare c).isLE → (a.compare c).isLE) ∧
    ∀ (k : Kind) (v w : Value), v.kind? = some k → w.kind? = some k →
      (v.compare w = .eq ↔ v.agrees w = .ok true) := by
  refine ⟨compare_eq_foldr, ?_, ?_, ?_, ?_⟩
  · intro a b
    exact Std.LawfulEqCmp.compare_eq_iff_eq
  · intro a b
    exact Std.OrientedCmp.eq_swap
  · intro a b c hab hbc
    exact Std.TransCmp.isLE_trans hab hbc
  · intro k v w hv hw
    exact Value.compare_eq_iff_agrees hv hw

/-- A key that another begins with comes first, and NULL comes before a truth value, which comes before an integer. -/
theorem total_order_mixed :
    let one : Key := [.null]
    let two : Key := [.null, .boolean true]
    let three : Key := [.null, .integer (-1)]
    one.compare two = .lt ∧ two.compare three = .lt ∧ (one.compare three).isLE ∧
      Value.agrees (.integer (-1)) (.integer (-1)) = .ok true := by
  intro one two three
  have hone : one.compare two = .lt := by decide
  have htwo : two.compare three = .lt := by decide
  obtain ⟨-, -, -, htrans, hagrees⟩ := total_order
  exact ⟨hone, htwo, htrans one two three (by rw [hone]; rfl) (by rw [htwo]; rfl),
    (hagrees .int _ _ rfl rfl).1 (by decide)⟩

end Key

end Rowbase
