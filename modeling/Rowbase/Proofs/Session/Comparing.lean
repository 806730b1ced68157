import Rowbase.Proofs.Session.Agreement
import Rowbase.Proofs.Session.Planning

/-! # Comparing values of two kinds

A condition may ask a column for a value of another kind. Then one way to the rows may compare what cannot be
compared, and fail, where another one does not come to it. Ways that do not fail find the same. -/
namespace Rowbase

open Act Database

namespace Plan

variable {table : String} {B : String → Value → Prop} {indices chosen : List IndexOutline} {p : Plan}

theorem Runnable.mono (hp : p.Runnable table B chosen) (hsub : chosen ⊆ indices) : p.Runnable table B indices := by
  induction p with
  | scan t => exact hp
  | filter condition input ih => exact ⟨hp.1, ih hp.2⟩
  | project names input ih => exact ih hp
  | filteredScan t condition => exact hp
  | indexLookup t name key residual =>
    obtain ⟨ht, hk, hr, hl, o, ho, hx⟩ := hp
    exact ⟨ht, hk, hr, hl, o, hsub ho, hx⟩

/-- Whichever indices it is led through, a plan whose conditions ask for columns of its table finds the rows that it
admits, unless it compares values of two kinds. -/
theorem optimize_yields {c : Catalog} {fs : Files} {r : Relation} {rows : List (Handle × Row)}
    (h : c.Indexed fs table r rows indices) (hsub : chosen ⊆ indices)
    (hp : p.Runnable table (fun name _ => name ∈ r.columns.map Column.name) chosen) :
    Yields StorageError.IsMismatch ((p.optimize chosen).find.value c fs)
      ((rows.filter fun e => p.admits e.2).map Prod.fst) := by
  have hyields := find_yields h (fun _ _ hb => hb)
    (fun hc _ he => Row.meets_yields_of_named (h.lists.stored he) hc) (hp.optimize.mono hsub)
  simpa only [admits_optimize] using hyields

end Plan

namespace Session

variable {l : Location} {sites : Sites} {s : Session} {fs before : Files} {t : String}
  {statements : List Language.Statement} {condition : Row} {columns : List Column} {rows : List (Handle × Row)}

/-- After any run, a condition on columns of a table finds the rows that have its values, whichever of the table's
indices are used, or it fails because values of two kinds are compared. -/
theorem search_run (h : l.Fits sites before statements) (hrun : run statements (⟨l, none⟩, before) = (s, fs))
    (hown : t ∉ Schema.names) (hcolumns : sees (s, fs) (Catalog.columnsOf t) = .ok columns)
    (hrows : sees (s, fs) (Catalog.rowsOf t) = .ok rows)
    (hcondition : condition.Binds fun name _ => name ∈ columns.map Column.name) :
    ∃ indices, sees (s, fs) (Catalog.indexOutlines t) = .ok indices ∧ ∀ chosen ⊆ indices,
      Yields StorageError.IsMismatch
        (sees (s, fs) ((Catalog.planFor t (some condition)).optimize chosen).find)
        ((rows.filter fun e => e.2.satisfies condition).map Prod.fst) := by
  obtain ⟨d, c, fs', hopens⟩ := opens_run h
  rw [hrun] at hopens
  have hm := hopens.models
  have hd := hopens.sound
  rw [sees_of_opened hopens.opened] at hcolumns hrows
  refine ⟨d.outlines t, (sees_of_opened hopens.opened _).trans (hm.value_indexOutlines t), fun chosen hsub => ?_⟩
  rw [sees_of_opened hopens.opened]
  cases hc : d.content t with
  | none =>
    rw [hm.value_rowsOf_none hd.regular.toDescribed hc] at hrows
    cases hrows
  | some ct =>
    obtain ⟨r, hr, hindexed⟩ := hm.indexed hd hc
    rw [hm.value_rowsOf hd.regular.toDescribed hc] at hrows
    rw [content_of_not_mem hown] at hc
    rw [hm.value_columnsOf, hd.regular.columns t hown, hc] at hcolumns
    cases hrows
    cases hcolumns
    exact Plan.optimize_yields hindexed hsub ⟨by rw [hr]; exact hcondition, rfl⟩

/-- A condition for the table with two indices that asks a column of texts for a number. -/
def mixed : Row := .ofList [("b", .integer 1), ("a", .integer 2)]

theorem search_run_taken : ∃ s fs columns rows, Location.Fits {} (.of taken) (.fresh ["home"]) taken ∧
    run taken (⟨{}, none⟩, .fresh ["home"]) = (s, fs) ∧ "t" ∉ Schema.names ∧
    sees (s, fs) (Catalog.columnsOf "t") = .ok columns ∧ sees (s, fs) (Catalog.rowsOf "t") = .ok rows ∧
    rows ≠ [] ∧ mixed.Binds (fun name _ => name ∈ columns.map Column.name) ∧
    ∃ indices, sees (s, fs) (Catalog.indexOutlines "t") = .ok indices ∧ ∀ chosen ⊆ indices,
      Yields StorageError.IsMismatch (sees (s, fs) ((Catalog.planFor "t" (some mixed)).optimize chosen).find)
        ((rows.filter fun e => e.2.satisfies mixed).map Prod.fst) := by
  obtain ⟨d, s, fs, c, ct, handle, hrun, hopens, hc, hcols, hrows, -⟩ := opens_taken
  have hown := hopens.sound.regular.not_mem_of_table hc
  have hcolumns : sees (s, fs) (Catalog.columnsOf "t") = .ok takenColumns := by
    rw [sees_of_opened hopens.opened, hopens.models.value_columnsOf, hopens.sound.regular.columns "t" hown, hc,
      ← hcols]
    rfl
  have hlive : sees (s, fs) (Catalog.rowsOf "t") = .ok [(handle, takenRow)] := by
    rw [sees_of_opened hopens.opened, hopens.models.value_rowsOf hopens.sound.regular.toDescribed
      (hopens.sound.regular.content_eq hc), hrows]
  have hmixed : mixed.Binds fun name _ => name ∈ takenColumns.map Column.name := by
    intro name v hv
    have hm : ∀ e ∈ mixed.entries, e.1 ∈ takenColumns.map Column.name := by decide
    exact hm _ ((Bindings.get?_eq_some_iff _ _ _).1 hv)
  exact ⟨s, fs, _, _, fits_taken, hrun, hown, hcolumns, hlive, List.cons_ne_nil _ _, hmixed,
    search_run fits_taken hrun hown hcolumns hlive hmixed⟩

end Session

end Rowbase
