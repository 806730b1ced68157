import Rowbase.Proofs.Session.Delete

/-! # Selecting and listing

SELECT and the SHOW statements only look. -/
namespace Rowbase

open Act

variable {l : Location} {sites : Sites} {d : Database} {t : String} {condition : Option Row}
  {columns : List String}

theorem Relation.reads_rows (condition : Option Row) (columns : List String) :
    Reads Relation.view (Relation.rows condition columns) :=
  (Relation.reads_select condition).bind fun handles =>
    reads_mapM (fun handle => Relation.reads_project handle columns) handles

/-- The names of the columns that a selection asks for. -/
def Catalog.selectedNames (t : String) : Language.Selection → Act Refusal Catalog (List String)
  | .all => do return (← columnsOf t).map Column.name
  | .columns names => pure names

/-- What SELECT does once it is clear which columns are selected. -/
def Catalog.selectNamed (t : String) (names : List String) (e : Option Language.Expr) :
    Act Refusal Catalog Answer := do
  let columns ← (onRelation t (.look fun r _ => r.pickColumns names)).adapt Refusal.storage
  let condition ← conditionOf t e
  let indices ← (indexOutlines t).adapt Refusal.storage
  let result ← ((Plan.project names (planFor t condition)).optimize indices).evaluate.adapt Refusal.storage
  return answerRows columns result.2

/-- SELECT, step by step. -/
theorem Catalog.select_eq (what : Language.Selection) (t : String) (e : Option Language.Expr) :
    select what t e = (do
      checkListed t
      let names ← selectedNames t what
      selectNamed t names e) := by
  rw [select]
  congr 1
  funext _
  cases what with
  | all =>
    rw [selectedNames, bind_assoc]
    simp only [pure_bind]
    rfl
  | columns names =>
    rw [selectedNames, pure_bind]
    rfl

theorem looks_selectedNames (t : String) : ∀ what, Looks l sites d (Catalog.selectedNames t what)
  | .all => ((looks_columnsOf t).adapt _).bind fun _ => looks_pure _
  | .columns names => looks_pure names

theorem looks_selectNamed (hd : d.Regular l sites) (t : String) (names : List String)
    (e : Option Language.Expr) : Looks l sites d (Catalog.selectNamed t names e) :=
  ((looks_pickColumns hd.toDescribed t names).adapt _).bind fun _ =>
    (looks_conditionOf hd.toDescribed t e).bind fun _ => ((looks_indexOutlines t).adapt _).bind fun _ =>
      ((looks_evaluate hd _).adapt _).bind fun _ => looks_pure _

theorem looks_select (hd : d.Regular l sites) (what : Language.Selection) (t : String)
    (e : Option Language.Expr) : Looks l sites d (Catalog.select what t e) := by
  rw [Catalog.select_eq]
  exact (looks_checkListed t).bind fun _ => (looks_selectedNames t what).bind fun names =>
    looks_selectNamed hd t names e

theorem looks_showTables : Looks l sites d Catalog.showTables :=
  ((looks_onTables (Relation.reads_rows _ _)).adapt _).bind fun _ => looks_pure _

theorem looks_showColumns (t : Option String) : Looks l sites d (Catalog.showColumns t) :=
  ((looks_onColumns (Relation.reads_rows _ _)).adapt _).bind fun _ => looks_pure _

theorem looks_showIndex (t : String) : Looks l sites d (Catalog.showIndex t) :=
  ((looks_onIndices (Relation.reads_rows _ _)).adapt _).bind fun _ => looks_pure _

end Rowbase
