import Rowbase.Proofs.Session.Following
import Rowbase.Proofs.Session.History
import Rowbase.Proofs.Twin.Tandem

/-! # Rows in tandem

SELECT, INSERT, DELETE and the SHOW statements are done in tandem: they return the same on catalogs that say the same,
whatever other handles stand for what they say. -/
namespace Rowbase.Catalog

open Act Database

variable {l : Location} {own : Nat → Prop} {L : List String} {t i : String}

/-! ## Listing -/

theorem tandem_showTables : Tandem l own L showTables :=
  tandem_told surveys_showTables (fun hm => hm.value_showTables) fun h => by rw [h]

theorem tandem_showColumns (t : Option String) : Tandem l own L (showColumns t) :=
  tandem_told (surveys_showColumns t) (fun hm => hm.value_showColumns t) fun h => by rw [h]

theorem tandem_showIndex (t : String) : Tandem l own L (showIndex t) :=
  tandem_told (surveys_showIndex t) (fun hm => hm.value_showIndex t) fun h => by rw [h]

/-! ## Finding -/

theorem tandem_pickColumns (ht : Usable L t) (names : List String) :
    Tandem l own L (onRelation t (.look fun r _ => r.pickColumns names)) :=
  tandem_onRelation ht (passesBy_look fun _ _ => rfl)

theorem tandem_conditionOf (hpick : ∀ names : List String,
    Tandem l own L (onRelation t (.look fun r _ => r.pickColumns names))) : ∀ e : Option Language.Expr,
    Tandem l own L (conditionOf t e)
  | none => tandem_pure none
  | some e => (tandem_result (Row.ofExpr e)).bind fun condition =>
      ((hpick condition.keys).adapt Refusal.storage).discard.bind fun _ => tandem_pure _

theorem tandem_find : ∀ plan : Plan, Usable L plan.table → Tandem l own L plan.find
  | .scan _, ht | .filteredScan _ _, ht => tandem_onRelation ht (Relation.passesBy_select _)
  | .filter condition input, ht => (tandem_find input ht).bind fun handles =>
      tandem_onRelation ht (Relation.passesBy_keep condition handles)
  | .project _ input, ht => tandem_find input ht
  | .indexLookup t i key residual, ht => by
    refine Tandem.bind (tandem_onRelation ht (passesBy_look fun _ _ => rfl)) fun fits => ?_
    split
    · refine Tandem.bind (tandem_onIndex (Index.passesBy_lookup key)) fun handles => ?_
      cases residual with
      | none => exact tandem_pure _
      | some residual => exact tandem_onRelation ht (Relation.passesBy_keep residual handles)
    · exact tandem_onRelation ht (Relation.passesBy_select _)

theorem tandem_evaluate (plan : Plan) (ht : Usable L plan.table) : Tandem l own L plan.evaluate :=
  (tandem_find plan ht).bind fun handles => tandem_onRelation ht
    ((passesBy_look fun _ _ => rfl).bind fun columns =>
      (passesBy_mapM (fun h => Relation.passesBy_project h columns) handles).bind fun _ => passesBy_pure _)

/-- The rows of a describing relation are found in tandem by reading all of it. -/
theorem tandem_evaluate_own (hn : t ∈ Schema.names) (condition : Option Row) (names : List String) :
    Tandem l own L ((Plan.project names (planFor t condition)).optimize []).evaluate := by
  have heq : ((Plan.project names (planFor t condition)).optimize []).evaluate =
      onRelation t (Relation.rows condition names >>= fun rows => pure (names, rows)) := by
    rw [Relation.rows, bind_assoc]
    cases condition <;> exact onRelation_bind hn _ _
  have hreads : Reads Relation.view (Relation.rows condition names) := Relation.reads_rows condition names
  rw [heq]
  refine tandem_own hn (hreads.bind fun _ => reads_pure _) fun hr hr' hrows => ?_
  rw [hreads.value_bind fun _ => reads_pure _, hreads.value_bind fun _ => reads_pure _,
    hr.rows_congr hr' hrows]
  rfl

/-! ## Selecting -/

theorem tandem_selectedNames (t : String) : ∀ what, Tandem l own L (selectedNames t what)
  | .all => ((tandem_columnsOf t).adapt _).bind fun _ => tandem_pure _
  | .columns names => tandem_pure names

theorem outlines_own {d : Database} (hd : d.description.Covers L) (hn : t ∈ Schema.names) : d.outlines t = [] := by
  have hnil : d.indexNames t = [] := by
    rw [indexNames_description, List.filter_eq_nil_iff.2]
    · rw [List.map_nil, List.eraseDups_nil, List.mergeSort_nil]
    · intro e he ht
      exact hd.indices e he (of_decide_eq_true ht ▸ hn)
  rw [outlines, hnil]
  rfl

theorem tandem_selectNamed (ht : t ∈ L) (names : List String) (e : Option Language.Expr) :
    Tandem l own L (selectNamed t names e) := by
  by_cases hn : t ∈ Schema.names
  · have hpick : ∀ names : List String, Tandem l own L (onRelation t (.look fun r _ => r.pickColumns names)) :=
      fun names => tandem_ownLook hn fun name columns => (Relation.describe name columns "").pickColumns names
    refine ((hpick names).adapt _).bind fun columns => (tandem_conditionOf hpick e).bind fun condition => ?_
    -- there is no index of a describing relation
    refine abreast_twins fun d d' hd hdesc => abreast_known (x := (indexOutlines t).adapt Refusal.storage)
      ((surveys_indexOutlines t).adapt Refusal.storage) (fun hm => value_adapt_ok (hm.value_indexOutlines t) _) ?_
    rw [outlines_congr hdesc, outlines_own hd hn]
    exact (((tandem_evaluate_own hn condition names).adapt _).bind fun _ => tandem_pure _).mono
      (fun hm => ⟨d, d', hd, hm⟩) id
  · have hu : Usable L t := ⟨ht, hn⟩
    refine ((tandem_pickColumns hu names).adapt _).bind fun columns =>
      (tandem_conditionOf (tandem_pickColumns hu) e).bind fun condition =>
      ((tandem_indexOutlines t).adapt _).bind fun indices => ?_
    have htable : ((Plan.project names (planFor t condition)).optimize indices).table = t := by
      rw [Plan.table_optimize]
      exact table_planFor t condition
    exact ((tandem_evaluate _ (htable.symm ▸ hu)).adapt _).bind fun _ => tandem_pure _

theorem tandem_select (what : Language.Selection) (t : String) (e : Option Language.Expr) :
    Tandem l own L (select what t e) := by
  rw [select_eq]
  exact abreast_listed (fun ht => (tandem_selectedNames t what).bind fun names => tandem_selectNamed ht names e) id

/-! ## Inserting and deleting -/

theorem tandem_rollBack {log : List Change} (h : ∀ change ∈ log, Tandem l own L change.undo) :
    Tandem l own L (rollBack log) := abreast_forM fun change hm => (h change hm).caught.discard

theorem tandem_indexRow (handle : Handle) (stored : Row) : ∀ (names : List String) (log : List Change),
    (∀ change ∈ log, Tandem l own L change.undo) → Tandem l own L (indexRow t handle stored log names)
  | [], _, _ => tandem_pure _
  | i :: names, log, hlog => by
    rw [indexRow]
    refine ((tandem_onIndex (Index.passesBy_insert handle stored)).onFailure (tandem_rollBack hlog)).bind fun _ =>
      tandem_indexRow handle stored names _ fun change hm => ?_
    rcases List.mem_cons.1 hm with rfl | hm
    · exact tandem_onIndex (Index.passesBy_delete handle stored)
    · exact hlog change hm

theorem tandem_insertRow (ht : Usable L t) (row : Row) (names : List String) :
    Tandem l own L (insertRow t row names) := by
  refine (tandem_onRelation ht (Relation.passesBy_insert row)).bind fun handle => ?_
  have hlog : ∀ change ∈ [Change.inserted t handle], Tandem l own L change.undo := by
    intro change hm
    rw [List.mem_singleton.1 hm]
    exact tandem_onRelation ht (Relation.passesBy_delete handle)
  exact ((tandem_onRelation ht (Relation.passesBy_project handle [])).onFailure (tandem_rollBack hlog)).bind
    fun stored => tandem_indexRow handle stored names _ hlog

theorem tandem_givenNames (t : String) : ∀ names, Tandem l own L (givenNames t names)
  | some names => tandem_pure names
  | none => ((tandem_columnsOf t).adapt _).bind fun _ => tandem_pure _

theorem tandem_insert (t : String) (names : Option (List String)) (values : List Language.Expr) :
    Tandem l own L (insert t names values) := by
  rw [insert_eq, checkWritable]
  split
  · exact tandem_throw _
  · rename_i hn
    refine (tandem_pure _).bind fun _ => abreast_listed (fun ht => ?_) id
    exact (tandem_givenNames t names).bind fun given => (tandem_result _).bind fun row =>
      ((tandem_indexNames t).adapt _).bind fun indices =>
      ((tandem_insertRow ⟨ht, hn⟩ row indices).adapt _).bind fun _ => tandem_pure _

theorem tandem_deleteRow (ht : Usable L t) (names : List String) (handle : Handle) :
    Tandem l own L (deleteRow t names handle) := by
  refine (tandem_onRelation ht (Relation.passesBy_project handle [])).bind fun row => ?_
  have hindices : Tandem l own L (names.forM fun i => onIndex t i (Index.delete handle row)) :=
    abreast_forM fun i _ => tandem_onIndex (Index.passesBy_delete handle row)
  exact hindices.bind fun _ => tandem_onRelation ht (Relation.passesBy_delete handle)

theorem tandem_delete (t : String) (e : Option Language.Expr) : Tandem l own L (delete t e) := by
  rw [delete, checkWritable]
  split
  · exact tandem_throw _
  · rename_i hn
    refine (tandem_pure _).bind fun _ => abreast_listed (fun ht => ?_) id
    have hu : Usable L t := ⟨ht, hn⟩
    refine (tandem_conditionOf (tandem_pickColumns hu) e).bind fun condition =>
      ((tandem_indexOutlines t).adapt _).bind fun indices => ?_
    have htable : ((planFor t condition).optimize indices).table = t := by
      rw [Plan.table_optimize]
      exact table_planFor t condition
    have hrows : ∀ handles : List Handle, Tandem l own L (handles.forM fun h =>
        (deleteRow t (indices.map IndexOutline.name) h).adapt Refusal.storage) :=
      fun handles => abreast_forM fun handle _ => (tandem_deleteRow hu _ handle).adapt _
    exact ((tandem_find _ (htable.symm ▸ hu)).adapt _).bind fun handles =>
      (hrows handles).bind fun _ => tandem_pure _

end Rowbase.Catalog
