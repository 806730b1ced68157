import Rowbase.Proofs.Session.Answers
import Rowbase.Proofs.Session.Entries

/-! # What DELETE removes

DELETE takes out the rows that SELECT under the same condition would have returned: out of the table, where the others
stay as they are, and out of its indices, where the others keep their entries. -/
namespace Rowbase

open Database Act

/-- Of a list without repetition, the elements of a sublist are the sublist. -/
theorem filter_mem_of_sublist {α : Type} [DecidableEq α] {as bs : List α} (h : as.Sublist bs) (hn : bs.Nodup) :
    bs.filter (· ∈ as) = as := by
  induction h with
  | slnil => rfl
  | cons b h ih =>
    obtain ⟨hb, hn⟩ := List.nodup_cons.1 hn
    rw [List.filter_cons_of_neg (by simpa using fun hm => hb (h.subset hm)), ih hn]
  | @cons_cons as bs b h ih =>
    obtain ⟨hb, hn⟩ := List.nodup_cons.1 hn
    rw [List.filter_cons_of_pos (by simp)]
    congr 1
    refine (List.filter_congr fun a ha => ?_).trans (ih hn)
    rw [decide_eq_decide, List.mem_cons, or_iff_right]
    rintro rfl
    exact hb ha

/-- The rows behind the handles of some rows in their order. -/
theorem Tape.map_filter_of_sublist {α : Type} {rows : List (Handle × α)} {hs : List Handle}
    (hsub : hs.Sublist (rows.map Prod.fst)) (hn : (rows.map Prod.fst).Nodup) :
    (rows.filter fun e => e.1 ∈ hs).map Prod.fst = hs := by
  have hmap : (rows.map Prod.fst).filter (· ∈ hs) = hs := filter_mem_of_sublist hsub hn
  rw [List.filter_map] at hmap
  exact hmap

/-- The rows that a condition finds in a table are those that SELECT returns under it. -/
theorem Models.select_finds {l : Location} {sites : Sites} {c : Catalog} {fs : Files} {d : Database} {t : String}
    {ct : Content} {condition : Option Language.Expr} {hs : List Handle} (h : Models l sites c fs d)
    (hd : d.Sound l sites) (hc : d.table t = some ct) (hnodup : (ct.columns.map Column.name).Nodup)
    (hfinds : d.Finds l sites t condition hs) (hsub : hs.Sublist (ct.rows.live.map Prod.fst)) :
    (Catalog.select .all t condition).value c fs =
      .ok (Catalog.answerRows ct.columns ((ct.rows.live.filter fun e => e.1 ∈ hs).map Prod.snd)) := by
  have hcontent := hd.regular.content_eq hc
  have hcolumns : d.columnsOf t = ct.columns := by
    rw [hd.regular.columns t (hd.regular.not_mem_of_table hc), hc]
    rfl
  obtain ⟨-, c₀, fs₀, asked, h₀, hcond, hfind⟩ := hfinds
  rw [conditionOf_congr h h₀ hd hd (.refl d)] at hcond
  rw [Plan.find_congr h h₀ hd hd (.refl d),
    ← Tape.map_filter_of_sublist hsub (h.ascending hcontent).nodup_live] at hfind
  have hwhat : Language.Selection.Picks ct.columns .all ct.columns := rfl
  rw [h.select_found hd hcontent hcolumns hnodup hwhat hcond (fun _ hm => (List.mem_filter.1 hm).1) hfind]
  refine congrArg (fun rows => Except.ok (Catalog.answerRows ct.columns rows)) (List.map_congr_left fun e hm => ?_)
  obtain ⟨-, hr⟩ := h.stored t ct hcontent
  exact hr.cut_eq (List.mem_filter.1 hm).1

/-- Where a condition finds nothing to be deleted, not even no rows, SELECT fails under it as well. -/
theorem Models.select_fails {l : Location} {sites : Sites} {c : Catalog} {fs : Files} {d : Database} {t : String}
    {condition : Option Language.Expr} (h : Models l sites c fs d) (hd : d.Sound l sites) (hown : t ∉ Schema.names)
    (hnodup : ((d.columnsOf t).map Column.name).Nodup) (hfinds : ¬ ∃ hs, d.Finds l sites t condition hs) :
    ∃ e, (Catalog.select .all t condition).value c fs = .error e := by
  cases hc : d.table t with
  | none =>
    have hnil : d.tableHandles t = [] := not_ne_iff.1 fun hne =>
      ((hd.regular.listed t).1 hne).elim hown fun ht => ht hc
    rw [Catalog.select_eq, (looks_checkListed t : Looks l sites d _).reads.value_bind fun _ =>
      ((looks_selectedNames t .all).bind fun names => looks_selectNamed hd.regular t names condition).reads,
      value_checkListed h, if_pos hnil]
    exact ⟨_, rfl⟩
  | some ct =>
    have hcolumns : d.columnsOf t = ct.columns := by
      rw [hd.regular.columns t hown, hc]
      rfl
    rw [hcolumns] at hnodup
    have hwhat : Language.Selection.Picks ct.columns .all ct.columns := rfl
    rw [h.value_select hd (hd.regular.content_eq hc) hcolumns hnodup hwhat]
    cases hcond : (Catalog.conditionOf t condition).value c fs with
    | error e => exact ⟨e, rfl⟩
    | ok asked =>
      cases hfind : ((Catalog.planFor t asked).optimize (d.outlines t)).find.value c fs with
      | ok hs => exact absurd ⟨hs, by rw [hc]; exact nofun, c, fs, asked, h, hcond, hfind⟩ hfinds
      | error e =>
        have hevaluate : (Plan.project (ct.columns.map Column.name)
            ((Catalog.planFor t asked).optimize (d.outlines t))).evaluate.value c fs = .error e := by
          rw [Plan.evaluate, (Plan.reads_find _).value_bind fun handles =>
            Catalog.reads_onRelation _ (Plan.reads_output _ handles)]
          change ((Catalog.planFor t asked).optimize (d.outlines t)).find.value c fs >>= _ = _
          rw [hfind]
          rfl
        refine ⟨.storage e, ?_⟩
        change ((Plan.project (ct.columns.map Column.name)
          ((Catalog.planFor t asked).optimize (d.outlines t))).evaluate.value c fs).mapError Refusal.storage >>= _ = _
        rw [hevaluate]
        rfl

namespace Session

variable {l : Location} {sites : Sites} {s s' : Session} {c : Catalog} {fs fs' fs₁ before : Files} {d : Database}
  {t : String} {statements : List Language.Statement} {condition : Option Language.Expr}
  {res : Except Refusal Answer}

/-- How a DELETE ends, by what sessions see before and after it: it fails where SELECT does, or on one of the catalog's
own tables, and nothing changes that can be seen of any table; or it removes the rows that SELECT returned under the
condition, as many as it says, and no others. -/
inductive Removes (t : String) (condition : Option Language.Expr) (state state' : Session × Files) :
    Except Refusal Answer → Prop
  | refused {e : Refusal} (same : ∀ u, AgreeWholly u state state') (unselected : t ∈ Schema.names ∨
        ∃ e', ((execute (.select .all t condition)).apply state.1 state.2).1 = .error e') :
      Removes t condition state state' (.error e)
  | removed {columns : List Column} {rows gone : List (Handle × Row)} {indices : List String}
      (own : t ∉ Schema.names) (hcolumns : sees state (Catalog.columnsOf t) = .ok columns)
      (hrows : sees state (Catalog.rowsOf t) = .ok rows) (hgone : gone.Sublist rows)
      (selected : ((execute (.select .all t condition)).apply state.1 state.2).1 =
        .ok (Catalog.answerRows columns (gone.map Prod.snd)))
      (hindices : sees state (Catalog.indexNames t) = .ok indices)
      (left : sees state' (Catalog.rowsOf t) = .ok (rows.filter fun e => e.1 ∉ gone.map Prod.fst))
      (columns_left : sees state' (Catalog.columnsOf t) = .ok columns)
      (indices_left : sees state' (Catalog.indexNames t) = .ok indices)
      (entries_left : ∀ i, sees state' (Catalog.entriesOf t i) =
        Index.entriesWithout (gone.map Prod.fst) <$> sees state (Catalog.entriesOf t i))
      (others : ∀ u ≠ t, AgreeWholly u state state') : Removes t condition state state'
        (.ok (.ofMessage (s!"successfully deleted {gone.length} rows from {t}" ++
          Catalog.withIndices indices.length)))

/-- After any run DELETE fails and changes nothing, or removes just the rows that SELECT would have returned. It fails
only where SELECT does. -/
theorem delete_run (h : l.Fits sites before statements) (hrun : run statements (⟨l, none⟩, before) = (s, fs))
    (hx : (execute (.delete t condition)).apply s fs = (res, s', fs')) :
    Removes t condition (s, fs) (s', fs') res := by
  obtain ⟨d, c, fs₁, hopens⟩ := opens_run h
  rw [hrun] at hopens
  have hd := hopens.sound
  have happly := apply_execute hopens.opened (.delete t condition)
  rw [hx] at happly
  rcases hopens.models.delete_cases hd t condition with
    ⟨hfinds, err, c', hdelete, h'⟩ | ⟨hs, c', fs₂, d', hfinds, hdelete, h', hd', hlike, hlive⟩
  · rw [show carryOut (.delete t condition) = Catalog.delete t condition from rfl, hdelete] at happly
    cases happly
    have hopens' := opens_of_models hopens.location h' hd hopens.coherent
    refine .refused (fun u => hopens.agreeWholly hopens' ((Same.refl d).at u)) (or_iff_not_imp_left.2 fun hown => ?_)
    rw [apply_execute hopens.opened]
    refine hopens.models.select_fails hd hown ?_ hfinds
    rw [names_columnsOf]
    exact hopens.coherent.columns_nodup t
  · rw [show carryOut (.delete t condition) = Catalog.delete t condition from rfl, hdelete] at happly
    cases happly
    have hopens' := opens_of_models hopens.location h' hd' (by rw [hlike.description]; exact hopens.coherent)
    obtain ⟨ct, hc, hsub⟩ := hfinds.sublist hd
    have hown := hd.regular.not_mem_of_table hc
    have hcontent := hd.regular.content_eq hc
    have hcolumns : d.columnsOf t = ct.columns := by
      rw [hd.regular.columns t hown, hc]
      rfl
    have hnodup : (ct.columns.map Column.name).Nodup := by
      rw [← hcolumns, names_columnsOf]
      exact hopens.coherent.columns_nodup t
    have hgone := Tape.map_filter_of_sublist hsub (hopens.models.ascending hcontent).nodup_live
    have hlength : hs.length = (ct.rows.live.filter fun e => e.1 ∈ hs).length := by
      rw [← List.length_map (f := Prod.fst), hgone]
    have hself : d'.live t = (d.live t).filter fun e => e.1 ∉ hs := (hlive t).trans (if_pos rfl)
    obtain ⟨ct', hc', -⟩ := hlike.table_some hc
    have hlive' : ct'.rows.live = ct.rows.live.filter fun e => e.1 ∉ hs := by
      rw [← live_of_table hc', hself, live_of_table hc]
    have hseen : sees (s, fs) (Catalog.columnsOf t) = .ok ct.columns := by
      rw [sees_of_opened hopens.opened, hopens.models.value_columnsOf, hcolumns]
    rw [hlength]
    refine .removed hown hseen ?_ List.filter_sublist ?_ ?_ ?_ ?_ ?_ (fun i => ?_) fun u hu => ?_
    · rw [sees_of_opened hopens.opened, hopens.models.value_rowsOf hd.regular.toDescribed hcontent]
    · rw [apply_execute hopens.opened]
      exact hopens.models.select_finds hd hc hnodup hfinds hsub
    · rw [sees_of_opened hopens.opened, hopens.models.value_indexNames]
    · rw [sees_of_opened hopens'.opened, h'.value_rowsOf hd'.regular.toDescribed (hd'.regular.content_eq hc'),
        hlive', hgone]
    · rw [sees_of_opened hopens'.opened, h'.value_columnsOf, hlike.columnsOf, hcolumns]
    · rw [sees_of_opened hopens'.opened, h'.value_indexNames, hlike.indexNames]
    · rw [sees_of_opened hopens.opened, sees_of_opened hopens'.opened, hgone]
      exact hopens.models.entriesOf_loses h' hd hd' hlike hself i
    · exact hopens.agreeWholly hopens' (hlike.sameAt ((hlive u).trans (if_neg hu)))

theorem delete_run_taken : ∃ s fs answer s' fs', Location.Fits {} (.of taken) (.fresh ["home"]) taken ∧
    run taken (⟨{}, none⟩, .fresh ["home"]) = (s, fs) ∧
    (execute (.delete "t" (some takenCondition))).apply s fs = (.ok answer, s', fs') ∧
    Removes "t" (some takenCondition) (s, fs) (s', fs') (.ok answer) := by
  obtain ⟨d, s, fs, c, ct, handle, hrun, hopens, hc, hcols, -⟩ := opens_taken
  have hown := hopens.sound.regular.not_mem_of_table hc
  have hcolumns : d.columnsOf "t" = ct.columns := by
    rw [hopens.sound.regular.columns "t" hown, hc]
    rfl
  have hnodup : (ct.columns.map Column.name).Nodup := by rw [hcols]; decide
  have hwhat : Language.Selection.Picks ct.columns .all ct.columns := rfl
  have hagree : Agreeable ct.columns takenEquations := by rw [hcols]; exact agreeable_taken
  have hvalue := hopens.models.select_demands hopens.sound (hopens.sound.regular.content_eq hc) hcolumns hnodup hwhat
    demands_taken hagree
  have hselect := (congrArg Prod.fst (apply_execute hopens.opened
    (.select .all "t" (some takenCondition)))).trans hvalue
  generalize hx : (execute (.delete "t" (some takenCondition))).apply s fs = outcome
  obtain ⟨res, s', fs'⟩ := outcome
  have hremoves := delete_run fits_taken hrun hx
  cases res with
  | ok answer => exact ⟨s, fs, answer, s', fs', fits_taken, hrun, hx, hremoves⟩
  | error e =>
    cases hremoves with
    | refused _ unselected =>
      obtain ⟨e', he⟩ := unselected.resolve_left hown
      rw [hselect] at he
      cases he

end Session

end Rowbase
