import Rowbase.Proofs.Query.Equations
import Rowbase.Proofs.Session.Planning
import Rowbase.Proofs.Session.Agreement

/-! # What SELECT answers

SELECT answers with the rows that its plan finds, in their order, each cut down to the selected columns. -/
namespace Rowbase

open Database Act

/-! ## Rows cut down to all columns -/

namespace Bindings

variable {α β : Type} [DecidableEq α]

theorem keys_foldl_insert_congr : ∀ (entries entries' : List (α × β)) {b b' : Bindings α β},
    entries.map Prod.fst = entries'.map Prod.fst → b.keys = b'.keys →
    (entries.foldl (fun b e => b.insert e.1 e.2) b).keys = (entries'.foldl (fun b e => b.insert e.1 e.2) b').keys
  | [], [], _, _, _, hb => hb
  | e :: entries, e' :: entries', b, b', h, hb => by
    obtain ⟨he, h⟩ := List.cons.inj h
    refine keys_foldl_insert_congr entries entries' h ?_
    rw [keys_insert, keys_insert, he, hb]

/-- Which keys a list binds, and in which order, does not depend on the values. -/
theorem keys_ofList_congr {entries entries' : List (α × β)} (h : entries.map Prod.fst = entries'.map Prod.fst) :
    (ofList entries).keys = (ofList entries').keys := keys_foldl_insert_congr entries entries' h rfl

theorem entries_eq (b : Bindings α β) : b.entries = b.keys.filterMap fun k => (b.get? k).map (k, ·) := by
  rw [keys, List.filterMap_map]
  refine ((List.filterMap_congr fun e he => ?_).trans List.filterMap_some).symm
  rw [Function.comp_apply, (get?_eq_some_iff b e.1 e.2).2 he]
  rfl

/-- Maps that list the same keys and bind them to the same values are one. -/
theorem eq_of_keys {b b' : Bindings α β} (hk : b.keys = b'.keys) (h : ∀ k ∈ b.keys, b.get? k = b'.get? k) :
    b = b' := by
  refine eq_of_entries ?_
  rw [entries_eq, entries_eq, ← hk]
  exact List.filterMap_congr fun k hm => by rw [h k hm]

end Bindings

/-- A row that is cut down to all columns that it has is the row. -/
theorem Row.cut_ofList (cells : List (String × Value)) :
    Row.cut (.ofList cells) (cells.map Prod.fst) = .ofList cells := by
  cases cells with
  | nil => rfl
  | cons cell cells =>
    have hkeys : (Row.cut (.ofList (cell :: cells)) ((cell :: cells).map Prod.fst)).keys =
        (Bindings.ofList (cell :: cells)).keys := by
      refine Bindings.keys_ofList_congr ?_
      rw [List.map_map]
      exact List.map_id _
    refine Bindings.eq_of_keys hkeys fun name hm => ?_
    have hbound : ∀ {r : Row}, name ∈ r.keys → ∃ v, r.get? name = some v := fun {r} hm =>
      Option.ne_none_iff_exists'.1 fun hnone => (Bindings.get?_eq_none_iff r name).1 hnone hm
    obtain ⟨v, hv⟩ := hbound hm
    obtain ⟨w, hw⟩ := hbound (hkeys ▸ hm)
    rw [hv, hw]
    rw [List.map_cons, Row.cut, Bindings.get?_ofList_map, hw] at hv
    · split at hv
      · exact hv.symm
      · cases hv
    · exact List.cons_ne_nil _ _

/-- A stored row has just the columns of its relation. -/
theorem Heap.cut_of_decode {relation : String} {columns : List Column} {bytes : ByteArray} {row : Row}
    (h : decode relation columns bytes = .ok row) : row.cut (columns.map Column.name) = row := by
  obtain ⟨cells, hcells, h⟩ := bind_eq_ok.1 h
  cases h
  rw [← (decodeValues_eq_ok hcells).1]
  exact Row.cut_ofList cells

theorem Relation.Serves.cut_eq {r : Relation} {l : Location} {fs : Files} {name : String} {columns : List Column}
    {tape : Tape Row} {handle : Handle} {row : Row} (hr : r.Serves l fs name columns tape)
    (hm : (handle, row) ∈ tape.live) : row.cut (columns.map Column.name) = row := by
  obtain ⟨id, hh⟩ := hr.holds
  obtain ⟨data, -, hd⟩ := hh.mem_live.1 hm
  rw [← hr.columns_eq]
  exact Heap.cut_of_decode hd

namespace Models

variable {l : Location} {sites : Sites} {c : Catalog} {fs : Files} {d : Database} {t : String} {ct : Content}
  {p : Plan} {names : List String} {found : List (Handle × Row)}

/-! ## Rows that are found -/

/-- What a plan returns of the rows that it finds. -/
theorem value_evaluate (h : Models l sites c fs d) (hd : d.Sound l sites) (hc : d.content p.table = some ct)
    (hsub : ∀ e ∈ found, e ∈ ct.rows.live) (hfind : p.find.value c fs = .ok (found.map Prod.fst))
    (hnames : ∀ name ∈ names, name ∈ ct.columns.map Column.name) :
    (Plan.project names p).evaluate.value c fs = .ok (names, found.map fun e => e.2.cut names) := by
  obtain ⟨r, hr, hv⟩ := h.value_onRelation hd.regular.toDescribed hc
  have hrows : ((found.map Prod.fst).mapM fun handle => Relation.project handle names).value r fs =
      .ok (found.map fun e => e.2.cut names) := by
    rw [value_mapM fun handle => Relation.reads_project handle names]
    refine (mapM_map _ _ _).trans (mapM_ok fun e he => ?_)
    rw [hr.value_project (hsub e he), Row.restrict_of_bound]
    intro name hm
    obtain ⟨v, hv, -⟩ := hr.stored (hsub e he) name (hnames name hm)
    exact ⟨v, hv⟩
  rw [Plan.evaluate, (Plan.reads_find _).value_bind fun handles =>
    Catalog.reads_onRelation _ (Plan.reads_output _ handles)]
  change p.find.value c fs >>= (fun handles => (Catalog.onRelation p.table _).value c fs) = _
  rw [hfind]
  refine (hv _).trans ?_
  obtain ⟨r', ha, -⟩ := (reads_mapM (fun handle => Relation.reads_project handle names)
    (found.map Prod.fst)).apply_eq r fs
  rw [hrows] at ha
  have hcolumns : (Act.look fun r _ => .ok ((Plan.project names p).outputColumns r) :
      Act StorageError Relation (List String)).apply r fs = (.ok names, r, fs) := rfl
  rw [value, apply_bind_ok hcolumns, apply_bind_ok ha]
  rfl

end Models

/-! ## Selected columns -/

/-- Whether columns are those of some that a selection asks for. -/
def Language.Selection.Picks (columns : List Column) : Selection → List Column → Prop
  | .all, chosen => chosen = columns
  | .columns names, chosen => chosen.map Column.name = names ∧ ∀ column ∈ chosen, column ∈ columns

theorem Relation.pickColumns_of_nodup {r : Relation} (hnodup : (r.columns.map Column.name).Nodup)
    {chosen : List Column} (h : ∀ column ∈ chosen, column ∈ r.columns) :
    r.pickColumns (chosen.map Column.name) = .ok chosen := by
  refine (mapM_map _ _ _).trans ((mapM_ok (g := id) fun column hm => ?_).trans (by rw [List.map_id]))
  obtain ⟨found, hfound⟩ := exists_column (List.mem_map_of_mem (f := Column.name) (h column hm))
  rw [hfound]
  rw [Relation.column] at hfound
  split at hfound
  · rename_i hsome
    cases hfound
    have hname := of_decide_eq_true (List.find?_some hsome :)
    exact congrArg Except.ok
      (List.inj_on_of_nodup_map hnodup (List.mem_of_find?_eq_some hsome) (h column hm) hname)
  · cases hfound

section
variable {l : Location} {sites : Sites} {c : Catalog} {fs : Files} {d : Database} {t : String} {ct : Content}
  {chosen : List Column} {e : Option Language.Expr} {condition : Option Row} {found : List (Handle × Row)}
  {what : Language.Selection}

theorem tells_selectNamed (h : Models l sites c fs d) (hd : d.Regular l sites) (t : String) (names : List String)
    (e : Option Language.Expr) : Tells l sites d c fs (Catalog.selectNamed t names e) (do
      let columns ← ((Catalog.onRelation t (.look fun r _ => r.pickColumns names)).value c fs).mapError
        Refusal.storage
      let condition ← (Catalog.conditionOf t e).value c fs
      let indices ← .ok (d.outlines t)
      let result ← (((Plan.project names (Catalog.planFor t condition)).optimize indices).evaluate.value c
        fs).mapError Refusal.storage
      .ok (Catalog.answerRows columns result.2)) :=
  .bind (((looks_pickColumns hd.toDescribed t names).tells c fs).adapt _) fun _ =>
    .bind ((looks_conditionOf hd.toDescribed t e).tells c fs) fun _ =>
      .bind ⟨(looks_indexOutlines t).adapt _, value_adapt_ok (h.value_indexOutlines t) _⟩ fun _ =>
        .bind (((looks_evaluate hd _).tells c fs).adapt _) fun _ => tells_pure _

theorem tells_selectedNames (h : Models l sites c fs d) (t : String) :
    ∀ what : Language.Selection, Tells l sites d c fs (Catalog.selectedNames t what) (.ok (match what with
      | .all => (d.columnsOf t).map Column.name
      | .columns names => names))
  | .all => .bind (v := .ok (d.columnsOf t)) (w := fun columns => .ok (columns.map Column.name))
      ⟨(looks_columnsOf t).adapt _, value_adapt_ok (h.value_columnsOf t) _⟩ fun _ => tells_pure _
  | .columns names => tells_pure names

theorem Language.Selection.Picks.mem {columns : List Column} (h : what.Picks columns chosen) :
    ∀ column ∈ chosen, column ∈ columns := by
  cases what with
  | all =>
    rw [show chosen = columns from h]
    exact fun _ hm => hm
  | columns names => exact h.2

/-- What SELECT on a table returns once its columns are there. -/
theorem Models.value_select (h : Models l sites c fs d) (hd : d.Sound l sites) (hc : d.content t = some ct)
    (hcolumns : d.columnsOf t = ct.columns) (hnodup : (ct.columns.map Column.name).Nodup)
    (hwhat : what.Picks ct.columns chosen) (e : Option Language.Expr) : (Catalog.select what t e).value c fs =
      (Catalog.conditionOf t e).value c fs >>= fun condition =>
        ((Plan.project (chosen.map Column.name)
          ((Catalog.planFor t condition).optimize (d.outlines t))).evaluate.value c fs).mapError Refusal.storage >>=
        fun result => .ok (Catalog.answerRows chosen result.2) := by
  have hlisted : (Catalog.checkListed t).value c fs = .ok () := by
    rw [value_checkListed h, if_neg ((hd.regular.listed_iff t).2 ⟨ct, hc⟩)]
  have hnames : (Catalog.selectedNames t what).value c fs = .ok (chosen.map Column.name) := by
    rw [(tells_selectedNames h t what).value]
    cases what with
    | all => rw [show chosen = ct.columns from hwhat, ← hcolumns]
    | columns names => rw [hwhat.1]
  have hpick : (Catalog.onRelation t (.look fun r _ => r.pickColumns (chosen.map Column.name))).value c fs =
      .ok chosen := by
    obtain ⟨r, hr, hv⟩ := h.value_onRelation hd.regular.toDescribed hc
    rw [hv]
    rw [← hr.columns_eq] at hnodup hwhat
    exact Relation.pickColumns_of_nodup hnodup hwhat.mem
  rw [Catalog.select_eq, (looks_checkListed t : Looks l sites d _).reads.value_bind fun _ =>
    ((looks_selectedNames t what).bind fun names => looks_selectNamed hd.regular t names e).reads, hlisted]
  change (Catalog.selectedNames t what >>= fun names => Catalog.selectNamed t names e).value c fs = _
  rw [(looks_selectedNames t what : Looks l sites d _).reads.value_bind fun names =>
    (looks_selectNamed hd.regular t names e).reads, hnames]
  change (Catalog.selectNamed t (chosen.map Column.name) e).value c fs = _
  rw [(tells_selectNamed h hd.regular t _ e).value, hpick]
  rfl

/-- SELECT answers with the rows that its condition finds. -/
theorem Models.select_found (h : Models l sites c fs d) (hd : d.Sound l sites) (hc : d.content t = some ct)
    (hcolumns : d.columnsOf t = ct.columns) (hnodup : (ct.columns.map Column.name).Nodup)
    (hwhat : what.Picks ct.columns chosen) (hcond : (Catalog.conditionOf t e).value c fs = .ok condition)
    (hsub : ∀ e ∈ found, e ∈ ct.rows.live)
    (hfind : ((Catalog.planFor t condition).optimize (d.outlines t)).find.value c fs =
      .ok (found.map Prod.fst)) : (Catalog.select what t e).value c fs =
      .ok (Catalog.answerRows chosen (found.map fun e => e.2.cut (chosen.map Column.name))) := by
  have htable : ((Catalog.planFor t condition).optimize (d.outlines t)).table = t := by
    rw [Plan.table_optimize, table_planFor]
  have hevaluate : (Plan.project (chosen.map Column.name)
      ((Catalog.planFor t condition).optimize (d.outlines t))).evaluate.value c fs = _ :=
    h.value_evaluate hd (htable.symm ▸ hc) hsub hfind fun name hm => by
      obtain ⟨column, hin, rfl⟩ := List.mem_map.1 hm
      exact List.mem_map_of_mem (hwhat.mem column hin)
  rw [h.value_select hd hc hcolumns hnodup hwhat, hcond]
  change ((Plan.project (chosen.map Column.name)
    ((Catalog.planFor t condition).optimize (d.outlines t))).evaluate.value c fs).mapError Refusal.storage >>= _ = _
  rw [hevaluate]
  rfl

/-- The condition of a statement that demands equations is made of them, and the rows that it admits are those of
which they hold. -/
theorem Models.conditionOf_demands (h : Models l sites c fs d) (hd : d.Described) (hc : d.content t = some ct)
    (hnodup : (ct.columns.map Column.name).Nodup) {eqs : List (String × Value)} (hdemands : Language.Demands e eqs)
    (ha : Agreeable ct.columns eqs) : ∃ condition, (Catalog.conditionOf t e).value c fs = .ok condition ∧
      (Catalog.planFor t condition).WellTyped t ct.columns ∧
      ∀ row, (Catalog.planFor t condition).admits row = row.solves eqs := by
  cases e with
  | none =>
    cases show eqs = [] from hdemands
    exact ⟨none, rfl, rfl, fun _ => rfl⟩
  | some e =>
    obtain ⟨condition, hof, hget⟩ := Row.ofExpr_of_equates hdemands ha
    have hfits := Row.fitsColumns_of_agreeable ha hnodup hget
    refine ⟨some condition, ?_, ⟨hfits, rfl⟩, fun row => ?_⟩
    · obtain ⟨r, hr, hv⟩ := h.value_onRelation hd hc
      obtain ⟨columns, hpick⟩ : ∃ columns, r.pickColumns condition.keys = .ok columns :=
        Relation.exists_pickColumns fun name hm => by
          obtain ⟨v, hv⟩ := Option.ne_none_iff_exists'.1 fun hnone =>
            (Bindings.get?_eq_none_iff condition name).1 hnone hm
          rw [hr.columns_eq]
          exact (hfits name v hv).1
      have hlook : (Catalog.onRelation t (.look fun r _ => r.pickColumns condition.keys)).value c fs = .ok columns :=
        (hv _).trans hpick
      rw [h.value_conditionOf_some hd, hof]
      change ((Catalog.onRelation t (.look fun r _ => r.pickColumns condition.keys)).value c fs).mapError
        Refusal.storage >>= (fun _ => Except.ok (some condition)) = _
      rw [hlook]
      rfl
    · exact (Bool.true_and _).trans (Row.satisfies_eq_solves ha hget row)

/-- SELECT answers with the rows of which its equations hold. -/
theorem Models.select_demands (h : Models l sites c fs d) (hd : d.Sound l sites) (hc : d.content t = some ct)
    (hcolumns : d.columnsOf t = ct.columns) (hnodup : (ct.columns.map Column.name).Nodup)
    (hwhat : what.Picks ct.columns chosen) {eqs : List (String × Value)} (hdemands : Language.Demands e eqs)
    (ha : Agreeable ct.columns eqs) : (Catalog.select what t e).value c fs =
      .ok (Catalog.answerRows chosen ((ct.rows.live.filter fun e => e.2.solves eqs).map fun e =>
        e.2.cut (chosen.map Column.name))) := by
  obtain ⟨condition, hcond, htyped, hadmits⟩ :=
    h.conditionOf_demands hd.regular.toDescribed hc hnodup hdemands ha
  obtain ⟨r, hr, hindexed⟩ := h.indexed hd hc
  rw [← hr] at htyped
  refine h.select_found hd hc hcolumns hnodup hwhat hcond (fun _ hm => (List.mem_filter.1 hm).1) ?_
  rw [Plan.value_find_optimize hindexed htyped, Plan.value_find hindexed (htyped.runnable _)]
  simp only [hadmits]

/-- SELECT refuses what no condition can be made of. -/
theorem Models.select_refused (h : Models l sites c fs d) (hd : d.Sound l sites) (hc : d.content t = some ct)
    (hcolumns : d.columnsOf t = ct.columns) (hnodup : (ct.columns.map Column.name).Nodup)
    (hwhat : what.Picks ct.columns chosen) {e : Language.Expr} {err : Refusal} (he : Row.ofExpr e = .error err) :
    (Catalog.select what t (some e)).value c fs = .error err := by
  rw [h.value_select hd hc hcolumns hnodup hwhat, h.value_conditionOf_some hd.regular.toDescribed, he]
  rfl

end

/-! ## After any run -/

namespace Session

variable {l : Location} {sites : Sites} {s : Session} {c : Catalog} {fs fs' before : Files} {d : Database}
  {t : String} {statements : List Language.Statement}

/-- In a session that opens, a listed table has the columns that the catalog says, with different names. -/
theorem Opens.listed (h : Opens l sites d s fs c fs') (hown : d.description.DescribesItself)
    (ht : d.tableHandles t ≠ []) : ∃ ct, d.content t = some ct ∧ d.columnsOf t = ct.columns ∧
      (ct.columns.map Column.name).Nodup := by
  have hd := h.sound.regular
  obtain ⟨ct, hc⟩ := (hd.listed_iff t).1 ht
  have hcolumns : d.columnsOf t = ct.columns := by
    by_cases hn : t ∈ Schema.names
    · have hself : d.columnsOf t = Schema.columnsOf t := by
        rw [← hown t hn, columnsOf_description, List.map_map]
        rfl
      rw [hself]
      rcases Schema.mem_names.1 hn with rfl | rfl | rfl <;> cases hc <;> rfl
    · rw [content_of_not_mem hn] at hc
      rw [hd.columns t hn, hc]
      rfl
  refine ⟨ct, hc, hcolumns, ?_⟩
  rw [← hcolumns, names_columnsOf]
  exact h.coherent.columns_nodup t

/-- After any run SELECT on a listed table succeeds, for all columns or some that exist, without a condition or with
one that joins equations between columns and values of their kinds by AND. It answers with the columns in the order
of the selection and with the rows of which all equations hold, in the order in which they came, each cut down to the
columns. -/
theorem select_run (h : l.Fits sites before statements) (hrun : run statements (⟨l, none⟩, before) = (s, fs))
    (ht : sees (s, fs) (Catalog.tableExists t) = .ok true) :
    ∃ columns rows, sees (s, fs) (Catalog.columnsOf t) = .ok columns ∧ sees (s, fs) (Catalog.rowsOf t) = .ok rows ∧
      (rows.map Prod.fst).Pairwise Handle.Before ∧ ∀ what chosen condition eqs,
        Language.Selection.Picks columns what chosen → Language.Demands condition eqs → Agreeable columns eqs →
        ((execute (.select what t condition)).apply s fs).1 = .ok (Catalog.answerRows chosen
          ((rows.filter fun e => e.2.solves eqs).map fun e => e.2.cut (chosen.map Column.name))) := by
  obtain ⟨d, c, fs', hopens, -, hown⟩ := opens_run_own h
  rw [hrun] at hopens
  have hm := hopens.models
  have hd := hopens.sound
  rw [sees_of_opened hopens.opened, value_tableExists hm] at ht
  obtain ⟨ct, hc, hcolumns, hnodup⟩ := hopens.listed hown (t := t) fun hnil => by
    rw [hnil] at ht
    cases ht
  refine ⟨ct.columns, ct.rows.live, ?_, ?_, (hm.ascending hc).live,
    fun what chosen condition eqs hwhat hdemands ha => ?_⟩
  · rw [sees_of_opened hopens.opened, hm.value_columnsOf, hcolumns]
  · rw [sees_of_opened hopens.opened, hm.value_rowsOf hd.regular.toDescribed hc]
  · rw [apply_execute hopens.opened]
    exact hm.select_demands hd hc hcolumns hnodup hwhat hdemands ha

/-- A condition on both columns of the table with two indices. -/
def takenCondition : Language.Expr := .binary .and
  (.nested (.binary (.comparison .eq) (.column "b") (.literal (.text "x"))))
  (.binary (.comparison .eq) (.column "a") (.literal (.integer 1)))

/-- What the condition asks for. -/
def takenEquations : List (String × Value) := [("b", .text "x"), ("a", .integer 1)]

theorem demands_taken : Language.Demands (some takenCondition) takenEquations :=
  .and (.nested (.equation (.text "x"))) (.equation (.integer 1))

theorem agreeable_taken : Agreeable takenColumns takenEquations := by decide +kernel

theorem select_run_taken : ∃ s fs, Location.Fits {} (.of taken) (.fresh ["home"]) taken ∧
    run taken (⟨{}, none⟩, .fresh ["home"]) = (s, fs) ∧ sees (s, fs) (Catalog.tableExists "t") = .ok true ∧
    Language.Demands (some takenCondition) takenEquations ∧
    ((execute (.select (.columns ["b"]) "t" (some takenCondition))).apply s fs).1 =
      .ok (Catalog.answerRows [⟨"b", { kind := .text }⟩] [.ofList [("b", .text "x")]]) := by
  obtain ⟨d, s, fs, c, ct, handle, hrun, hopens, hc, hcols, hrows, -⟩ := opens_taken
  have hd := hopens.sound.regular
  have ht : sees (s, fs) (Catalog.tableExists "t") = .ok true := by
    have hne := (hd.listed "t").2 (.inr (by rw [hc]; exact nofun))
    rw [sees_of_opened hopens.opened, value_tableExists hopens.models, List.isEmpty_eq_false_iff.2 hne]
    rfl
  obtain ⟨columns, rows, hcolumns, hlive, -, hselect⟩ := select_run fits_taken hrun ht
  rw [sees_of_opened hopens.opened, hopens.models.value_columnsOf,
    hd.columns "t" (hd.not_mem_of_table hc), hc] at hcolumns
  rw [sees_of_opened hopens.opened, hopens.models.value_rowsOf hd.toDescribed (hd.content_eq hc), hrows] at hlive
  cases hlive
  have hcolumns : takenColumns = columns := hcols.symm.trans (Except.ok.inj hcolumns)
  subst hcolumns
  refine ⟨s, fs, fits_taken, hrun, ht, demands_taken, ?_⟩
  have hsolves : takenRow.solves takenEquations = true := by decide +kernel
  have hfound : ([(handle, takenRow)].filter fun e => e.2.solves takenEquations) = [(handle, takenRow)] :=
    List.filter_eq_self.2 fun e hm => List.mem_singleton.1 hm ▸ hsolves
  have hcut : takenRow.cut ["b"] = .ofList [("b", .text "x")] := by decide +kernel
  rw [hselect (.columns ["b"]) [⟨"b", { kind := .text }⟩] (some takenCondition) _
    ⟨rfl, by decide +kernel⟩ demands_taken agreeable_taken, hfound]
  exact congrArg (fun row => Except.ok (Catalog.answerRows _ [row])) hcut

/-- A statement that makes a table of truth values. -/
def truths : List Language.Statement := [.createTable "t" [⟨"b", .boolean, false⟩] false]

theorem fits_truths : Location.Fits {} (.of truths) (.fresh ["home"]) truths := by decide +kernel

/-- No truth value can be asked for, not even of a column of truth values. -/
theorem select_refused_truths : ∃ s fs, Location.Fits {} (.of truths) (.fresh ["home"]) truths ∧
    run truths (⟨{}, none⟩, .fresh ["home"]) = (s, fs) ∧ sees (s, fs) (Catalog.tableExists "t") = .ok true ∧
    sees (s, fs) (Catalog.columnsOf "t") = .ok [⟨"b", { kind := .boolean }⟩] ∧
    ((execute (.select .all "t"
      (some (.binary (.comparison .eq) (.column "b") (.literal (.boolean true)))))).apply s fs).1 =
      .error (.unsupportedLiteral "TRUE") := by
  have hdesc : Schema.Describes "t" [⟨"b", { kind := .boolean }⟩] :=
    ⟨by decide +kernel, by decide +kernel, List.cons_ne_nil _ _⟩
  have hstorable : Catalog.storableColumns [] [⟨"b", .boolean, false⟩] = .ok [⟨"b", { kind := .boolean }⟩] := rfl
  obtain ⟨s, fs, c, d, hx, hopens, hc, -⟩ := createTable_first fits_truths.suits fits_truths.own (by decide +kernel)
    (by decide) hstorable hdesc false
  have hregular := hopens.sound.regular
  have hcolumns : d.columnsOf "t" = [⟨"b", { kind := .boolean }⟩] := by
    rw [hregular.columns "t" (hregular.not_mem_of_table hc), hc]
    rfl
  refine ⟨s, fs, fits_truths, by rw [truths, run, hx, run], ?_, ?_, ?_⟩
  · have hne := (hregular.listed "t").2 (.inr (by rw [hc]; exact Option.some_ne_none _))
    rw [sees_of_opened hopens.opened, value_tableExists hopens.models, List.isEmpty_eq_false_iff.2 hne]
    rfl
  · rw [sees_of_opened hopens.opened, hopens.models.value_columnsOf, hcolumns]
  · have hwhat : Language.Selection.Picks [⟨"b", { kind := .boolean }⟩] .all [⟨"b", { kind := .boolean }⟩] := rfl
    rw [apply_execute hopens.opened]
    exact hopens.models.select_refused hopens.sound (hregular.content_eq hc) hcolumns (by decide) hwhat rfl

end Session

end Rowbase
