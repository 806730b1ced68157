import Rowbase.Proofs.Database.Midway
import Rowbase.Proofs.Session.Outcome

/-! # Deleting rows

A row that is deleted goes out of the indices of its table, one by one, and then out of the table. Of rows
that are found none is found twice, so that all of them can be deleted. -/
namespace Rowbase

open Database Act

namespace Models

variable {l : Location} {sites : Sites} {c : Catalog} {fs : Files} {d d' : Database}
  {t : String} {ct : Content} {handle : Handle} {row : Row}

/-- A row goes out of one index after the other. -/
theorem deleteFromAll (hd : d.Sound l sites) (hc : d.table t = some ct)
    (hm : (handle, row) ∈ ct.rows.live) (hnodup : (ct.rows.live.map Prod.fst).Nodup) :
    ∀ (rest done : List String) (c : Catalog) (fs : Files) (d' : Database),
      (rest ++ done).Perm (d.indexNames t) → Models l sites c fs d' →
      d.Midway t ct (ct.rows.live.filter fun e => e.1 ≠ handle) done d' →
      ∃ c' fs' d₂ done',
        (rest.forM fun index => Catalog.onIndex t index (Index.delete handle row)).apply c fs =
          (.ok (), c', fs') ∧ Models l sites c' fs' d₂ ∧ done'.Perm (d.indexNames t) ∧
        d.Midway t ct (ct.rows.live.filter fun e => e.1 ≠ handle) done' d₂
  | [], done, c, fs, d', hperm, h, hmid => ⟨c, fs, d', done, rfl, h, hperm, hmid⟩
  | i :: rest, done, c, fs, d', hperm, h, hmid => by
    have hi : i ∉ done := fun hi => by
      have := hperm.nodup_iff.2 (nodup_indexNames d t)
      exact (List.nodup_cons.1 this).1 (List.mem_append_right _ hi)
    obtain ⟨ix, hx, hs⟩ := hmid.index_of_mem hd (hperm.mem_iff.1 (.head _))
    have hexact := hmid.exact_other (fun h => hi h.2) hx
    rw [live_of_table hc] at hexact
    obtain ⟨ix', c₁, fs₁, happly, h₁, halike, hl, hexact'⟩ := h.unindex hx hs hexact hnodup hm
    obtain ⟨c', fs', d₂, done', hrest, h'⟩ := deleteFromAll hd hc hm hnodup rest (i :: done) c₁ fs₁ _
      (List.perm_middle.trans hperm) h₁ (hmid.finish hx halike hl hexact')
    refine ⟨c', fs', d₂, done', ?_, h'⟩
    rw [List.forM_eq_forM, List.forM_cons, apply_bind_ok happly]
    exact hrest

/-- A row that is there can be deleted, and leaves the others. -/
theorem deleteRow (h : Models l sites c fs d) (hd : d.Sound l sites) (hc : d.table t = some ct)
    (hm : (handle, row) ∈ ct.rows.live) :
    ∃ c' fs' d', (Catalog.deleteRow t (d.indexNames t) handle).apply c fs = (.ok (), c', fs') ∧
      Models l sites c' fs' d' ∧ d'.Sound l sites ∧ d.Like d' ∧
      ∀ t', d'.live t' = if t' = t then (d.live t).filter fun e => e.1 ≠ handle else d.live t' := by
  have hn := hd.regular.not_mem_of_table hc
  have hcontent := hd.regular.content_eq hc
  have hnodup : (ct.rows.live.map Prod.fst).Nodup := (h.ascending hcontent).nodup_live
  obtain ⟨c₁, hread, h₁⟩ := h.readRow hd.regular.toDescribed hcontent hm
  have hmid : d.Midway t ct (ct.rows.live.filter fun e => e.1 ≠ handle) [] d := by
    refine ⟨.refl d, hc, fun _ _ => rfl, fun t' i ix hx => ?_⟩
    dsimp only
    rw [if_neg fun h => List.not_mem_nil h.2]
    exact hd.exact t' i ix hx
  obtain ⟨c₂, fs₂, d₂, done, hindices, h₂, hdone, hmid₂⟩ := deleteFromAll hd hc hm hnodup (d.indexNames t) []
    c₁ fs d (List.append_nil _ ▸ .refl _) h₁ hmid
  obtain ⟨res, c', fs', hx, hres, h'⟩ :=
    h₂.clearRow (hd.regular.like hmid₂.like).toDescribed hn hmid₂.table handle
  rw [hres ⟨row, hm⟩] at hx
  have hmid' := hmid₂.setTable (ct.rows.clear handle)
  rw [← Tape.live_clear] at hmid'
  refine ⟨c', fs', _, ?_, h', hmid'.sound hd fun i hi => hdone.mem_iff.2 hi, hmid'.like, fun t' => ?_⟩
  · rw [Catalog.deleteRow, apply_bind_ok hread, apply_bind_ok hindices]
    exact hx
  · rw [hmid'.live, Tape.live_clear, live_of_table hc]

/-- Rows that are there can all be deleted. -/
theorem deleteRows (t : String) :
    ∀ (hs : List Handle) (c : Catalog) (fs : Files) (d : Database) (ct : Content),
      Models l sites c fs d → d.Sound l sites → d.table t = some ct → hs.Nodup →
      (∀ handle ∈ hs, handle ∈ ct.rows.live.map Prod.fst) →
      ∃ c' fs' d', (hs.forM (Catalog.deleteRow t (d.indexNames t))).apply c fs = (.ok (), c', fs') ∧
        Models l sites c' fs' d' ∧ d'.Sound l sites ∧ d.Like d' ∧
        ∀ t', d'.live t' = if t' = t then (d.live t).filter fun e => e.1 ∉ hs else d.live t'
  | [], c, fs, d, ct, h, hd, _, _, _ => by
    refine ⟨c, fs, d, rfl, h, hd, .refl d, fun t' => ?_⟩
    split
    · rename_i he
      rw [he]
      exact (List.filter_eq_self.2 fun _ _ => decide_eq_true List.not_mem_nil).symm
    · rfl
  | handle :: hs, c, fs, d, ct, h, hd, hc, hn, hm => by
    obtain ⟨hne, hnodup⟩ := List.nodup_cons.1 hn
    obtain ⟨⟨_, row⟩, hrow, rfl⟩ := List.mem_map.1 (hm handle (.head _))
    obtain ⟨c₁, fs₁, d₁, hx, h₁, hd₁, hlike₁, hlive₁⟩ := h.deleteRow hd hc hrow
    obtain ⟨ct₁, hc₁, -⟩ := hlike₁.table_some hc
    have hself := hlive₁ t
    rw [if_pos rfl, live_of_table hc₁, live_of_table hc] at hself
    obtain ⟨c', fs', d', hx', h', hd', hlike', hlive'⟩ := deleteRows t hs c₁ fs₁ d₁ ct₁ h₁ hd₁ hc₁ hnodup
      fun other ho => by
        obtain ⟨e, he, rfl⟩ := List.mem_map.1 (hm other (.tail _ ho))
        rw [hself]
        refine List.mem_map_of_mem (List.mem_filter.2 ⟨he, decide_eq_true ?_⟩)
        intro heq
        exact hne (heq ▸ ho)
    rw [hlike₁.indexNames] at hx'
    refine ⟨c', fs', d', ?_, h', hd', hlike₁.trans hlike', fun t' => ?_⟩
    · rw [List.forM_eq_forM, List.forM_cons, apply_bind_ok hx]
      exact hx'
    · rw [hlive', live_of_table hc₁, hself, hlive₁, live_of_table hc, List.filter_filter]
      split
      · refine List.filter_congr fun e _ => ?_
        rw [Bool.eq_iff_iff, Bool.and_eq_true, decide_eq_true_iff, decide_eq_true_iff, decide_eq_true_iff,
          List.mem_cons, not_or, and_comm]
      · rfl

end Models

/-! ## Conditions -/

section
variable {l : Location} {sites : Sites} {c c' : Catalog} {fs fs' : Files} {d d' : Database}
  {t : String} {e : Option Language.Expr}

theorem looks_pickColumns (hd : d.Described) (t : String) (names : List String) :
    Looks l sites d (Catalog.onRelation t (.look fun r _ => r.pickColumns names)) :=
  looks_onRelation hd (Relation.reads_look_description fun name columns =>
    (Relation.describe name columns "").pickColumns names)

theorem pickColumns_congr (h : Models l sites c fs d) (h' : Models l sites c' fs' d')
    (hd : d.Sound l sites) (hd' : d'.Sound l sites) (hs : d.Same d') (names : List String) :
    (Catalog.onRelation t (.look fun r _ => r.pickColumns names)).value c' fs' =
      (Catalog.onRelation t (.look fun r _ => r.pickColumns names)).value c fs :=
  h.onRelation_congr h' hd.regular.toDescribed hd'.regular.toDescribed (hs.at t)
    fun _ _ _ _ _ hr hr' _ => hr.look_congr hr' fun name columns =>
      (Relation.describe name columns "").pickColumns names

theorem looks_checkedCondition (hd : d.Described) (t : String) (condition : Row) : Looks l sites d (do
    discard ((Catalog.onRelation t (.look fun r _ => r.pickColumns condition.keys)).adapt Refusal.storage)
    return some condition) :=
  (((looks_pickColumns hd t condition.keys).adapt _).map _).bind fun _ => looks_pure (some condition)

theorem looks_conditionOf (hd : d.Described) (t : String) :
    ∀ e : Option Language.Expr, Looks l sites d (Catalog.conditionOf t e)
  | none => looks_pure none
  | some e => (looks_result (Row.ofExpr e)).bind (looks_checkedCondition hd t)

/-- A condition is returned if it can be made of its expression and all its columns are there. -/
theorem Models.value_conditionOf_some (_ : Models l sites c fs d) (hd : d.Described) (t : String)
    (e : Language.Expr) : (Catalog.conditionOf t (some e)).value c fs = Row.ofExpr e >>= fun condition =>
      ((Catalog.onRelation t (.look fun r _ => r.pickColumns condition.keys)).value c fs).mapError
        Refusal.storage >>= fun _ => .ok (some condition) := by
  refine ((reads_result (Row.ofExpr e)).value_bind (fun condition =>
    (looks_checkedCondition hd t condition : Looks l sites d _).reads) c fs).trans ?_
  congr 1
  funext condition
  rw [value, apply_bind, apply_discard, apply_adapt, value]
  rcases (Catalog.onRelation t (.look fun r _ => r.pickColumns condition.keys)).apply c fs with
    ⟨_ | _, _, _⟩ <;> rfl

theorem conditionOf_congr (h : Models l sites c fs d) (h' : Models l sites c' fs' d')
    (hd : d.Sound l sites) (hd' : d'.Sound l sites) (hs : d.Same d') (t : String)
    (e : Option Language.Expr) :
    (Catalog.conditionOf t e).value c' fs' = (Catalog.conditionOf t e).value c fs := by
  cases e with
  | none => rfl
  | some e =>
    rw [h.value_conditionOf_some hd.regular.toDescribed, h'.value_conditionOf_some hd'.regular.toDescribed]
    congr 1
    funext condition
    rw [pickColumns_congr h h' hd hd' hs]

theorem table_planFor (t : String) (condition : Option Row) : (Catalog.planFor t condition).table = t := by
  cases condition <;> rfl

end

/-! ## The statement -/

/-- The rows that DELETE takes out of a table, and the indices of the table. -/
def Catalog.toDelete (t : String) (e : Option Language.Expr) :
    Act Refusal Catalog (List Handle × List IndexOutline) := do
  checkWritable t
  checkListed t
  let condition ← conditionOf t e
  let indices ← (indexOutlines t).adapt Refusal.storage
  let handles ← (((planFor t condition).optimize indices).find).adapt Refusal.storage
  return (handles, indices)

/-- DELETE, step by step. -/
theorem Catalog.delete_eq (t : String) (e : Option Language.Expr) : delete t e = (do
    let (handles, indices) ← toDelete t e
    handles.forM fun handle => (deleteRow t (indices.map IndexOutline.name) handle).adapt Refusal.storage
    return .ofMessage (s!"successfully deleted {handles.length} rows from {t}" ++
      withIndices indices.length)) := by
  simp only [delete, toDelete, bind_assoc, pure_bind]
  rfl

section
variable {l : Location} {sites : Sites} {c c' : Catalog} {fs fs' : Files} {d d' : Database}
  {t : String} {ct : Content} {e : Option Language.Expr} {hs : List Handle}

/-- Whether a condition finds some rows of a table of a database. -/
def Database.Finds (l : Location) (sites : Sites) (d : Database) (t : String)
    (e : Option Language.Expr) (hs : List Handle) : Prop :=
  d.table t ≠ none ∧ ∃ c fs condition, Models l sites c fs d ∧
    (Catalog.conditionOf t e).value c fs = .ok condition ∧
    ((Catalog.planFor t condition).optimize (d.outlines t)).find.value c fs = .ok hs

/-- Whether a database is another one without some rows of a table. -/
def Database.Loses (d : Database) (t : String) (hs : List Handle) (d' : Database) : Prop :=
  d.Like d' ∧ ∀ t', d'.live t' = if t' = t then (d.live t).filter fun e => e.1 ∉ hs else d.live t'

/-- Rows that are found in a table, in their order, can all be deleted. -/
theorem deleteFound (h : Models l sites c fs d) (hd : d.Sound l sites) (hc : d.table t = some ct)
    (hsub : hs.Sublist (ct.rows.live.map Prod.fst)) : ∃ c' fs' d',
      (hs.forM fun handle => (Catalog.deleteRow t ((d.outlines t).map IndexOutline.name) handle).adapt
        Refusal.storage).apply c fs = (.ok (), c', fs') ∧
      Models l sites c' fs' d' ∧ d'.Sound l sites ∧ d.Loses t hs d' := by
  have hnodup : (ct.rows.live.map Prod.fst).Nodup := (h.ascending (hd.regular.content_eq hc)).nodup_live
  obtain ⟨c', fs', d', hx, h', hd', hloses⟩ := h.deleteRows t hs c fs d ct hd hc (hnodup.sublist hsub)
    fun _ hm => hsub.subset hm
  have hnames : (d.outlines t).map IndexOutline.name = d.indexNames t := by
    rw [outlines, List.map_map]
    exact List.map_id _
  refine ⟨c', fs', d', ?_, h', hd', hloses⟩
  rw [hnames, apply_forM_adapt, apply_adapt, hx]
  rfl

/-- What a condition finds are rows of the table, in their order. -/
theorem Database.Finds.sublist (h : d.Finds l sites t e hs) (hd : d.Sound l sites) :
    ∃ ct, d.table t = some ct ∧ hs.Sublist (ct.rows.live.map Prod.fst) := by
  obtain ⟨ht, c, fs, condition, hm, -, hfind⟩ := h
  obtain ⟨ct, hc⟩ := Option.ne_none_iff_exists'.1 ht
  obtain ⟨ct', hc', hsub⟩ := Plan.found_find hm hd hfind
  rw [Plan.table_optimize, table_planFor, hd.regular.content_eq hc] at hc'
  cases hc'
  exact ⟨ct, hc, hsub⟩

/-- In a database that cannot be told from another a condition finds the same. -/
theorem Database.Same.finds (hsame : d.Same d') (h' : Models l sites c' fs' d') (hd : d.Sound l sites)
    (hd' : d'.Sound l sites) (h : d.Finds l sites t e hs) : d'.Finds l sites t e hs := by
  obtain ⟨ht, c, fs, condition, hm, hcond, hfind⟩ := h
  refine ⟨fun hn => ht ((hsame.table_eq_none t).1 hn), c', fs', condition, h', ?_, ?_⟩
  · rw [conditionOf_congr hm h' hd hd' hsame, hcond]
  · rw [hsame.outlines, Plan.find_congr hm h' hd hd' hsame, hfind]

theorem tells_toDelete (h : Models l sites c fs d) (hd : d.Regular l sites) (t : String)
    (e : Option Language.Expr) : Tells l sites d c fs (Catalog.toDelete t e) (do
      (Catalog.checkWritable t).value c fs
      (Catalog.checkListed t).value c fs
      let condition ← (Catalog.conditionOf t e).value c fs
      let indices ← .ok (d.outlines t)
      let hs ← (((Catalog.planFor t condition).optimize indices).find.value c fs).mapError Refusal.storage
      .ok (hs, indices)) :=
  .bind ((looks_checkWritable t).tells c fs) fun _ => .bind ((looks_checkListed t).tells c fs) fun _ =>
    .bind ((looks_conditionOf hd.toDescribed t e).tells c fs) fun _ =>
      .bind ⟨(looks_indexOutlines t).adapt _, value_adapt_ok (h.value_indexOutlines t) _⟩ fun _ =>
        .bind (((looks_find hd _).tells c fs).adapt _) fun _ => tells_pure _

/-- DELETE is to take out what its condition finds in a table that is not the catalog's own. -/
theorem Models.value_toDelete_eq_ok (h : Models l sites c fs d) (hd : d.Sound l sites)
    {indices : List IndexOutline} : (Catalog.toDelete t e).value c fs = .ok (hs, indices) ↔
      d.Finds l sites t e hs ∧ indices = d.outlines t := by
  rw [(tells_toDelete h hd.regular t e).value]
  constructor
  · intro hv
    obtain ⟨_, hw, hv⟩ := bind_eq_ok.1 hv
    obtain ⟨_, hl, hv⟩ := bind_eq_ok.1 hv
    obtain ⟨condition, hcond, hv⟩ := bind_eq_ok.1 hv
    obtain ⟨outlines, houtlines, hv⟩ := bind_eq_ok.1 hv
    obtain ⟨hs', hfind, hv⟩ := bind_eq_ok.1 hv
    cases houtlines
    cases hv
    have hlisted : d.tableHandles t ≠ [] := fun hnil => by
      rw [value_checkListed h, if_pos hnil] at hl
      cases hl
    obtain ⟨ct, hc⟩ := hd.regular.exists_table (value_checkWritable_ok hw) hlisted
    exact ⟨⟨by rw [hc]; exact nofun, c, fs, condition, h, hcond, mapError_eq_ok.1 hfind⟩, rfl⟩
  · rintro ⟨⟨ht, c', fs', condition, h', hcond, hfind⟩, rfl⟩
    obtain ⟨ct, hc⟩ := Option.ne_none_iff_exists'.1 ht
    rw [conditionOf_congr h h' hd hd (.refl d)] at hcond
    rw [Plan.find_congr h h' hd hd (.refl d)] at hfind
    have hlisted : d.tableHandles t ≠ [] := (hd.regular.listed t).2 (.inr ht)
    rw [Catalog.checkWritable, if_neg (hd.regular.not_mem_of_table hc), value_checkListed h, if_neg hlisted, hcond]
    change (((Catalog.planFor t condition).optimize (d.outlines t)).find.value c fs).mapError Refusal.storage >>=
      (fun hs => .ok (hs, d.outlines t)) = _
    rw [hfind]
    rfl

/-- DELETE fails and leaves the files and the database alone, or takes out what its condition finds and says how many
rows that are. -/
theorem Models.delete_cases (h : Models l sites c fs d) (hd : d.Sound l sites) (t : String)
    (e : Option Language.Expr) :
    ((¬ ∃ hs, d.Finds l sites t e hs) ∧ ∃ err c', (Catalog.delete t e).apply c fs = (.error err, c', fs) ∧
      Models l sites c' fs d) ∨
    ∃ hs c' fs' d', d.Finds l sites t e hs ∧ (Catalog.delete t e).apply c fs =
      (.ok (.ofMessage (s!"successfully deleted {hs.length} rows from {t}" ++
        Catalog.withIndices (d.indexNames t).length)), c', fs') ∧
      Models l sites c' fs' d' ∧ d'.Sound l sites ∧ d.Loses t hs d' := by
  obtain ⟨c₁, hx, h₁⟩ := (tells_toDelete h hd.regular t e).looks.apply h
  rw [Catalog.delete_eq]
  cases hv : (Catalog.toDelete t e).value c fs with
  | error err =>
    rw [hv] at hx
    refine .inl ⟨?_, err, c₁, apply_bind_error hx _, h₁⟩
    rintro ⟨hs, hfinds⟩
    rw [(h.value_toDelete_eq_ok hd).2 ⟨hfinds, rfl⟩] at hv
    cases hv
  | ok found =>
    obtain ⟨hs, indices⟩ := found
    obtain ⟨hfinds, rfl⟩ := (h.value_toDelete_eq_ok hd).1 hv
    rw [hv] at hx
    obtain ⟨ct, hc, hsub⟩ := hfinds.sublist hd
    obtain ⟨c', fs', d', hdeleted, h', hd', hloses⟩ := deleteFound h₁ hd hc hsub
    refine .inr ⟨hs, c', fs', d', hfinds, ?_, h', hd', hloses⟩
    rw [apply_bind_ok hx]
    dsimp only
    rw [apply_bind_ok hdeleted, outlines, List.length_map]
    rfl

/-- DELETE takes out the rows that its condition finds, if it can be evaluated. -/
theorem settles_delete (h : Models l sites c fs d) (hd : d.Sound l sites) :
    Settles l sites d (Catalog.delete t e) c fs (∃ hs, d.Finds l sites t e hs) fun d' =>
      ∃ hs, d.Finds l sites t e hs ∧ d.Loses t hs d' := by
  rcases h.delete_cases hd t e with ⟨hp, err, c', hx, h'⟩ | ⟨hs, c', fs', d', hfinds, hx, h', hd', hloses⟩
  · exact .refused hp hx h' hd (.refl d)
  · exact .done ⟨hs, hfinds⟩ hx h' hd' ⟨hs, hfinds, hloses⟩

end

end Rowbase
