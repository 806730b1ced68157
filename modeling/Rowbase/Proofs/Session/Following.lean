import Rowbase.Proofs.Database.Reloading
import Rowbase.Proofs.Session.Changes

/-! # Statements on catalogs that have used less

A statement does the same on two catalogs of one database of which one has used less than the other: it returns the
same, leaves the same files, and leaves catalogs of which one has used no more than the other. -/
namespace Rowbase.Catalog

open Act Database

variable {l : Location} {sites : Sites} {t i : String} {ε α β : Type} {P : Catalog → Files → Prop} {p : Database → Prop}

/-! ## Looking at the entries -/

theorem surveys_checkListed (t : String) : Surveys (checkListed t) :=
  ((surveys_tableExists t).adapt _).bind fun listed => by
    split
    · exact surveys_pure _
    · exact surveys_throw _

theorem surveys_givenNames (t : String) : ∀ names, Surveys (givenNames t names)
  | some names => surveys_pure names
  | none => ((surveys_columnsOf t).adapt _).bind fun _ => surveys_pure _

theorem surveys_selectedNames (t : String) : ∀ what, Surveys (selectedNames t what)
  | .all => ((surveys_columnsOf t).adapt _).bind fun _ => surveys_pure _
  | .columns names => surveys_pure names

theorem surveys_showTables : Surveys showTables :=
  ((surveys_onTables (Relation.reads_rows _ _)).adapt _).bind fun _ => surveys_pure _

theorem surveys_showColumns (t : Option String) : Surveys (showColumns t) :=
  ((surveys_onColumns (Relation.reads_rows _ _)).adapt _).bind fun _ => surveys_pure _

theorem surveys_showIndex (t : String) : Surveys (showIndex t) :=
  ((surveys_onIndices (Relation.reads_rows _ _)).adapt _).bind fun _ => surveys_pure _

/-! ## Finding and selecting -/

/-- Reading a table of a database whose entries describe it. -/
theorem inStep_reading {x : Act StorageError Relation α} (hx : Reads Relation.view x) :
    InStep (Modelled l sites (Regular l sites)) (onRelation t x) := inStep_read (fun _ hd => hd.toDescribed) hx

theorem inStep_pickColumns (names : List String) :
    InStep (Modelled l sites (Regular l sites)) (onRelation t (.look fun r _ => r.pickColumns names)) :=
  inStep_reading (Relation.reads_look_description fun name columns =>
    (Relation.describe name columns "").pickColumns names)

theorem inStep_conditionOf : ∀ e : Option Language.Expr,
    InStep (Modelled l sites (Regular l sites)) (conditionOf t e)
  | none => lockstep_pure none
  | some e => InStep.bind (lockstep_result (Row.ofExpr e)) fun condition =>
      InStep.bind ((inStep_pickColumns condition.keys).adapt _).discard fun _ => lockstep_pure _

section
variable (hexclusive : sites.exclusive = true)
include hexclusive

theorem inStep_find : ∀ plan : Plan, InStep (Modelled l sites (Regular l sites)) plan.find
  | .scan _ | .filteredScan _ _ => inStep_reading (Relation.reads_select _)
  | .filter condition input => InStep.bind (inStep_find input) fun handles =>
      inStep_reading (Relation.reads_keep condition handles)
  | .project _ input => inStep_find input
  | .indexLookup t i key residual => by
    refine InStep.bind (inStep_reading (Plan.reads_keyFits key)) fun fits => ?_
    split
    · refine InStep.bind (inStep_lookup hexclusive key) fun handles => ?_
      cases residual with
      | none => exact lockstep_pure _
      | some residual => exact inStep_reading (Relation.reads_keep residual handles)
    · exact inStep_reading (Relation.reads_select _)

theorem inStep_evaluate (plan : Plan) : InStep (Modelled l sites (Regular l sites)) plan.evaluate :=
  InStep.bind (inStep_find hexclusive plan) fun handles => inStep_reading (Plan.reads_output plan handles)

theorem inStep_select (what : Language.Selection) (e : Option Language.Expr) :
    InStep (Modelled l sites (Regular l sites)) (select what t e) := by
  rw [select_eq]
  refine InStep.bind (surveys_checkListed t).inStep fun _ =>
    InStep.bind (surveys_selectedNames t what).inStep fun names => ?_
  refine InStep.bind ((inStep_pickColumns names).adapt _) fun columns =>
    InStep.bind (inStep_conditionOf e) fun condition => ?_
  exact InStep.bind ((surveys_indexOutlines t).inStep.adapt _) fun indices =>
    InStep.bind ((inStep_evaluate hexclusive _).adapt _) fun _ => lockstep_pure _

end

/-! ## Undoing -/

theorem inStep_rollBack {log : List Change} (h : ∀ change ∈ log, InStep P change.undo) : InStep P (rollBack log) :=
  lockstep_forM fun change hm => ((h change hm).caught).discard

/-! ## Inserting and deleting -/

section
variable (hexclusive : sites.exclusive = true)
include hexclusive

theorem inStep_indexRow (handle : Handle) (stored : Row) : ∀ (names : List String) (log : List Change),
    (∀ change ∈ log, InStep (Modelled l sites (Regular l sites)) change.undo) →
    InStep (Modelled l sites (Regular l sites)) (indexRow t handle stored log names)
  | [], _, _ => lockstep_pure _
  | i :: names, log, hlog => by
    rw [indexRow]
    refine InStep.bind ((inStep_revise hexclusive (.insert handle stored)).onFailure (inStep_rollBack hlog)) fun _ =>
      inStep_indexRow handle stored names _ fun change hm => ?_
    rcases List.mem_cons.1 hm with rfl | hm
    · exact inStep_revise hexclusive (.delete handle stored)
    · exact hlog change hm

theorem inStep_insertRow (hn : t ∉ Schema.names) (row : Row) (names : List String) :
    InStep (Modelled l sites (Regular l sites)) (insertRow t row names) := by
  have hlog : ∀ handle, ∀ change ∈ [Change.inserted t handle],
      InStep (Modelled l sites (Regular l sites)) change.undo := fun handle change hm => by
    rw [List.mem_singleton.1 hm]
    exact inStep_clearRow hn handle
  exact InStep.bind (inStep_addRow hn row) fun handle => InStep.bind
    ((inStep_reading (Relation.reads_project handle [])).onFailure (inStep_rollBack (hlog handle))) fun stored =>
    inStep_indexRow hexclusive handle stored names _ (hlog handle)

theorem inStep_insert (names : Option (List String)) (values : List Language.Expr) :
    InStep (Modelled l sites (Regular l sites)) (insert t names values) := by
  rw [insert_eq, checkWritable]
  split
  · exact lockstep_throw _
  · rename_i hn
    exact InStep.bind (lockstep_pure _) fun _ => InStep.bind (surveys_checkListed t).inStep fun _ =>
      InStep.bind (surveys_givenNames t names).inStep fun given => InStep.bind (lockstep_result _) fun row =>
      InStep.bind ((surveys_indexNames t).inStep.adapt _) fun indices =>
      InStep.bind ((inStep_insertRow hexclusive hn row indices).adapt _) fun _ => lockstep_pure _

theorem inStep_deleteRow (hn : t ∉ Schema.names) (names : List String) (handle : Handle) :
    InStep (Modelled l sites (Regular l sites)) (deleteRow t names handle) :=
  InStep.bind (inStep_reading (Relation.reads_project handle [])) fun row =>
    InStep.bind (inStep_forM (fun _ => inStep_revise hexclusive (.delete handle row)) names) fun _ =>
    inStep_clearRow hn handle

theorem inStep_delete (e : Option Language.Expr) : InStep (Modelled l sites (Regular l sites)) (delete t e) := by
  rw [delete, checkWritable]
  split
  · exact lockstep_throw _
  · rename_i hn
    exact InStep.bind (lockstep_pure _) fun _ => InStep.bind (surveys_checkListed t).inStep fun _ =>
      InStep.bind (inStep_conditionOf e) fun condition =>
      InStep.bind ((surveys_indexOutlines t).inStep.adapt _) fun _ =>
      InStep.bind ((inStep_find hexclusive _).adapt _) fun handles =>
      InStep.bind (inStep_forM (fun handle => (inStep_deleteRow hexclusive hn _ handle).adapt _) handles) fun _ =>
      lockstep_pure _

end

/-! ## Making tables -/

/-- Whether a table is still to be made. -/
def Unmade (t : String) (d : Database) : Prop := t ∉ Schema.names ∧ d.table t = none

theorem inStep_unmakeTable {log : List Change} (h : ∀ change ∈ log, InStep (Modelled l sites p) change.undo) :
    InStep (Modelled l sites p) (unmakeTable t log) :=
  InStep.bind (inStep_forgetTable t) fun _ => inStep_rollBack h

/-- The entries about the columns come one after the other, with the log of all, or are taken back. -/
theorem lockstep_recordColumns {f : List Change → Act StorageError Catalog β}
    {Q : Except StorageError β → Catalog → Catalog → Files → Prop}
    (he : ∀ {e c c' fs}, Coupled (Modelled l sites (Unmade t)) c c' fs → Q (.error e) c c' fs)
    (hf : ∀ log : List Change, (∀ change ∈ log, InStep (Modelled l sites (Unmade t)) change.undo) →
      Lockstep (Coupled (Modelled l sites (Unmade t))) (f log) Q) :
    ∀ (columns : List Column) (log : List Change),
      (∀ change ∈ log, InStep (Modelled l sites (Unmade t)) change.undo) →
      Lockstep (Coupled (Modelled l sites (Unmade t))) (recordColumns t log columns >>= f) Q
  | [], log, hlog => by
    rw [recordColumns, pure_bind]
    exact hf log hlog
  | column :: columns, log, hlog => by
    have hentries : Overlooks Schema.columns ColumnEntry.row (Unmade t) := overlooks_columns fun _ _ hd => hd
    have hinsert : InStep (Modelled l sites (Unmade t))
        (onColumns (Relation.insert (Schema.columnRow t column.name column.domain.kind))) :=
      inStep_insertEntry hentries (ColumnEntry.about t column)
    rw [recordColumns, bind_assoc]
    refine Lockstep.bind (hinsert.onFailure (inStep_unmakeTable hlog)) (fun handle =>
      lockstep_recordColumns he hf columns _ fun change hm => ?_) he
    rcases List.mem_cons.1 hm with rfl | hm
    · exact inStep_deleteEntry hentries handle
    · exact hlog change hm

/-- A table is described and made by both catalogs, or taken back by both. -/
theorem lockstep_makeTable (hs : .relation t ∈ sites) (columns : List Column) (adopt : Bool) :
    Lockstep (Coupled (Modelled l sites (Unmade t))) (makeTable t columns adopt) fun _ => Follows := by
  have hentries : Overlooks Schema.tables Schema.tableRow (Unmade t) := overlooks_tables fun _ _ hd => hd
  have hmake := makes_adopt adopt
  have hnone : ∀ d, Unmade t d → d.content t = none := fun d hd => (content_of_not_mem hd.1).trans hd.2
  refine Lockstep.bind ((inStep_insertEntry hentries t).onFailure (inStep_unmakeTable nofun)) (fun handle =>
    lockstep_recordColumns And.left (fun log hlog => ?_) columns _ fun change hm => ?_) And.left
  · have hnew : Lockstep (Coupled (Modelled l sites (Unmade t)))
        (onRelation t (if adopt then Relation.createIfMissing else Relation.create)) fun _ => Follows :=
      lockstep_newRelation hmake hs hnone
    -- where the relation cannot be made the table is as unmade as before, so that it can be taken back
    have hrelation := hnew.also (R := fun res => Modelled l sites fun d => res = .ok () ∨ Unmade t d) (by
      rintro c - fs ⟨-, d, hm, hd⟩
      rcases hm.makeTable hmake hs (hnone d hd) with ⟨-, e, c₁, h₁, ha⟩ | ⟨-, c₁, fs₁, ha, h₁⟩ <;> rw [ha]
      · exact ⟨d, h₁, .inr hd⟩
      · exact ⟨_, h₁, .inl rfl⟩)
    exact Lockstep.onFailure hrelation (fun e => (inStep_unmakeTable hlog).mono
      (fun h => Coupled.imp h fun d hd => hd.resolve_left nofun) And.left) And.left
  · rw [List.mem_singleton.1 hm]
    exact inStep_deleteEntry hentries handle

/-- CREATE TABLE does the same on both catalogs. -/
theorem lockstep_createTable (hs : .relation t ∈ sites) (declared : List Language.ColumnDeclaration)
    (ifNotExists : Bool) : Lockstep (Coupled (Modelled l sites (Regular l sites)))
      (createTable t declared ifNotExists) fun _ => Follows := by
  rw [createTable_eq]
  refine Lockstep.bind (lockstep_result _) (fun columns => Lockstep.bind (lockstep_known
    (v := fun d => .ok !(d.tableHandles t).isEmpty) ((surveys_tableExists t).adapt Refusal.storage)
    fun hm => value_adapt_ok (value_tableExists hm t) _) (fun listed => ?_) And.left) And.left
  cases listed with
  | true =>
    cases ifNotExists with
    | true => exact lockstep_returned _
    | false => exact lockstep_refused _
  | false =>
    refine Lockstep.bind (Lockstep.mono (lockstep_makeTable (l := l) hs columns ifNotExists).adapt_keep
      (fun h => h.imp fun d ⟨hd, hlisted⟩ => ?_) id) (fun _ => lockstep_pure _) id
    have hnil : d.tableHandles t = [] := by simpa using hlisted
    have hmissing := (not_congr (hd.listed t)).1 (not_not.2 hnil)
    exact ⟨fun hn => hmissing (.inl hn), not_ne_iff.1 fun hc => hmissing (.inr hc)⟩

/-! ## Dropping indices and tables -/

/-- Entries go out of a describing relation. -/
theorem inStep_clearEntries {name : String} {f : β → Row} (hp : Overlooks name f p) (handles : List Handle) :
    InStep (Modelled l sites p) (handles.forM fun h => (onRelation name (Relation.delete h)).adapt Refusal.storage) :=
  inStep_forM (fun handle => (inStep_deleteEntry hp handle).adapt _) handles

/-- The entries about the columns of a table that is let go of are cleared. -/
theorem inStep_clearColumns (hn : t ∉ Schema.names) : InStep (fun c fs => Modelled l sites (·.table t ≠ none) c fs ∧
    c.kept t = none) (clearColumns t) := by
  have hclear : InStep (Modelled l sites (·.table t ≠ none)) (clearColumns t) :=
    InStep.bind ((surveys_columnHandles t).inStep.adapt _) fun handles =>
      inStep_clearEntries (overlooks_columns fun _ _ hd => hd) handles
  refine inStep_of_preserves (hclear.mono (fun h => ⟨h.1, h.2.1⟩) And.left) ?_
  rintro c fs ⟨⟨d, hm, hd⟩, hk⟩
  obtain ⟨c₁, fs₁, ha, hkeeps, h₁⟩ := hm.clearColumns t
  rw [ha]
  exact ⟨⟨_, h₁, hd⟩, (hkeeps t hn).trans hk⟩

section
variable (hexclusive : sites.exclusive = true)
include hexclusive

/-- An index of a table goes with the entries about it. -/
theorem inStep_dropWithEntries :
    InStep (Modelled l sites fun d => d.Sound l sites ∧ d.table t ≠ none) (dropWithEntries t i) := by
  have hdrop : Lockstep (Coupled (Modelled l sites fun d => d.Sound l sites ∧ d.table t ≠ none))
      (dropWithEntries t i) fun _ => Coupled (Modelled l sites fun _ => True) :=
    Lockstep.bind (lockstep_removeIndex hexclusive fun d hd => hd.1.regular.handy t i).adapt_keep (fun _ =>
      InStep.bind ((surveys_indexHandles t i).inStep.adapt _) fun handles =>
        inStep_clearEntries (overlooks_indices fun _ _ _ => trivial) handles) id
  refine inStep_of_preserves (hdrop.mono id And.left) ?_
  rintro c fs ⟨d, hm, hd, ht⟩
  by_cases hx : d.index t i = none
  · obtain ⟨c₁, ha, h₁⟩ := apply_onIndex_none hm hd.regular hx Index.drop
    have hremove : ((removeIndex t i).adapt Refusal.storage).apply c fs =
        (.error (.storage (.relation (.indexMissing i t))), c₁, fs) := by
      rw [apply_adapt, removeIndex, apply_bind_error ha]
      rfl
    rw [dropWithEntries, apply_bind_error hremove]
    exact ⟨d, h₁, hd, ht⟩
  · obtain ⟨c₁, fs₁, ha, h₁⟩ := hm.dropWithEntries hd hx
    rw [ha]
    exact ⟨_, h₁, hd.withoutIndex hm.ascending_indices t i, ht⟩

/-- DROP TABLE does the same on both catalogs. -/
theorem lockstep_dropTable (t : String) :
    Lockstep (Coupled (Modelled l sites (Sound l sites))) (dropTable t) fun _ => Follows := by
  rw [dropTable_eq]
  split
  · exact lockstep_refused _
  rename_i hn
  refine Lockstep.bind (lockstep_known (v := fun d => .ok (d.tableHandles t)) ((surveys_tableHandles t).adapt
    Refusal.storage) fun hm => value_adapt_ok (hm.value_tableHandles t) _) (fun handles => ?_) And.left
  split
  · exact lockstep_refused _
  rename_i hne
  refine Lockstep.mono (P := Coupled (Modelled l sites fun d => d.Sound l sites ∧ d.table t ≠ none)) ?_
    (fun h => h.imp fun d ⟨hd, hhandles⟩ => ⟨hd, ?_⟩) id
  · refine Lockstep.bind ((surveys_indexNames t).inStep.adapt _) (fun names =>
      Lockstep.bind (inStep_forM (fun i => inStep_dropWithEntries hexclusive) names) (fun _ => ?_) And.left) And.left
    refine lockstep_detach hn (fun d hd => ⟨hd.1.regular.toDescribed, hd.2⟩) (fun r r' hpath => ?_) fun r hpath => ?_
    · rw [drop_congr hpath]
    -- from here on the table is kept by neither catalog, though the database still has it
    · have hcolumns : InStep (fun c fs => Modelled l sites (·.table t ≠ none) c fs ∧ c.kept t = none)
          (clearColumns t) := inStep_clearColumns hn
      refine Lockstep.bind (hcolumns.mono (fun h => ?_) id) (fun _ => ?_) And.left
      · obtain ⟨hf, ⟨d, hm, hd⟩, hk⟩ := h
        exact ⟨hf, ⟨d, hm, hd.2⟩, hk⟩
      · exact Lockstep.bind (lockstep_dropDetached hn hpath fun _ hd => hd).adapt_keep (fun _ =>
          Lockstep.bind (inStep_clearEntries (overlooks_tables fun _ _ _ => trivial) handles)
            (fun _ => lockstep_returned _) And.left) And.left
  · obtain ⟨ct, hc⟩ := hd.regular.exists_table hn fun hnil => by
      rw [hnil] at hhandles
      cases hhandles
      exact hne rfl
    rw [hc]
    exact nofun

/-- DROP INDEX does the same on both catalogs. -/
theorem lockstep_dropIndex (hp : ∀ d, p d → d.Handy l sites t i) :
    Lockstep (Coupled (Modelled l sites p)) (dropIndex i t) fun _ => Follows := by
  rw [dropIndex_eq]
  refine Lockstep.bind ((surveys_indexHandles t i).inStep.adapt _) (fun handles => ?_) And.left
  split
  · exact lockstep_refused _
  · exact Lockstep.bind (lockstep_removeIndex hexclusive hp).adapt_keep (fun _ =>
      Lockstep.bind (inStep_clearEntries (overlooks_indices fun _ _ _ => trivial) handles)
        (fun _ => lockstep_returned _) And.left) And.left

/-! ## Making indices -/

omit hexclusive in
theorem inStep_keyedRows (hp : ∀ d, p d → d.Described) (columns : List String) :
    InStep (Modelled l sites p) (keyedRows t columns) :=
  InStep.bind (inStep_read hp (Relation.reads_select none)) fun handles => lockstep_mapM (fun handle =>
    InStep.bind (inStep_read hp (Relation.reads_project handle columns)) fun _ => lockstep_pure _) handles

/-- An index is described and made by both catalogs, or both can drop what there is of it. -/
theorem lockstep_makeIndex (hs : .index t i ∈ sites) (columns : List String) (kind : Language.IndexKind) :
    Lockstep (Coupled (Modelled l sites fun d => d.Described ∧ d.index t i = none)) (makeIndex i t columns kind)
      fun res => Coupled (Modelled l sites fun d => res = .ok () ∨ d.Handy l sites t i) := by
  have hhandy : ∀ {res : Except StorageError Unit} {c c' fs},
      Coupled (Modelled l sites fun d => d.Described ∧ d.index t i = none) c c' fs →
      Coupled (Modelled l sites fun d => res = .ok () ∨ d.Handy l sites t i) c c' fs := fun h =>
    h.imp fun d hd => .inr (handy_of_none hd.2 hs)
  rw [makeIndex_eq]
  refine Lockstep.bind (inStep_forM (fun b => (inStep_insertEntry (overlooks_indices fun d _ hd => ?_)
      (IndexEntry.atPlace t i kind b)).discard) _) (fun _ => ?_) hhandy
  · exact ⟨⟨hd.1.columns, hd.1.nonempty⟩, hd.2⟩
  · refine Lockstep.bind (inStep_keyedRows (fun _ hd => hd.1) columns) (fun entries => ?_) hhandy
    exact (lockstep_newIndex hexclusive hs entries).mono (fun h => h.imp fun _ hd => hd.2) id

/-- CREATE INDEX does the same on both catalogs. -/
theorem lockstep_createIndex (hs : .index t i ∈ sites) (columns : List String) (kind : Language.IndexKind) :
    Lockstep (Coupled (Modelled l sites (Regular l sites))) (createIndex i t columns kind) fun _ => Follows := by
  rw [createIndex_eq]
  split
  · exact lockstep_refused _
  refine Lockstep.bind ((surveys_tableExists t).inStep.adapt _) (fun listed => ?_) And.left
  cases listed with
  | false => exact lockstep_refused _
  | true =>
    refine Lockstep.bind ((surveys_columnsOf t).inStep.adapt _) (fun known => Lockstep.bind (lockstep_result _)
      (fun _ => ?_) And.left) And.left
    refine Lockstep.bind (lockstep_known (v := fun d => .ok ((d.indexEntries t i).map Prod.fst))
      ((surveys_indexHandles t i).adapt Refusal.storage) fun hm => value_adapt_ok (hm.value_indexHandles t i) _)
      (fun handles => ?_) And.left
    cases handles with
    | cons => exact lockstep_refused _
    | nil =>
      have hmake : Lockstep (Coupled (Modelled l sites fun d => d.Described ∧ d.index t i = none))
          ((makeIndex i t columns kind).adapt Refusal.storage) fun res =>
            Coupled (Modelled l sites fun d => res = .ok () ∨ d.Handy l sites t i) :=
        (lockstep_makeIndex hexclusive hs columns kind).adapt fun h => h.imp fun d hd =>
          hd.imp_left fun hok => by rw [hok]; rfl
      have hbuild : Lockstep (Coupled (Modelled l sites fun d => d.Described ∧ d.index t i = none))
          (((makeIndex i t columns kind).adapt Refusal.storage).onFailure (discard (dropIndex i t))) fun _ =>
            Follows :=
        Lockstep.onFailure hmake
          (fun _ => (lockstep_dropIndex hexclusive fun d hd => hd.resolve_left nofun).discard) And.left
      refine Lockstep.bind (hbuild.mono (fun h => h.imp fun d ⟨hd, hhandles⟩ => ?_) id) (fun _ => lockstep_pure _) id
      have hnil : d.indexEntries t i = [] := by simpa using hhandles
      exact ⟨hd.toDescribed, hd.index_eq_none hnil⟩

/-! ## All statements -/

/-- A statement does the same on both catalogs. -/
theorem lockstep_carryOut {statement : Language.Statement} (hs : ∀ site ∈ statement.sites, site ∈ sites) :
    Lockstep (Coupled (Modelled l sites (Sound l sites))) (Session.carryOut statement) fun _ => Follows := by
  have hregular : ∀ {c c' fs}, Coupled (Modelled l sites (Sound l sites)) c c' fs →
      Coupled (Modelled l sites (Regular l sites)) c c' fs := fun h => h.imp fun _ hd => hd.regular
  cases statement with
  | select what t e => exact (inStep_select hexclusive what e).mono hregular And.left
  | insert t names values => exact (inStep_insert hexclusive names values).mono hregular And.left
  | update t assignments e => exact (lockstep_pure _).mono hregular And.left
  | delete t e => exact (inStep_delete hexclusive e).mono hregular And.left
  | createTable t declared ifNotExists =>
    exact (lockstep_createTable (hs _ (.head _)) declared ifNotExists).mono hregular id
  | dropTable t => exact lockstep_dropTable hexclusive t
  | createIndex i t columns kind =>
    exact (lockstep_createIndex hexclusive (hs _ (.head _)) columns kind).mono hregular id
  | dropIndex i t => exact (lockstep_dropIndex hexclusive fun d hd => hd.handy t i).mono hregular id
  | showTables => exact surveys_showTables.inStep.mono hregular And.left
  | showColumns t => exact (surveys_showColumns t).inStep.mono hregular And.left
  | showIndex t => exact (surveys_showIndex t).inStep.mono hregular And.left

end

end Rowbase.Catalog
