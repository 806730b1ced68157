import Rowbase.Proofs.Frame.Home

/-! # Statements that stay at home

Every statement that names only tables and indices with some names keeps a catalog at home: the indices that it finds
listed have such names as well. -/
namespace Rowbase

open Act Database

/-- The tables and indices that a statement names. -/
def Language.Statement.named : Language.Statement → List String
  | .select _ t _ | .insert t _ _ | .update t _ _ | .delete t _ | .createTable t _ _ | .dropTable t | .showIndex t =>
    [t]
  | .createIndex i t _ _ | .dropIndex i t => [i, t]
  | .showColumns t => t.toList
  | .showTables => []

namespace Catalog

variable {P : List String → Prop} {N : String → Prop} {l : Location} {own : Nat → Prop} {k : Files}
  {t i : String} {ε α : Type}

/-! ## Selecting -/

theorem preserves_pickColumns (ht : N t) (names : List String) :
    Preserves (AtHome P N l own k) (onRelation t (.look fun r _ => r.pickColumns names)) :=
  preserves_reading ht (Relation.reads_look_description fun name columns =>
    (Relation.describe name columns "").pickColumns names) (passesBy_look fun _ _ => rfl)

theorem preserves_conditionOf (ht : N t) : ∀ e : Option Language.Expr, Preserves (AtHome P N l own k) (conditionOf t e)
  | none => preserves_pure none
  | some e => (preserves_result (Row.ofExpr e)).bind fun condition =>
      ((preserves_pickColumns ht condition.keys).adapt).discard.bind fun _ => preserves_pure _

theorem preserves_selectRows (ht : N t) (condition : Option Row) :
    Preserves (AtHome P N l own k) (onRelation t (Relation.select condition)) :=
  preserves_reading ht (Relation.reads_select condition) (Relation.passesBy_select condition)

theorem preserves_keepRows (ht : N t) (condition : Row) (handles : List Handle) :
    Preserves (AtHome P N l own k) (onRelation t (Relation.keep condition handles)) :=
  preserves_reading ht (Relation.reads_keep condition handles) (Relation.passesBy_keep condition handles)

theorem preserves_find : ∀ plan : Plan, N plan.table → Preserves (AtHome P N l own k) plan.find
  | .scan _, ht | .filteredScan _ _, ht => preserves_selectRows ht _
  | .filter condition input, ht => (preserves_find input ht).bind fun handles => preserves_keepRows ht condition handles
  | .project _ input, ht => preserves_find input ht
  | .indexLookup t i key residual, ht => by
    refine (preserves_reading ht (Plan.reads_keyFits key) (passesBy_look fun _ _ => rfl)).bind fun fits => ?_
    split
    · refine (preserves_lookupKey key).bind fun handles => ?_
      cases residual with
      | none => exact preserves_pure _
      | some residual => exact preserves_keepRows ht residual handles
    · exact preserves_selectRows ht _

theorem preserves_evaluate (plan : Plan) (ht : N plan.table) : Preserves (AtHome P N l own k) plan.evaluate :=
  (preserves_find plan ht).bind fun handles => preserves_reading ht (Plan.reads_output plan handles)
    ((passesBy_look fun _ _ => rfl).bind fun columns =>
      (passesBy_mapM (fun h => Relation.passesBy_project h columns) handles).bind fun _ => passesBy_pure _)

theorem preserves_select (ht : N t) (what : Language.Selection) (e : Option Language.Expr) :
    Preserves (AtHome P N l own k) (select what t e) := by
  rw [select_eq]
  refine (preserves_survey (surveys_checkListed t)).bind fun _ =>
    (preserves_survey (surveys_selectedNames t what)).bind fun names => ?_
  refine (preserves_pickColumns ht names).adapt.bind fun columns => (preserves_conditionOf ht e).bind fun condition =>
    (preserves_survey ((surveys_indexOutlines t).adapt Refusal.storage)).bind fun indices => ?_
  have htable : ((Plan.project names (planFor t condition)).optimize indices).table = t := by
    rw [Plan.table_optimize]
    exact table_planFor t condition
  exact (preserves_evaluate _ (htable.symm ▸ ht)).adapt.bind fun _ => preserves_pure _

/-! ## Inserting and deleting -/

theorem preserves_rollBack {log : List Change} (h : ∀ change ∈ log, Preserves (AtHome P N l own k) change.undo) :
    Preserves (AtHome P N l own k) (rollBack log) := preserves_forM_of_mem fun change hm => (h change hm).caught.discard

theorem preserves_project (ht : Ordinary N t) (handle : Handle) (columns : List String) :
    Preserves (AtHome P N l own k) (onRelation t (Relation.project handle columns)) :=
  preserves_reading ht.1 (Relation.reads_project handle columns) (Relation.passesBy_project handle columns)

theorem preserves_deleteHandle (ht : Ordinary N t) (handle : Handle) :
    Preserves (AtHome P N l own k) (onRelation t (Relation.delete handle)) :=
  preserves_table ht (fun _ _ => Relation.preserves_delete handle) (Relation.passesBy_delete handle)

theorem preserves_unindex (ht : N t) (hi : N i) (handle : Handle) (row : Row) :
    Preserves (AtHome P N l own k) (onIndex t i (Index.delete handle row)) :=
  preserves_index ht hi (fun _ _ => Index.preserves_delete handle row) (Index.passesBy_delete handle row)

theorem preserves_indexRow (ht : N t) (handle : Handle) (stored : Row) : ∀ (names : List String) (log : List Change),
    (∀ i ∈ names, N i) → (∀ change ∈ log, Preserves (AtHome P N l own k) change.undo) →
    Preserves (AtHome P N l own k) (indexRow t handle stored log names)
  | [], _, _, _ => preserves_pure _
  | i :: names, log, hnames, hlog => by
    rw [indexRow]
    have hi : N i := hnames i (.head _)
    refine ((preserves_index ht hi (fun _ _ => Index.preserves_insert handle stored)
      (Index.passesBy_insert handle stored)).onFailure (preserves_rollBack hlog)).bind fun _ =>
      preserves_indexRow ht handle stored names _ (fun j hj => hnames j (.tail _ hj)) fun change hm => ?_
    rcases List.mem_cons.1 hm with rfl | hm
    · exact preserves_unindex ht hi handle stored
    · exact hlog change hm

theorem preserves_insertRow (ht : Ordinary N t) (row : Row) {names : List String} (hnames : ∀ i ∈ names, N i) :
    Preserves (AtHome P N l own k) (insertRow t row names) := by
  refine (preserves_table ht (fun _ _ => Relation.preserves_insert row) (Relation.passesBy_insert row)).bind
    fun handle => ?_
  have hlog : ∀ change ∈ [Change.inserted t handle], Preserves (AtHome P N l own k) change.undo := by
    intro change hm
    rw [List.mem_singleton.1 hm]
    exact preserves_deleteHandle ht handle
  exact ((preserves_project ht handle []).onFailure (preserves_rollBack hlog)).bind fun stored =>
    preserves_indexRow ht.1 handle stored names _ hnames hlog

theorem preserves_insert (ht : N t) (names : Option (List String)) (values : List Language.Expr) :
    Preserves (AtHome P N l own k) (insert t names values) := by
  rw [insert_eq, checkWritable]
  split
  · exact preserves_throw _
  · rename_i hn
    refine (preserves_pure _).bind fun _ => (preserves_survey (surveys_checkListed t)).bind fun _ =>
      (preserves_survey (surveys_givenNames t names)).bind fun given => (preserves_result _).bind fun row => ?_
    exact preserves_told ((surveys_indexNames t).adapt Refusal.storage)
      (fun hm => value_adapt_ok (hm.value_indexNames t) _) fun d hd =>
        (preserves_insertRow ⟨ht, hn⟩ row fun _ hi => hd.indexNames hi).adapt.bind fun _ => preserves_pure _

theorem preserves_deleteRow (ht : Ordinary N t) {names : List String} (hnames : ∀ i ∈ names, N i) (handle : Handle) :
    Preserves (AtHome P N l own k) (deleteRow t names handle) := by
  refine (preserves_project ht handle []).bind fun row => ?_
  have hindices : Preserves (AtHome P N l own k) (names.forM fun i => onIndex t i (Index.delete handle row)) :=
    preserves_forM_of_mem fun i hi => preserves_unindex ht.1 (hnames i hi) handle row
  exact hindices.bind fun _ => preserves_deleteHandle ht handle

theorem preserves_delete (ht : N t) (e : Option Language.Expr) : Preserves (AtHome P N l own k) (delete t e) := by
  rw [delete, checkWritable]
  split
  · exact preserves_throw _
  · rename_i hn
    refine (preserves_pure _).bind fun _ => (preserves_survey (surveys_checkListed t)).bind fun _ =>
      (preserves_conditionOf ht e).bind fun condition => ?_
    refine preserves_told ((surveys_indexOutlines t).adapt Refusal.storage)
      (fun hm => value_adapt_ok (hm.value_indexOutlines t) _) fun d hd => ?_
    have htable : ((planFor t condition).optimize (d.outlines t)).table = t := by
      rw [Plan.table_optimize]
      exact table_planFor t condition
    have hnames : ∀ i ∈ (d.outlines t).map IndexOutline.name, N i := by
      intro i hi
      rw [outlines, List.map_map] at hi
      obtain ⟨j, hj, rfl⟩ := List.mem_map.1 hi
      exact hd.indexNames hj
    have hrows : ∀ handles : List Handle, Preserves (AtHome P N l own k) (handles.forM fun h =>
        (deleteRow t ((d.outlines t).map IndexOutline.name) h).adapt Refusal.storage) :=
      preserves_forM fun handle => (preserves_deleteRow ⟨ht, hn⟩ hnames handle).adapt
    exact (preserves_find _ (htable.symm ▸ ht)).adapt.bind fun handles => (hrows handles).bind fun _ => preserves_pure _

/-! ## Making and dropping indices -/

theorem preserves_removeIndex (ht : N t) (hi : N i) : Preserves (AtHome P N l own k) (removeIndex t i) :=
  (preserves_index ht hi (fun _ _ => Index.preserves_drop) Index.passesBy_drop).bind fun _ => preserves_forgetIndex t i

theorem preserves_clearEntries (handles : List Handle) : Preserves (AtHome P N l own k)
    (handles.forM fun h => (onIndices (Relation.delete h)).adapt Refusal.storage) :=
  preserves_forM (fun handle => (preserves_clearIndex handle).adapt) handles

theorem preserves_dropIndex (ht : N t) (hi : N i) : Preserves (AtHome P N l own k) (dropIndex i t) := by
  rw [dropIndex_eq]
  refine (preserves_survey ((surveys_indexHandles t i).adapt Refusal.storage)).bind fun handles => ?_
  split
  · exact preserves_throw _
  · exact (preserves_removeIndex ht hi).adapt.bind fun _ => (preserves_clearEntries handles).bind fun _ =>
      preserves_pure _

theorem preserves_makeIndex (ht : Ordinary N t) (hi : N i) (columns : List String) (kind : Language.IndexKind) :
    Preserves (AtHome P N l own k) (makeIndex i t columns kind) := by
  have hentries : Preserves (AtHome P N l own k) ((columns.zipIdx 1).forM fun b =>
      discard (onRelation Schema.indices (Relation.insert (IndexEntry.atPlace t i kind b).row))) :=
    preserves_forM (fun b => (preserves_recordIndex (e := IndexEntry.atPlace t i kind b) hi).discard) _
  have hrows : Preserves (AtHome P N l own k) (keyedRows t columns) :=
    (preserves_selectRows ht.1 none).bind fun handles => preserves_mapM (fun handle =>
      (preserves_project ht handle columns).bind fun _ => preserves_pure _) handles
  rw [makeIndex_eq]
  exact hentries.bind fun _ => hrows.bind fun entries =>
    preserves_index ht.1 hi (fun _ _ => Index.preserves_create entries) (Index.passesBy_create entries)

theorem preserves_createIndex (ht : N t) (hi : N i) (columns : List String) (kind : Language.IndexKind) :
    Preserves (AtHome P N l own k) (createIndex i t columns kind) := by
  rw [createIndex_eq]
  split
  · exact preserves_throw _
  rename_i hn
  refine (preserves_survey ((surveys_tableExists t).adapt Refusal.storage)).bind fun listed => ?_
  split
  · refine (preserves_survey ((surveys_columnsOf t).adapt Refusal.storage)).bind fun known =>
      (preserves_result _).bind fun _ =>
      (preserves_survey ((surveys_indexHandles t i).adapt Refusal.storage)).bind fun handles => ?_
    split
    · exact ((preserves_makeIndex ⟨ht, hn⟩ hi columns kind).adapt.onFailure (preserves_dropIndex ht hi).discard).bind
        fun _ => preserves_pure _
    · exact preserves_throw _
  · exact preserves_throw _

/-! ## Making tables -/

/-- A table's file is made at home, also if the table is the catalog's own: then it is there already. -/
theorem preserves_make (ht : N t) (adopt : Bool) : Preserves (AtHome P N l own k)
    (onRelation t (if adopt then Relation.createIfMissing else Relation.create)) := by
  by_cases hn : t ∈ Schema.names
  · intro c fs h
    have hsame : ∃ y : Act StorageError Relation Unit, Reads Relation.view y ∧
        (onRelation t (if adopt then Relation.createIfMissing else Relation.create)).apply c fs =
          (onRelation t y).apply c fs := by
      obtain ⟨d, -, h⟩ := h
      obtain ⟨r, hk⟩ := exists_kept hn c
      obtain ⟨ct, -, hr⟩ := h.entries.first.models.kept t r ((kept_bare hn c).trans hk)
      obtain ⟨id, hh⟩ := hr.holds
      obtain ⟨y, hy, he⟩ := Relation.make_reads hh.find adopt
      refine ⟨y, hy, ?_⟩
      rw [onRelation_of_kept hk, onRelation_of_kept hk, he]
    obtain ⟨y, hy, he⟩ := hsame
    rw [he]
    exact preserves_survey (surveys_own hn hy) c fs h
  · exact preserves_table ⟨ht, hn⟩ (fun _ _ => Relation.preserves_make adopt) (Relation.passesBy_make adopt)

theorem preserves_unmakeTable (t : String) {log : List Change}
    (hlog : ∀ change ∈ log, Preserves (AtHome P N l own k) change.undo) :
    Preserves (AtHome P N l own k) (unmakeTable t log) :=
  (preserves_forgetTable t).bind fun _ => preserves_rollBack hlog

/-- Of the log of a table only entries are taken back. -/
theorem preserves_recordColumns {f : List Change → Act StorageError Catalog Unit}
    (hf : ∀ log : List Change, (∀ change ∈ log, Preserves (AtHome P N l own k) change.undo) →
      Preserves (AtHome P N l own k) (f log)) : ∀ (columns : List Column) (log : List Change),
    (∀ change ∈ log, Preserves (AtHome P N l own k) change.undo) →
    Preserves (AtHome P N l own k) (recordColumns t log columns >>= f)
  | [], log, hlog => hf log hlog
  | column :: columns, log, hlog => by
    rw [recordColumns, bind_assoc]
    refine ((preserves_insertEntry shelf_columns (ColumnEntry.about t column) id).onFailure
      (preserves_unmakeTable t hlog)).bind fun handle => preserves_recordColumns hf columns _ fun change hm => ?_
    rcases List.mem_cons.1 hm with rfl | hm
    · exact preserves_clearColumn handle
    · exact hlog change hm

theorem preserves_makeTable (ht : N t) (columns : List Column) (adopt : Bool) :
    Preserves (AtHome P N l own k) (makeTable t columns adopt) := by
  refine ((preserves_insertEntry shelf_tables t id).onFailure (preserves_unmakeTable t fun _ hm =>
    absurd hm List.not_mem_nil)).bind fun handle => preserves_recordColumns (fun log hlog =>
      (preserves_make ht adopt).onFailure (preserves_unmakeTable t hlog)) columns _ fun change hm => ?_
  rw [List.mem_singleton.1 hm]
  exact preserves_clearTable handle

theorem preserves_createTable (ht : N t) (declared : List Language.ColumnDeclaration) (ifNotExists : Bool) :
    Preserves (AtHome P N l own k) (createTable t declared ifNotExists) := by
  rw [createTable_eq]
  refine (preserves_result _).bind fun columns =>
    (preserves_survey ((surveys_tableExists t).adapt Refusal.storage)).bind fun listed => ?_
  split
  · split
    · exact preserves_pure _
    · exact preserves_throw _
  · exact (preserves_makeTable ht columns ifNotExists).adapt.bind fun _ => preserves_pure _

/-! ## Dropping tables -/

theorem preserves_dropWithEntries (ht : N t) (hi : N i) : Preserves (AtHome P N l own k) (dropWithEntries t i) :=
  (preserves_removeIndex ht hi).adapt.bind fun _ =>
    (preserves_survey ((surveys_indexHandles t i).adapt Refusal.storage)).bind fun handles =>
      preserves_clearEntries handles

theorem preserves_clearColumns (t : String) : Preserves (AtHome P N l own k) (clearColumns t) :=
  (preserves_survey ((surveys_columnHandles t).adapt Refusal.storage)).bind fun handles =>
    preserves_forM (fun handle => (preserves_clearColumn handle).adapt) handles

/-- Whether a catalog is at home and a relation that it let go of lies there. -/
structure Detached (P : List String → Prop) (N : String → Prop) (l : Location) (own : Nat → Prop) (k : Files)
    (t : String) (r : Relation) (c : Catalog) (fs : Files) : Prop where
  home : AtHome P N l own k c fs
  inside : r.file.Inside P (l.relationPath t) fs
  away : r.file.Away own (l.relationPath t)

/-- What stays at home leaves a relation there that was let go of. -/
theorem preserves_detached {r : Relation} {x : Act ε Catalog α} (hx : ∀ k, Preserves (AtHome P N l own k) x) :
    Preserves (Detached P N l own k t r) x := by
  rintro c fs ⟨hhome, hin, haway⟩
  obtain ⟨d, hd, h⟩ := hhome
  obtain ⟨d₁, -, h₁⟩ := hx fs c fs ⟨d, hd, h.rebase⟩
  exact ⟨hx k c fs ⟨d, hd, h⟩, hin.within h₁.placed.within, haway⟩

/-- A table that is let go of lies at home. -/
theorem preserves_detach (ht : Ordinary N t) {f : Relation → Act Refusal Catalog α}
    (hf : ∀ r, Brings (Detached P N l own k t r) (AtHome P N l own k) (f r)) :
    Preserves (AtHome P N l own k) ((detach t).adapt Refusal.storage >>= f) := by
  rintro c fs ⟨d, hd, h⟩
  obtain ⟨res, c₁, ha, hplaced, hkept⟩ := h.placed.remember ht.2
  obtain ⟨_, _, _, ha', ha'', hm, haway⟩ := h.entries.remember ht ht.2
  cases ha.symm.trans ha'
  cases ha.symm.trans ha''
  cases res with
  | error e =>
    have hdetach : ((detach t).adapt Refusal.storage).apply c fs = (.error (.storage e), c₁, fs) := by
      rw [apply_adapt, detach, if_neg ht.2, apply_bind_error ha]
      rfl
    rw [apply_bind_error hdetach]
    exact ⟨d, hd, hplaced, hm⟩
  | ok r =>
    have hdetach : ((detach t).adapt Refusal.storage).apply c fs =
        (.ok r, { c₁ with relations := c₁.relations.erase t }, fs) := by
      rw [apply_adapt, apply_detach ht.2 ha]
      rfl
    have hhome : AtHome P N l own k c₁ fs := ⟨d, hd, hplaced, hm⟩
    rw [apply_bind_ok hdetach]
    exact hf r _ fs ⟨preserves_forgetTable t c₁ fs hhome, hplaced.relations t r (hkept r rfl), haway r rfl⟩

/-- The file of a table that was let go of is removed. -/
theorem brings_drop {r : Relation} (ht : Ordinary N t) : Brings (Detached P N l own k t r) (AtHome P N l own k)
    (Relation.drop.within (fun _ => r) fun _ c => c : Act StorageError Catalog Unit) := by
  intro c fs h
  obtain ⟨d, hd, hb⟩ := h.home
  obtain ⟨res, c₁, fs₁, _, _, ha, ha', hm⟩ := abreast_dropDetached ht h.away c fs c fs hb.entries
  cases ha.symm.trans ha'
  have hdrop := Relation.preserves_drop r fs
    ⟨h.inside, hb.placed.leads (.relation t) ht.1, hb.placed.linkless, .refl fs⟩
  rw [apply_within] at ha ⊢
  generalize Relation.drop.apply r fs = dropped at ha hdrop ⊢
  obtain ⟨_, r', fs₂⟩ := dropped
  cases ha
  exact ⟨d, hd, hb.placed.move hdrop.within rfl (fun _ _ => .inl) fun _ _ _ => .inl, hm⟩

theorem preserves_dropTable (ht : N t) : Preserves (AtHome P N l own k) (dropTable t) := by
  rw [dropTable_eq]
  split
  · exact preserves_throw _
  rename_i hn
  refine (preserves_survey ((surveys_tableHandles t).adapt Refusal.storage)).bind fun handles => ?_
  split
  · exact preserves_throw _
  refine preserves_told ((surveys_indexNames t).adapt Refusal.storage)
    (fun hm => value_adapt_ok (hm.value_indexNames t) _) fun d hd => ?_
  have hindices : Preserves (AtHome P N l own k) ((d.indexNames t).forM (dropWithEntries t)) :=
    preserves_forM_of_mem fun i hi => preserves_dropWithEntries ht (hd.indexNames hi)
  have hlist : Preserves (AtHome P N l own k)
      (handles.forM fun h => (onTables (Relation.delete h)).adapt Refusal.storage) :=
    preserves_forM (fun handle => (preserves_clearTable handle).adapt) handles
  have hrest : ∀ r, Brings (Detached P N l own k t r) (AtHome P N l own k) (do
      Act.adapt Refusal.storage (Relation.drop.within (fun _ => r) fun _ c => c)
      handles.forM fun h => (onTables (Relation.delete h)).adapt Refusal.storage
      return Answer.ofMessage s!"dropped {t}") := fun r =>
    Brings.bind (brings_drop ⟨ht, hn⟩) (fun _ => hlist.bind fun _ => preserves_pure _) id
  exact hindices.bind fun _ => preserves_detach ⟨ht, hn⟩ fun r =>
    Brings.bind (preserves_detached fun _ => preserves_clearColumns t) (fun _ => hrest r) Detached.home

/-! ## All statements -/

/-- A statement that names only such tables and indices keeps a catalog at home. -/
theorem preserves_carryOut {statement : Language.Statement} (h : ∀ name ∈ statement.named, N name) :
    Preserves (AtHome P N l own k) (Session.carryOut statement) := by
  cases statement with
  | select what t condition => exact preserves_select (h t (.head _)) what condition
  | insert t names values => exact preserves_insert (h t (.head _)) names values
  | update => exact preserves_pure _
  | delete t condition => exact preserves_delete (h t (.head _)) condition
  | createTable t declared ifNotExists => exact preserves_createTable (h t (.head _)) declared ifNotExists
  | dropTable t => exact preserves_dropTable (h t (.head _))
  | createIndex i t columns kind => exact preserves_createIndex (h t (.tail _ (.head _))) (h i (.head _)) columns kind
  | dropIndex i t => exact preserves_dropIndex (h t (.tail _ (.head _))) (h i (.head _))
  | showTables => exact preserves_survey surveys_showTables
  | showColumns t => exact preserves_survey (surveys_showColumns t)
  | showIndex t => exact preserves_survey (surveys_showIndex t)

end Catalog

end Rowbase
