import Rowbase.Proofs.Session.Ledger

/-! # The catalog tells the history

SHOW TABLES, SHOW COLUMNS, SHOW INDEX and SELECT of all columns answer what the statements that succeeded have made
and not dropped since, in the order of their making: however many tables and indices came and went in between, and
whatever was refused. -/
namespace Rowbase

open Act Database

/-! ## The rows of a relation that is a list of entries -/

namespace Relation

variable {l : Location} {fs : Files} {r : Relation} {name : String} {columns : List Column} {tape : Tape Row}
  {condition : Option Row} {found : List (Handle × Row)}

/-- The rows that are selected, with all their columns. -/
theorem Serves.value_rows (hr : r.Serves l fs name columns tape) (hsub : ∀ e ∈ found, e ∈ tape.live)
    (hselect : (select condition).value r fs = .ok (found.map Prod.fst)) :
    (rows condition (columns.map Column.name)).value r fs = .ok (found.map Prod.snd) := by
  have hreads : ∀ handle, Reads view (project handle (columns.map Column.name)) := fun handle =>
    reads_project handle _
  rw [rows, (reads_select condition).value_bind fun handles => reads_mapM hreads handles, hselect]
  refine (value_mapM hreads r fs _).trans ((mapM_map _ _ _).trans (mapM_ok fun e he => ?_))
  rw [hr.value_project (hsub e he), Row.restrict_of_bound, hr.cut_eq (hsub e he)]
  intro column hm
  obtain ⟨v, hv, -⟩ := hr.stored (hsub e he) column hm
  exact ⟨v, hv⟩

section
variable {α : Type} {f : α → Row} {entries : Tape α}

/-- All rows, where every row is a kind of entry. -/
theorem Serves.value_rows_all (hr : r.Serves l fs name columns (entries.image f)) :
    (rows none (columns.map Column.name)).value r fs = .ok ((entries.live.map Prod.snd).map f) := by
  rw [hr.value_rows (fun _ he => he) hr.lists.select, Tape.live_image, List.map_map, List.map_map]
  rfl

/-- The rows that meet a condition, where every row is a kind of entry. -/
theorem Serves.value_rows_image {condition : Row} {p : α → Bool}
    (hr : r.Serves l fs name columns (entries.image f)) (hc : condition.FitsColumns columns)
    (hp : ∀ a, (f a).satisfies condition = p a) :
    (rows (some condition) (columns.map Column.name)).value r fs =
      .ok (((entries.live.map Prod.snd).filter p).map f) := by
  have hselect := hr.value_select_image hc hp
  have hhandles : (entries.live.filter fun e => p e.2).map Prod.fst =
      ((entries.live.filter fun e => p e.2).map fun e => (e.1, f e.2)).map Prod.fst := by
    rw [List.map_map]
    rfl
  rw [hhandles] at hselect
  rw [hr.value_rows (fun e he => ?_) hselect, List.map_map, List.filter_map, List.map_map]
  · rfl
  · obtain ⟨entry, hm, rfl⟩ := List.mem_map.1 he
    rw [Tape.live_image]
    exact List.mem_map_of_mem (List.mem_filter.1 hm).1

end

end Relation

/-! ## What SHOW answers -/

namespace Models

variable {l : Location} {sites : Sites} {c : Catalog} {fs : Files} {d : Database}

theorem value_showTables (h : Models l sites c fs d) : Catalog.showTables.value c fs =
    .ok (Catalog.answerRows (Schema.columnsOf Schema.tables)
      ((d.description.tables.filter (· ∉ Schema.names)).map Schema.tableRow)) := by
  have hrows : (Catalog.onTables (Relation.rows none ((Schema.columnsOf Schema.tables).map Column.name))).value c fs =
      .ok (d.description.tables.map Schema.tableRow) := h.serves_tables.value_rows_all
  have hreads : Reads Catalog.view (Catalog.onTables
      (Relation.rows none ((Schema.columnsOf Schema.tables).map Column.name))) :=
    Catalog.reads_onTables Catalog.shows_view (Relation.reads_rows _ _)
  rw [Catalog.showTables]
  refine ((hreads.adapt Refusal.storage).value_bind (fun _ => reads_pure _) c fs).trans ?_
  rw [value_adapt_ok hrows]
  exact congrArg (fun rows => Except.ok (Catalog.answerRows (Schema.columnsOf Schema.tables) rows)) List.filter_map

/-- SHOW COLUMNS answers with what the catalog says of the columns of a table, or of all. -/
theorem value_showColumns (h : Models l sites c fs d) (t : Option String) : (Catalog.showColumns t).value c fs =
    .ok (Catalog.answerRows (Schema.columnsOf Schema.columns)
      ((t.elim d.description.columns d.description.columnsOf).map ColumnEntry.row)) := by
  have hrows : (Catalog.onColumns (Relation.rows (t.map Schema.tableRow)
      ((Schema.columnsOf Schema.columns).map Column.name))).value c fs =
      .ok ((t.elim d.description.columns d.description.columnsOf).map ColumnEntry.row) := by
    cases t with
    | none => exact h.serves_columns.value_rows_all
    | some t => exact h.serves_columns.value_rows_image (fitsColumns_tableRow t (by decide)) fun e => e.row_satisfies t
  have hreads : Reads Catalog.view (Catalog.onColumns (Relation.rows (t.map Schema.tableRow)
      ((Schema.columnsOf Schema.columns).map Column.name))) :=
    Catalog.reads_onColumns Catalog.shows_view (Relation.reads_rows _ _)
  rw [Catalog.showColumns]
  refine ((hreads.adapt Refusal.storage).value_bind (fun _ => reads_pure _) c fs).trans ?_
  rw [value_adapt_ok hrows]
  rfl

/-- SHOW INDEX answers with what the catalog says of the indices of a table. -/
theorem value_showIndex (h : Models l sites c fs d) (t : String) : (Catalog.showIndex t).value c fs =
    .ok (Catalog.answerRows (Schema.columnsOf Schema.indices)
      ((d.description.indices.filter fun e => e.table = t).map IndexEntry.row)) := by
  have hrows : (Catalog.onIndices (Relation.rows (some (Schema.tableRow t))
      ((Schema.columnsOf Schema.indices).map Column.name))).value c fs =
      .ok ((d.description.indices.filter fun e => e.table = t).map IndexEntry.row) :=
    h.serves_indices.value_rows_image (fitsColumns_tableRow t (by decide)) fun e => e.row_satisfies t
  have hreads : Reads Catalog.view (Catalog.onIndices (Relation.rows (some (Schema.tableRow t))
      ((Schema.columnsOf Schema.indices).map Column.name))) :=
    Catalog.reads_onIndices Catalog.shows_view (Relation.reads_rows _ _)
  rw [Catalog.showIndex]
  refine ((hreads.adapt Refusal.storage).value_bind (fun _ => reads_pure _) c fs).trans ?_
  rw [value_adapt_ok hrows]
  rfl

end Models

/-! ## What the ledger says of one table -/

namespace Ledger

variable {L : Ledger} {t : String} {e : MadeTable}

/-- The tables of the user's, as the catalog lists them. -/
theorem tables_description (hnodup : L.names.Nodup) :
    L.description.tables.filter (· ∉ Schema.names) = L.tables.map MadeTable.name := by
  have hdisjoint := (List.nodup_append.1 hnodup).2.2
  have hown : Schema.names.filter (fun name => decide (name ∉ Schema.names)) = [] :=
    List.filter_eq_nil_iff.2 fun name hm hn => of_decide_eq_true hn hm
  have huser : (L.tables.map MadeTable.name).filter (fun name => decide (name ∉ Schema.names)) =
      L.tables.map MadeTable.name :=
    List.filter_eq_self.2 fun name hm => decide_eq_true fun hn => hdisjoint name hn name hm rfl
  change List.filter _ (Schema.names ++ L.tables.map MadeTable.name) = _
  rw [List.filter_append, hown, huser, List.nil_append]

theorem rows_columns_description : L.description.columns.map ColumnEntry.row = (own ++ L.tables).flatMap
    MadeTable.rows := by
  rw [description, List.map_flatMap]
  refine congrArg (fun f => List.flatMap f (own ++ L.tables)) (funext fun e => ?_)
  rw [List.map_map]
  rfl

theorem filter_name_of_nodup {made : List MadeTable} (hnodup : (made.map MadeTable.name).Nodup) (he : e ∈ made) :
    made.filter (fun e' => e'.name = e.name) = [e] := by
  induction made with
  | nil => cases he
  | cons first made ih =>
    obtain ⟨hnew, hnodup⟩ := List.nodup_cons.1 hnodup
    rcases List.mem_cons.1 he with rfl | he
    · have hnone : made.filter (fun e' => decide (e'.name = e.name)) = [] :=
        List.filter_eq_nil_iff.2 fun e' hm hc => hnew (of_decide_eq_true hc ▸ List.mem_map_of_mem hm)
      rw [List.filter_cons, if_pos (decide_eq_true rfl), hnone]
    · have hne : first.name ≠ e.name := fun heq => hnew (heq ▸ List.mem_map_of_mem he)
      rw [List.filter_cons_of_neg (by rw [decide_eq_true_iff]; exact hne), ih hnodup he]

/-- Of each table the catalog says which columns it was made with. -/
theorem columnsOf_description (hnodup : L.names.Nodup) (he : e ∈ own ++ L.tables) :
    L.description.columnsOf e.name = e.columns.map (ColumnEntry.about e.name) := by
  have hnames : ((own ++ L.tables).map MadeTable.name).Nodup := by
    rw [List.map_append]
    exact hnodup
  rw [Description.columnsOf, description, filter_flatMap_of_eq (q := fun e' => decide (e'.name = e.name)),
    filter_name_of_nodup hnames he, List.flatMap_singleton]
  intro e' _ entry hm
  obtain ⟨column, -, rfl⟩ := List.mem_map.1 hm
  rfl

theorem columnsOf_of_not_mem (h : t ∉ L.names) : L.description.columnsOf t = [] := by
  refine List.filter_eq_nil_iff.2 fun entry hm hc => h ?_
  obtain ⟨e, he, hm⟩ := List.mem_flatMap.1 hm
  obtain ⟨column, -, rfl⟩ := List.mem_map.1 hm
  have hname := List.mem_map_of_mem (f := MadeTable.name) he
  rw [List.map_append] at hname
  exact of_decide_eq_true hc ▸ hname

theorem rows_indices_description (t : String) :
    (L.description.indices.filter fun e => e.table = t).map IndexEntry.row =
      (L.indices.filter fun e => e.table = t).flatMap MadeIndex.rows := by
  rw [description, filter_flatMap_of_eq (q := fun e => decide (e.table = t)), List.map_flatMap]
  · refine congrArg (fun f => List.flatMap f _) (funext fun e => ?_)
    rw [List.map_map]
    rfl
  · intro e _ entry hm
    obtain ⟨part, -, rfl⟩ := List.mem_map.1 hm
    rfl

end Ledger

/-! ## After any run -/

namespace Session

variable {l : Location} {sites : Sites} {s : Session} {c : Catalog} {fs fs' before : Files} {d : Database}
  {L : Ledger} {statements : List Language.Statement}

/-- Whether a session in a state answers about tables and indices what a ledger says. -/
structure Reports (state : Session × Files) (L : Ledger) : Prop where
  distinct : (Schema.names ++ L.tables.map MadeTable.name).Nodup
  tables : ((execute .showTables).apply state.1 state.2).1 = .ok (Catalog.answerRows
    (Schema.columnsOf Schema.tables) (L.tables.map fun e => Schema.tableRow e.name))
  columns : ((execute (.showColumns none)).apply state.1 state.2).1 = .ok (Catalog.answerRows
    (Schema.columnsOf Schema.columns) ((Ledger.own ++ L.tables).flatMap MadeTable.rows))
  columns_from : ∀ e ∈ Ledger.own ++ L.tables, ((execute (.showColumns (some e.name))).apply state.1 state.2).1 =
    .ok (Catalog.answerRows (Schema.columnsOf Schema.columns) e.rows)
  columns_unlisted : ∀ t ∉ L.names, ((execute (.showColumns (some t))).apply state.1 state.2).1 =
    .ok (Catalog.answerRows (Schema.columnsOf Schema.columns) [])
  selected : ∀ e ∈ L.tables, ∃ rows, ((execute (.select .all e.name none)).apply state.1 state.2).1 =
    .ok (Catalog.answerRows e.columns rows)
  indices : ∀ t, ((execute (.showIndex t)).apply state.1 state.2).1 = .ok (Catalog.answerRows
    (Schema.columnsOf Schema.indices) ((L.indices.filter fun e => e.table = t).flatMap MadeIndex.rows))

/-- A session whose catalog says what a ledger does reports it. -/
theorem Opens.reports (h : Opens l sites d s fs c fs') (hdesc : d.description = L.description) :
    Reports (s, fs) L := by
  have hanswer : ∀ statement, ((Session.execute statement).apply s fs).1 = (carryOut statement).value c fs' :=
    fun statement => congrArg Prod.fst (apply_execute h.opened statement)
  have hnodup : L.names.Nodup := by
    have htables := h.coherent.tables_nodup
    rwa [hdesc] at htables
  have hcolumns : ∀ t, (carryOut (.showColumns t)).value c fs' = _ := fun t => h.models.value_showColumns t
  rw [hdesc] at hcolumns
  refine ⟨hnodup, ?_, ?_, fun e he => ?_, fun t ht => ?_, fun e he => ?_, fun t => ?_⟩
  · rw [hanswer]
    refine h.models.value_showTables.trans ?_
    rw [hdesc, Ledger.tables_description hnodup, List.map_map]
    rfl
  · rw [hanswer, hcolumns, Option.elim_none, Ledger.rows_columns_description]
  · rw [hanswer, hcolumns, Option.elim_some, Ledger.columnsOf_description hnodup he, List.map_map]
    rfl
  · rw [hanswer, hcolumns, Option.elim_some, Ledger.columnsOf_of_not_mem ht, List.map_nil]
  · have hn : e.name ∉ Schema.names := fun hn =>
      (List.nodup_append.1 hnodup).2.2 _ hn _ (List.mem_map_of_mem he) rfl
    have hlisted : d.tableHandles e.name ≠ [] := by
      rw [← mem_tables_description, hdesc]
      exact List.mem_append_right _ (List.mem_map_of_mem he)
    obtain ⟨ct, hc⟩ := (h.sound.regular.listed_iff _).1 hlisted
    rw [content_of_not_mem hn] at hc
    have hentries : d.columnsOf e.name = (d.description.columnsOf e.name).map ColumnEntry.column := by
      rw [columnsOf_description, List.map_map]
      rfl
    have hdeclared : e.columns = ct.columns := by
      rw [← (h.columns_of_table hc).1, hentries, hdesc,
        Ledger.columnsOf_description hnodup (List.mem_append_right _ he), List.map_map]
      refine (List.map_id _).symm.trans (List.map_congr_left fun column hm => ?_)
      exact (ColumnEntry.column_about (e.nullable column hm) e.name).symm
    rw [hdeclared]
    exact ⟨_, h.select_all hc⟩
  · rw [hanswer]
    refine (h.models.value_showIndex t).trans ?_
    rw [hdesc, Ledger.rows_indices_description]

/-- After any run SHOW TABLES lists just the tables that were made and not dropped since, in the order of their
making; SHOW COLUMNS and SELECT give the columns of each as it was made last, and SHOW COLUMNS alone those of the
catalog's own tables and then of all others in their order; SHOW INDEX numbers the columns of each index that was
made and not dropped since. -/
theorem reports_run (h : l.Fits sites before statements) (hrun : run statements (⟨l, none⟩, before) = (s, fs)) :
    Reports (s, fs) ((successes statements (⟨l, none⟩, before)).foldl Ledger.enter {}) := by
  obtain ⟨d, c, fs', hopens, hdesc⟩ := opens_run_entered h
  rw [hrun] at hopens
  exact hopens.reports hdesc

/-- Statements that make two tables and an index, drop one table and make it again with other columns. -/
def remade : List Language.Statement :=
  [.createTable "t" [⟨"a", .integer, false⟩] false, .createTable "u" [⟨"b", .text, false⟩] false,
    .createIndex "i" "t" ["a"] .btree, .dropTable "t", .createTable "u" [⟨"x", .integer, false⟩] true,
    .createTable "t" [⟨"c", .boolean, false⟩, ⟨"a", .text, false⟩] false, .createIndex "i" "t" ["a", "c"] .hash]

/-- The table that was made again comes last, with its new columns, and has its new index only. -/
example : (remade.foldl Ledger.enter {}).tables.map MadeTable.name = ["u", "t"] ∧
    (remade.foldl Ledger.enter {}).indices.flatMap MadeIndex.rows =
      [Schema.indexRow "t" "i" 1 "a" .hash, Schema.indexRow "t" "i" 2 "c" .hash] := by decide

theorem reports_run_remade : ∃ s fs, Location.Fits {} (.of remade) (.fresh ["home"]) remade ∧
    run remade (⟨{}, none⟩, .fresh ["home"]) = (s, fs) ∧
    Reports (s, fs) ((successes remade (⟨{}, none⟩, .fresh ["home"])).foldl Ledger.enter {}) := by
  have h : Location.Fits {} (.of remade) (.fresh ["home"]) remade := by decide +kernel
  rcases hrun : run remade (⟨{}, none⟩, .fresh ["home"]) with ⟨s, fs⟩
  exact ⟨s, fs, h, rfl, reports_run h hrun⟩

end Session

end Rowbase
