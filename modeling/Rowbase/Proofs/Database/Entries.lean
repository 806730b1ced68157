import Rowbase.Proofs.Database.Model

/-! # What the catalog says of a database

The entries of a catalog that models a database are read as they stand on the database's lists: which
tables there are, which columns each has, and which indices with which columns. -/
namespace Rowbase

/-! ## Entries as rows -/

theorem fitsColumns_tableRow (t : String) {name : String} (hn : name ∈ Schema.names) :
    (Schema.tableRow t).FitsColumns (Schema.columnsOf name) := by
  rw [Row.fitsColumns_iff]
  change ∀ e ∈ [("table_name", Value.text t)], _
  rcases Schema.mem_names.1 hn with rfl | rfl | rfl <;>
    simp [Schema.columnsOf, Schema.tables, Schema.columns, Schema.indices, Value.kind?]

theorem fitsColumns_indexCondition (t i : String) :
    (Schema.indexCondition t i).FitsColumns (Schema.columnsOf Schema.indices) := by
  rw [Row.fitsColumns_iff]
  change ∀ e ∈ [("table_name", Value.text t), ("index_name", Value.text i)], _
  simp [Schema.columnsOf, Schema.tables, Schema.columns, Schema.indices, Value.kind?]

theorem tableRow_satisfies (t t' : String) :
    (Schema.tableRow t).satisfies (Schema.tableRow t') = decide (t = t') := by
  change (decide (Value.text t' ≠ .null ∧ some (Value.text t) = some (.text t')) && true) = _
  simp

theorem ColumnEntry.row_satisfies (e : ColumnEntry) (t : String) :
    e.row.satisfies (Schema.tableRow t) = decide (e.table = t) := by
  change (decide (Value.text t ≠ .null ∧ some (Value.text e.table) = some (.text t)) && true) = _
  simp

theorem IndexEntry.row_satisfies (e : IndexEntry) (t : String) :
    e.row.satisfies (Schema.tableRow t) = decide (e.table = t) := by
  change (decide (Value.text t ≠ .null ∧ some (Value.text e.table) = some (.text t)) && true) = _
  simp

theorem IndexEntry.row_satisfies_both (e : IndexEntry) (t i : String) :
    e.row.satisfies (Schema.indexCondition t i) = decide (e.table = t ∧ e.index = i) := by
  change (decide (Value.text t ≠ .null ∧ some (Value.text e.table) = some (.text t)) &&
    (decide (Value.text i ≠ .null ∧ some (Value.text e.index) = some (.text i)) && true)) = _
  simp

theorem filled_tableRow (t : String) :
    Row.filled (Schema.columnsOf Schema.tables) (Schema.tableRow t) = Schema.tableRow t := rfl

theorem ColumnEntry.filled_row (e : ColumnEntry) :
    Row.filled (Schema.columnsOf Schema.columns) e.row = e.row := rfl

theorem IndexEntry.filled_row (e : IndexEntry) :
    Row.filled (Schema.columnsOf Schema.indices) e.row = e.row := rfl

theorem ColumnEntry.columnOf_row (e : ColumnEntry) : Catalog.columnOf e.row = .ok e.column := by
  obtain ⟨t, n, k⟩ := e
  cases k <;> rfl

/-- What an entry says of a column of an index. -/
def IndexEntry.part (e : IndexEntry) : Int32 × String × Bool :=
  (Int32.ofNat e.place, e.column, e.kind.isUnique)

theorem IndexEntry.indexPartOf_row (e : IndexEntry) : Catalog.indexPartOf e.row = .ok e.part := rfl

theorem IndexEntry.index_of_row (e : IndexEntry) (owner : String) :
    (do Catalog.textCell (← e.row.restrict owner ["index_name"]) "index_name") = .ok e.index := rfl

/-! ## The lists of a database -/

namespace Database

/-- The rows that list a table. -/
def tableHandles (d : Database) (t : String) : List Handle :=
  (d.tables.live.filter fun e => e.2 = t).map Prod.fst

/-- The entries about the columns of a table. -/
def columnEntries (d : Database) (t : String) : List (Handle × ColumnEntry) :=
  d.columns.live.filter fun e => e.2.table = t

/-- The columns of a table as the catalog says. -/
def columnsOf (d : Database) (t : String) : List Column :=
  (d.columnEntries t).map fun e => e.2.column

/-- The entries about an index. -/
def indexEntries (d : Database) (t i : String) : List (Handle × IndexEntry) :=
  d.indices.live.filter fun e => e.2.table = t ∧ e.2.index = i

/-- The names of the indices of a table, sorted. -/
def indexNames (d : Database) (t : String) : List String :=
  ((d.indices.live.filter fun e => e.2.table = t).map fun e => e.2.index).eraseDups.mergeSort
    fun a b => decide (a ≤ b)

/-- The columns of an index as the catalog says, and whether it is unique. -/
def definition (d : Database) (t i : String) : List String × Bool :=
  let parts := (d.indexEntries t i).map fun e => e.2.part
  let sorted := parts.mergeSort fun a b =>
    ((compare a.1 b.1).then (compare a.2.1 b.2.1)).isLE
  (sorted.map (·.2.1), (parts.getLast?.map (·.2.2)).getD false)

/-- The indices of a table with their columns. -/
def outlines (d : Database) (t : String) : List IndexOutline :=
  (d.indexNames t).map fun i => ⟨i, (d.definition t i).1⟩

theorem mem_indexNames {d : Database} {t i : String} :
    i ∈ d.indexNames t ↔ d.indexEntries t i ≠ [] := by
  rw [indexNames, List.mem_mergeSort, List.mem_eraseDups, List.mem_map]
  constructor
  · rintro ⟨e, he, hi⟩
    obtain ⟨hm, ht⟩ := List.mem_filter.1 he
    exact List.ne_nil_of_mem (List.mem_filter.2 ⟨hm, decide_eq_true ⟨of_decide_eq_true ht, hi⟩⟩)
  · intro hne
    obtain ⟨e, he⟩ := List.exists_mem_of_ne_nil _ hne
    obtain ⟨hm, hti⟩ := List.mem_filter.1 he
    obtain ⟨ht, hi⟩ := of_decide_eq_true hti
    exact ⟨e, List.mem_filter.2 ⟨hm, decide_eq_true ht⟩, hi⟩

theorem definition_eq_nil {d : Database} {t i : String} :
    (d.definition t i).1 = [] ↔ d.indexEntries t i = [] := by
  rw [definition]
  dsimp only
  rw [List.map_eq_nil_iff, ← List.length_eq_zero_iff, List.length_mergeSort, List.length_map,
    List.length_eq_zero_iff]

end Database

/-! ## Reading the entries -/

namespace Models

open Act

variable {l : Location} {sites : Sites} {c : Catalog} {fs : Files} {d : Database}

theorem serves_tables (h : Models l sites c fs d) : c.tables.Serves l fs Schema.tables
    (Schema.columnsOf Schema.tables) (d.tables.image Schema.tableRow) :=
  h.serves (show c.kept Schema.tables = _ from rfl) rfl

theorem serves_columns (h : Models l sites c fs d) : c.columns.Serves l fs Schema.columns
    (Schema.columnsOf Schema.columns) (d.columns.image ColumnEntry.row) :=
  h.serves (show c.kept Schema.columns = _ from rfl) rfl

theorem serves_indices (h : Models l sites c fs d) : c.indices.Serves l fs Schema.indices
    (Schema.columnsOf Schema.indices) (d.indices.image IndexEntry.row) :=
  h.serves (show c.kept Schema.indices = _ from rfl) rfl

theorem value_tableHandles (h : Models l sites c fs d) (t : String) :
    (Catalog.tableHandles t).value c fs = .ok (d.tableHandles t) :=
  h.serves_tables.value_select_image (fitsColumns_tableRow t (by decide))
    fun t' => tableRow_satisfies t' t

theorem value_columnHandles (h : Models l sites c fs d) (t : String) :
    (Catalog.columnHandles t).value c fs = .ok ((d.columnEntries t).map Prod.fst) :=
  h.serves_columns.value_select_image (fitsColumns_tableRow t (by decide)) fun e => e.row_satisfies t

theorem value_tableIndexHandles (h : Models l sites c fs d) (t : String) :
    (Catalog.tableIndexHandles t).value c fs =
      .ok ((d.indices.live.filter fun e => e.2.table = t).map Prod.fst) :=
  h.serves_indices.value_select_image (fitsColumns_tableRow t (by decide)) fun e => e.row_satisfies t

theorem value_indexHandles (h : Models l sites c fs d) (t i : String) :
    (Catalog.indexHandles t i).value c fs = .ok ((d.indexEntries t i).map Prod.fst) :=
  h.serves_indices.value_select_image (fitsColumns_indexCondition t i) fun e => e.row_satisfies_both t i

/-- What is read of each of some entries. -/
theorem value_mapM_entries {α β : Type} {x : Handle → Act StorageError Catalog β} {g : α → β}
    {entries : List (Handle × α)} (hx : ∀ h, Reads Catalog.view (x h))
    (hv : ∀ e ∈ entries, (x e.1).value c fs = .ok (g e.2)) :
    ((entries.map Prod.fst).mapM x).value c fs = .ok (entries.map fun e => g e.2) := by
  rw [value_mapM hx, mapM_map]
  exact mapM_ok hv

theorem value_project_column (h : Models l sites c fs d) {e : Handle × ColumnEntry}
    (he : e ∈ d.columns.live) (names : List String) :
    (Catalog.onColumns (Relation.project e.1 names)).value c fs = e.2.row.restrict Schema.columns names := by
  refine h.serves_columns.value_project ?_ names
  rw [Tape.live_image]
  exact List.mem_map_of_mem he

theorem value_project_index (h : Models l sites c fs d) {e : Handle × IndexEntry}
    (he : e ∈ d.indices.live) (names : List String) :
    (Catalog.onIndices (Relation.project e.1 names)).value c fs = e.2.row.restrict Schema.indices names := by
  refine h.serves_indices.value_project ?_ names
  rw [Tape.live_image]
  exact List.mem_map_of_mem he

theorem value_columnsOf (h : Models l sites c fs d) (t : String) :
    (Catalog.columnsOf t).value c fs = .ok (d.columnsOf t) := by
  have hreads : ∀ handle, Reads Catalog.view (do
      .result (Catalog.columnOf (← Catalog.onColumns (Relation.project handle [])))) := fun handle =>
    (Catalog.reads_onColumns Catalog.shows_view (Relation.reads_project handle [])).bind fun _ =>
      reads_result _
  rw [Catalog.columnsOf, ((Catalog.surveys_columnHandles t).reads Catalog.shows_view).value_bind
    fun handles => reads_mapM hreads handles, h.value_columnHandles t]
  refine value_mapM_entries hreads fun e he => ?_
  rw [(Catalog.reads_onColumns Catalog.shows_view (Relation.reads_project e.1 [])).value_bind
    fun _ => reads_result _, h.value_project_column (List.mem_filter.1 he).1]
  exact e.2.columnOf_row

theorem value_indexNames (h : Models l sites c fs d) (t : String) :
    (Catalog.indexNames t).value c fs = .ok (d.indexNames t) := by
  have hreads : ∀ handle, Reads Catalog.view (do
      .result (Catalog.textCell (← Catalog.onIndices (Relation.project handle ["index_name"]))
        "index_name")) := fun handle =>
    (Catalog.reads_onIndices Catalog.shows_view (Relation.reads_project handle _)).bind fun _ =>
      reads_result _
  rw [Catalog.indexNames, ((Catalog.surveys_tableIndexHandles t).reads Catalog.shows_view).value_bind
    fun handles => (reads_mapM hreads handles).bind fun _ => reads_pure _, h.value_tableIndexHandles t]
  refine ((reads_mapM hreads _).value_bind (fun _ => reads_pure _) c fs).trans ?_
  rw [value_mapM_entries (g := IndexEntry.index) hreads fun e he => ?_]
  · rfl
  · rw [(Catalog.reads_onIndices Catalog.shows_view (Relation.reads_project e.1 _)).value_bind
      fun _ => reads_result _, h.value_project_index (List.mem_filter.1 he).1]
    exact e.2.index_of_row _

theorem value_indexDefinition (h : Models l sites c fs d) (t i : String) :
    (Catalog.indexDefinition t i).value c fs = .ok (d.definition t i) := by
  have hreads : ∀ handle, Reads Catalog.view (do
      .result (Catalog.indexPartOf (← Catalog.onIndices (Relation.project handle [])))) := fun handle =>
    (Catalog.reads_onIndices Catalog.shows_view (Relation.reads_project handle [])).bind fun _ =>
      reads_result _
  rw [Catalog.indexDefinition, ((Catalog.surveys_indexHandles t i).reads Catalog.shows_view).value_bind
    fun handles => (reads_mapM hreads handles).bind fun _ => reads_pure _, h.value_indexHandles t i]
  refine ((reads_mapM hreads _).value_bind (fun _ => reads_pure _) c fs).trans ?_
  rw [value_mapM_entries (g := IndexEntry.part) hreads fun e he => ?_]
  · rfl
  · rw [(Catalog.reads_onIndices Catalog.shows_view (Relation.reads_project e.1 [])).value_bind
      fun _ => reads_result _, h.value_project_index (List.mem_filter.1 he).1]
    exact e.2.indexPartOf_row

theorem value_indexOutlines (h : Models l sites c fs d) (t : String) :
    (Catalog.indexOutlines t).value c fs = .ok (d.outlines t) := by
  have hreads : ∀ name, Reads Catalog.view (do
      return (⟨name, (← Catalog.indexDefinition t name).1⟩ : IndexOutline)) := fun name =>
    ((Catalog.surveys_indexDefinition t name).reads Catalog.shows_view).bind fun _ => reads_pure _
  rw [Catalog.indexOutlines, ((Catalog.surveys_indexNames t).reads Catalog.shows_view).value_bind
    fun names => reads_mapM hreads names, h.value_indexNames t]
  refine (value_mapM hreads c fs _).trans (mapM_ok fun name _ => ?_)
  rw [((Catalog.surveys_indexDefinition t name).reads Catalog.shows_view).value_bind fun _ => reads_pure _,
    h.value_indexDefinition t name]
  rfl

/-! ## Reading keeps the model -/

theorem withstands : Catalog.Withstands (Models l sites · · d) := fun _ name x hn hx c fs h => by
  obtain ⟨r, hk⟩ := Catalog.exists_kept hn c
  obtain ⟨r', ha, h'⟩ := h.read hx hk
  rw [ha]
  exact h'

/-- An act that reads returns its value and leaves the model. -/
theorem reading {ε α : Type} {x : Act ε Catalog α} (hx : Reads Catalog.view x)
    (hp : Preserves (Models l sites · · d) x) (h : Models l sites c fs d) :
    ∃ c', x.apply c fs = (x.value c fs, c', fs) ∧ Models l sites c' fs d := by
  obtain ⟨c', ha, -⟩ := hx.apply_eq c fs
  have h' := hp c fs h
  rw [ha] at h'
  exact ⟨c', ha, h'⟩

theorem surveying {ε α : Type} {x : Act ε Catalog α} (hx : Catalog.Surveys x) (h : Models l sites c fs d) :
    ∃ c', x.apply c fs = (x.value c fs, c', fs) ∧ Models l sites c' fs d :=
  h.reading (hx.reads Catalog.shows_view) (hx.preserves withstands)

end Models

end Rowbase
