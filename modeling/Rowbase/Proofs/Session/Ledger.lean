import Rowbase.Proofs.Session.Acceptance

/-! # The ledger of a session

The tables and indices that were made and not dropped since, in the order of their making. Only statements that
succeed are entered. What the catalog says after any run is what the ledger says: the catalog's own tables first,
then one entry for each table, one for each of its columns, and one for each column of an index. -/
namespace Rowbase

open Act Database

/-- A table as its CREATE TABLE made it. Every column can be NULL. -/
structure MadeTable where
  name : String
  columns : List Column
  nullable : ∀ column ∈ columns, column.domain.nullable = true

/-- An index as its CREATE INDEX made it. -/
structure MadeIndex where
  table : String
  name : String
  columns : List String
  kind : Language.IndexKind

/-- The tables of the user's and the indices that are there, in the order of their making. -/
structure Ledger where
  tables : List MadeTable := []
  indices : List MadeIndex := []

/-- The columns that are declared, in their order. -/
def Language.declaredColumns (declared : List ColumnDeclaration) : List Column :=
  declared.filterMap fun c => c.type.kind?.map fun kind => ⟨c.name, { kind }⟩

theorem Language.nullable_declaredColumns (declared : List ColumnDeclaration) :
    ∀ column ∈ declaredColumns declared, column.domain.nullable = true := by
  intro column hm
  obtain ⟨c, -, hc⟩ := List.mem_filterMap.1 hm
  obtain ⟨kind, -, rfl⟩ := Option.map_eq_some_iff.1 hc
  rfl

theorem Schema.nullable_columnsOf (name : String) :
    ∀ column ∈ Schema.columnsOf name, column.domain.nullable = true := by
  intro column hm
  rw [Schema.columnsOf] at hm
  split_ifs at hm
  all_goals simp only [List.mem_cons, List.not_mem_nil, or_false] at hm
  · rw [hm]
  · rcases hm with rfl | rfl | rfl <;> rfl
  · rcases hm with rfl | rfl | rfl | rfl | rfl | rfl <;> rfl

/-- The statements that succeed when a session carries out some one after the other. -/
def Session.successes : List Language.Statement → Session × Files → List Language.Statement
  | [], _ => []
  | s :: rest, state =>
    match (execute s).apply state.1 state.2 with
    | (.ok _, state') => s :: successes rest state'
    | (.error _, state') => successes rest state'

/-- The rows that list the columns of a table. -/
def MadeTable.rows (e : MadeTable) : List Row :=
  e.columns.map fun column => Schema.columnRow e.name column.name column.domain.kind

/-- The rows that list the columns of an index, numbered from 1. -/
def MadeIndex.rows (e : MadeIndex) : List Row :=
  (e.columns.zipIdx 1).map fun part => Schema.indexRow e.table e.name part.2 part.1 e.kind

namespace Ledger

variable {L : Ledger}

/-- The names of all tables, those of the catalog's own first. -/
def names (L : Ledger) : List String := Schema.names ++ L.tables.map MadeTable.name

/-- The ledger after one more statement that succeeded. CREATE TABLE enters nothing if the table is there. -/
def enter (L : Ledger) : Language.Statement → Ledger
  | .createTable t declared _ =>
    if t ∈ L.names then L else { L with tables := L.tables ++ [⟨t, Language.declaredColumns declared,
      Language.nullable_declaredColumns declared⟩] }
  | .dropTable t => ⟨L.tables.filter fun e => e.name ≠ t, L.indices.filter fun e => e.table ≠ t⟩
  | .createIndex i t columns kind => { L with indices := L.indices ++ [⟨t, i, columns, kind⟩] }
  | .dropIndex i t => { L with indices := L.indices.filter fun e => ¬ (e.table = t ∧ e.name = i) }
  | _ => L

/-- The catalog's own tables, as if a statement had made them. -/
def own : List MadeTable :=
  Schema.names.map fun name => ⟨name, Schema.columnsOf name, Schema.nullable_columnsOf name⟩

/-- The entries that a ledger makes. -/
def description (L : Ledger) : Description where
  tables := L.names
  columns := (own ++ L.tables).flatMap fun e => e.columns.map (ColumnEntry.about e.name)
  indices := L.indices.flatMap fun e => (e.columns.zipIdx 1).map (IndexEntry.atPlace e.table e.name e.kind)

/-! ## One statement -/

/-- What is kept of lists one after the other are those that are kept. -/
theorem filter_flatMap_of_eq {α β : Type} {f : α → List β} {p : β → Bool} {q : α → Bool} {as : List α}
    (h : ∀ a ∈ as, ∀ b ∈ f a, p b = q a) : (as.flatMap f).filter p = (as.filter q).flatMap f := by
  induction as with
  | nil => rfl
  | cons a as ih =>
    rw [List.flatMap_cons, List.filter_append, ih fun a' hm => h a' (.tail _ hm)]
    cases hq : q a with
    | false =>
      have hnone : (f a).filter p = [] := List.filter_eq_nil_iff.2 fun b hb hp => by
        rw [h a (.head _) b hb, hq] at hp
        cases hp
      rw [hnone, List.filter_cons_of_neg (by rw [hq]; exact Bool.false_ne_true), List.nil_append]
    | true =>
      have hall : (f a).filter p = f a := List.filter_eq_self.2 fun b hb => (h a (.head _) b hb).trans hq
      rw [hall, List.filter_cons_of_pos hq, List.flatMap_cons]

theorem filter_own {p : MadeTable → Bool} (h : ∀ e ∈ own, p e = true) :
    (own ++ L.tables).filter p = own ++ L.tables.filter p := by
  rw [List.filter_append, List.filter_eq_self.2 h]

theorem name_of_own {e : MadeTable} (h : e ∈ own) : e.name ∈ Schema.names := by
  obtain ⟨name, hm, rfl⟩ := List.mem_map.1 h
  exact hm

theorem storableColumns_eq_ok : ∀ {declared : List Language.ColumnDeclaration} {known columns : List Column},
    Catalog.storableColumns known declared = .ok columns → columns = known ++ Language.declaredColumns declared
  | [], known, columns, h => by
    cases h
    exact (List.append_nil known).symm
  | c :: declared, known, columns, h => by
    rw [Catalog.storableColumns] at h
    split at h
    · cases h
    · rename_i kind hkind
      split at h
      · cases h
      · have hfirst : Language.declaredColumns (c :: declared) =
            ⟨c.name, { kind }⟩ :: Language.declaredColumns declared := by
          rw [Language.declaredColumns, List.filterMap_cons, hkind]
          rfl
        rw [storableColumns_eq_ok h, hfirst, List.append_assoc]
        rfl

theorem description_createTable {t : String} {declared : List Language.ColumnDeclaration} {ifNotExists : Bool}
    (h : t ∉ L.names) : (L.enter (.createTable t declared ifNotExists)).description =
      L.description.addTable t (Language.declaredColumns declared) := by
  rw [enter, if_neg h, description, Description.addTable, description]
  congr 1
  · rw [names, List.map_append, ← List.append_assoc]
    rfl
  · rw [← List.append_assoc, List.flatMap_append, List.flatMap_singleton]

theorem description_dropTable {t : String} (hn : t ∉ Schema.names) :
    (L.enter (.dropTable t)).description = L.description.dropTable t := by
  have hown : ∀ e ∈ own, decide (e.name ≠ t) = true := fun e he =>
    decide_eq_true fun heq => hn (heq ▸ name_of_own he)
  rw [enter, description, names, Description.dropTable, description, names]
  congr 1
  · have hschema : Schema.names.filter (fun name => decide (name ≠ t)) = Schema.names :=
      List.filter_eq_self.2 fun name hm => decide_eq_true fun heq => hn (heq ▸ hm)
    rw [List.filter_append, hschema, List.filter_map]
    rfl
  · rw [← filter_own hown]
    refine (filter_flatMap_of_eq fun e _ entry hm => ?_).symm
    obtain ⟨column, -, rfl⟩ := List.mem_map.1 hm
    rfl
  · refine (filter_flatMap_of_eq fun e _ entry hm => ?_).symm
    obtain ⟨part, -, rfl⟩ := List.mem_map.1 hm
    rfl

theorem description_createIndex (i t : String) (columns : List String) (kind : Language.IndexKind) :
    (L.enter (.createIndex i t columns kind)).description = L.description.addIndex t i columns kind := by
  rw [enter, description, Description.addIndex, description]
  congr 1
  dsimp only
  rw [List.flatMap_append, List.flatMap_singleton]

theorem description_dropIndex (i t : String) :
    (L.enter (.dropIndex i t)).description = L.description.dropIndex t i := by
  rw [enter, description, Description.dropIndex, description]
  congr 1
  refine (filter_flatMap_of_eq fun e _ entry hm => ?_).symm
  obtain ⟨part, -, rfl⟩ := List.mem_map.1 hm
  rfl

variable {l : Location} {sites : Sites} {c : Catalog} {fs : Files} {d d' : Database} {s : Language.Statement}

/-- A statement that succeeds changes what the catalog says as it changes the ledger. -/
theorem description_enter (hc : d.Changes s d') (h : Models l sites c fs d) (hd : d.Sound l sites)
    (hdesc : d.description = L.description) : d'.description = (L.enter s).description := by
  have hlike : d.Like d' → d'.description = L.description := fun hl => hl.description.trans hdesc
  have hnames : ∀ t, t ∈ L.names ↔ d.tableHandles t ≠ [] := fun t => by
    rw [← mem_tables_description, hdesc]
    rfl
  cases s with
  | select | update | showTables | showColumns | showIndex => exact hlike hc.toLike
  | insert t names values =>
    obtain ⟨row, -, ct, handle, -, hl, -⟩ := hc
    exact hlike hl
  | delete t condition =>
    obtain ⟨-, -, hs, -, hl, -⟩ := hc
    exact hlike hl
  | createTable t declared ifNotExists =>
    rcases hc with ⟨hne, rfl⟩ | ⟨hnil, columns, hcols, -, handle, added, hadded, rfl⟩
    · rw [enter, if_pos ((hnames t).2 hne)]
      exact hdesc
    · rw [description_withTable hadded, hdesc, description_createTable fun hm => (hnames t).1 hm hnil,
        storableColumns_eq_ok hcols, List.nil_append]
  | dropTable t =>
    obtain ⟨ht, rfl⟩ := hc
    obtain ⟨ct, ht⟩ := Option.ne_none_iff_exists'.1 ht
    rw [description_withoutTable (Models.ascending_roll (roll_tables d) h)
      (Models.ascending_roll (roll_columns d) h) h.ascending_indices, hdesc,
      description_dropTable (hd.regular.not_mem_of_table ht)]
  | createIndex i t columns kind =>
    obtain ⟨-, new, ix, rfl, -, hnew⟩ := hc
    rw [description_withIndex hnew, hdesc, description_createIndex]
  | dropIndex i t =>
    obtain ⟨-, rfl⟩ := hc
    rw [description_withoutIndex h.ascending_indices, hdesc, description_dropIndex]

end Ledger

/-! ## A run -/

namespace Session

variable {l : Location} {sites : Sites} {fs : Files} {statements : List Language.Statement}

theorem description_empty {d : Database} (h : d.Fresh) : d.description = ({} : Ledger).description := by
  rw [fresh_description h]
  rfl

/-- However a run goes on, the catalog says what the ledger does. -/
theorem Opens.run_entered : ∀ (statements : List Language.Statement) {L : Ledger} {d : Database} {s : Session}
    {c : Catalog} {fs fs' : Files}, Opens l sites d s fs c fs' → d.description = L.description →
    (∀ s ∈ statements, ∀ site ∈ s.sites, site ∈ sites) →
    ∃ d₁ c₁ fs₁, Opens l sites d₁ (run statements (s, fs)).1 (run statements (s, fs)).2 c₁ fs₁ ∧
      d₁.description = ((successes statements (s, fs)).foldl Ledger.enter L).description
  | [], L, d, s, c, fs, fs', h, hdesc, _ => ⟨d, c, fs', h, hdesc⟩
  | statement :: rest, L, d, s, c, fs, fs', h, hdesc, hs => by
    obtain ⟨res, c₁, fs₁, d₁, hx, h₁, hres⟩ := h.execute (hs statement (.head _))
    have hrest : ∀ s ∈ rest, ∀ site ∈ s.sites, site ∈ sites := fun s hm => hs s (.tail _ hm)
    rcases hres with ⟨⟨e, rfl⟩, hsame⟩ | ⟨⟨a, rfl⟩, hchanges⟩
    · have hafter := Opens.run_entered rest h₁ (hsame.description.trans hdesc) hrest
      rwa [run, successes, hx]
    · have hafter := Opens.run_entered rest h₁ (Ledger.description_enter hchanges h.models h.sound hdesc) hrest
      rwa [run, successes, hx]

/-- After any run the catalog says what the statements that succeeded have made. -/
theorem opens_run_entered (h : l.Fits sites fs statements) : ∃ d c fs',
    Opens l sites d (run statements (⟨l, none⟩, fs)).1 (run statements (⟨l, none⟩, fs)).2 c fs' ∧
      d.description = ((successes statements (⟨l, none⟩, fs)).foldl Ledger.enter {}).description := by
  obtain ⟨d, c, fs', hopens, hfresh⟩ := opens_of_suits h.suits h.own
  exact hopens.run_entered statements (description_empty hfresh) h.named

end Session

end Rowbase
