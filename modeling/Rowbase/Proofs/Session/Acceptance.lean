import Rowbase.Proofs.Heap.Size
import Rowbase.Proofs.Session.Answers

/-! # Which rows are inserted

INSERT takes a row just if its values are literals for different columns of the table, each of the column's kind,
the record of the row fits into a block, and no unique index has the row's key already, unless a part of the key is
NULL. What counts are the rows that are there, not those that were. -/
namespace Rowbase

open Act Database

namespace Bindings

variable {α β : Type} [DecidableEq α]

theorem get?_foldl_insert_eq_some_iff {k : α} {v : β} : ∀ {entries : List (α × β)} {b : Bindings α β},
    (entries.map Prod.fst).Nodup → ((entries.foldl (fun b e => b.insert e.1 e.2) b).get? k = some v ↔
      (k, v) ∈ entries ∨ k ∉ entries.map Prod.fst ∧ b.get? k = some v)
  | [], b, _ => by simp
  | e :: entries, b, h => by
    obtain ⟨hnew, h⟩ := List.nodup_cons.1 h
    rw [List.foldl_cons, get?_foldl_insert_eq_some_iff h, get?_insert, List.mem_cons, List.map_cons, List.mem_cons]
    by_cases hk : k = e.1
    · subst hk
      have hout : (e.1, v) ∉ entries := fun hm => hnew (List.mem_map.2 ⟨_, hm, rfl⟩)
      rw [if_pos rfl]
      constructor
      · rintro (hm | ⟨-, hv⟩)
        · exact absurd hm hout
        · exact .inl (.inl (Prod.ext rfl (Option.some.inj hv).symm))
      · rintro ((he | hm) | ⟨hne, -⟩)
        · exact .inr ⟨hnew, congrArg some (congrArg Prod.snd he).symm⟩
        · exact absurd hm hout
        · exact absurd (.inl rfl) hne
    · have hne : (k, v) ≠ e := fun he => hk (congrArg Prod.fst he)
      simp only [hk, hne, if_false, false_or]

/-- A map that is made of entries with different keys binds each key to its entry's value, and nothing else. -/
theorem get?_ofList_eq_some_iff {k : α} {v : β} {entries : List (α × β)} (h : (entries.map Prod.fst).Nodup) :
    (ofList entries).get? k = some v ↔ (k, v) ∈ entries := by
  rw [ofList, get?_foldl_insert_eq_some_iff h, get?_empty]
  simp

end Bindings

/-! ## What INSERT is given -/

/-- What an expression stands for in a row: a literal what it stands for in a condition, and nothing else anything. -/
inductive Language.Expr.Denotes : Expr → Value → Prop
  | literal {literal : Literal} {v : Value} (hv : literal.Denotes v) : Denotes (.literal literal) v

/-- No key is bound once another is just if none was, and that one is not among them. -/
theorem Row.free_insert_iff {row : Row} {name : String} {v : Value} {names : List String} :
    (∀ name' ∈ names, (row.insert name v).get? name' = none) ↔
      name ∉ names ∧ ∀ name' ∈ names, row.get? name' = none := by
  constructor
  · intro h
    refine ⟨fun hm => ?_, fun name' hm => ?_⟩
    · have hnone := h name hm
      rw [Bindings.get?_insert, if_pos rfl] at hnone
      cases hnone
    · have hnone := h name' hm
      rw [Bindings.get?_insert] at hnone
      split at hnone
      · cases hnone
      · exact hnone
  · rintro ⟨hnew, h⟩ name' hm
    rw [Bindings.get?_insert, if_neg fun (he : name' = name) => hnew (he ▸ hm)]
    exact h name' hm

namespace Catalog

/-- Values are given just to columns that have none yet, each once. -/
theorem giveValues_eq_ok_iff {full : Row} : ∀ {pairs : List (String × Language.Expr)} {row : Row},
    giveValues row pairs = .ok full ↔ (pairs.map Prod.fst).Nodup ∧ (∀ name ∈ pairs.map Prod.fst, row.get? name = none) ∧
      ∃ given, List.Forall₂ Language.Expr.Denotes (pairs.map Prod.snd) given ∧
        full = ((pairs.map Prod.fst).zip given).foldl (fun b e => b.insert e.1 e.2) row
  | [], row => by
    constructor
    · intro h
      cases h
      exact ⟨List.nodup_nil, nofun, [], .nil, rfl⟩
    · rintro ⟨-, -, given, -, rfl⟩
      rfl
  | (name, e) :: pairs, row => by
    constructor
    · intro h
      cases e with
      | literal literal =>
        obtain ⟨v, hv, h⟩ := bind_eq_ok.1 h
        split at h
        · cases h
        · rename_i hfree
          obtain ⟨hnodup, hnone, given, hdenotes, rfl⟩ := giveValues_eq_ok_iff.1 h
          obtain ⟨hnew, hnone⟩ := Row.free_insert_iff.1 hnone
          have hfirst : row.get? name = none := Option.not_isSome_iff_eq_none.1 hfree
          exact ⟨List.nodup_cons.2 ⟨hnew, hnodup⟩, List.forall_mem_cons.2 ⟨hfirst, hnone⟩, v :: given,
            .cons (.literal (Language.Literal.value_eq_ok_iff.1 hv)) hdenotes, rfl⟩
      | column | binary | not | nested => cases h
    · rintro ⟨hnodup, hnone, given, hdenotes, rfl⟩
      obtain ⟨hnew, hdistinct⟩ := List.nodup_cons.1 hnodup
      obtain ⟨hfirst, hothers⟩ := List.forall_mem_cons.1 hnone
      cases hdenotes with
      | cons hv hdenotes =>
        cases hv with
        | literal hv =>
          refine bind_eq_ok.2 ⟨_, hv.value_eq, ?_⟩
          have hfree : ¬ (row.get? name).isSome := Option.not_isSome_iff_eq_none.2 hfirst
          refine (if_neg hfree).trans ?_
          exact giveValues_eq_ok_iff.2 ⟨hdistinct, Row.free_insert_iff.2 ⟨hnew, hothers⟩, _, hdenotes, rfl⟩

end Catalog

/-- Columns and as many literals make a row just if no column is named twice. -/
theorem givenRow_eq_ok_iff {names : List String} {values : List Language.Expr} {row : Row} :
    givenRow names values = .ok row ↔ names.length = values.length ∧ names.Nodup ∧
      ∃ given, List.Forall₂ Language.Expr.Denotes values given ∧ row = .ofList (names.zip given) := by
  rw [givenRow]
  split
  · rename_i hlength
    rw [Catalog.giveValues_eq_ok_iff, List.map_fst_zip (Nat.le_of_eq hlength),
      List.map_snd_zip (Nat.le_of_eq hlength.symm), and_iff_right hlength]
    exact and_congr_right fun _ => and_iff_right fun _ _ => rfl
  · rename_i hlength
    refine iff_of_false (fun h => ?_) fun h => hlength h.1
    cases h

/-! ## Keys -/

/-- The values of a row in the columns of a key. -/
def Row.keyIn (row : Row) (columns : List String) : Key := columns.map fun column => (row.get? column).getD .null

namespace Index

variable {ix : Index} {row : Row} {rows : List (Handle × Row)}

theorem keyOf_eq (h : ∀ column ∈ ix.columns, ∃ v, row.get? column = some v) :
    ix.keyOf row = .ok (row.keyIn ix.columns) := by
  refine mapM_ok fun column hm => ?_
  obtain ⟨v, hv⟩ := h column hm
  rw [Row.value, hv]
  rfl

/-- An index admits a row unless it is unique and another row has the row's key, without a NULL. -/
theorem Exact.admits_iff_key (he : ix.Exact rows)
    (hrows : ∀ e ∈ rows, ∀ column ∈ ix.columns, ∃ v, e.2.get? column = some v)
    (hrow : ∀ column ∈ ix.columns, ∃ v, row.get? column = some v) : ix.Admits row ↔ (ix.unique = true →
      (row.keyIn ix.columns).hasNull = true ∨ ∀ e ∈ rows, e.2.keyIn ix.columns ≠ row.keyIn ix.columns) := by
  have hempty : ix.handles (row.keyIn ix.columns) = [] ↔
      ∀ e ∈ rows, e.2.keyIn ix.columns ≠ row.keyIn ix.columns := by
    rw [he.handles_eq, List.map_eq_nil_iff, List.filter_eq_nil_iff]
    refine forall₂_congr fun e hm => ?_
    rw [hasKey_iff, keyOf_eq (hrows e hm), Except.ok.injEq]
  rw [Admits, keyOf_eq hrow, ← hempty]
  constructor
  · intro h hunique
    by_contra hfree
    obtain ⟨hnull, hne⟩ := not_or.1 hfree
    exact h _ rfl ⟨hunique, Bool.eq_false_iff.2 hnull, hne⟩
  · rintro h key hkey ⟨hunique, hnull, hne⟩
    cases hkey
    rcases h hunique with hnull' | hnil
    · rw [hnull] at hnull'
      cases hnull'
    · exact hne hnil

end Index

/-! ## Which rows are taken -/

/-- Whether values for some columns make a row that can come to a table, by the table's columns, its rows and the
columns of its unique indices. -/
structure Insertable (columns : List Column) (rows : List Row) (uniques : List (List String)) (names : List String)
    (values : List Language.Expr) (given : List Value) : Prop where
  count : values.length = names.length
  literals : List.Forall₂ Language.Expr.Denotes values given
  distinct : names.Nodup
  fits : ∀ e ∈ names.zip given, ∃ column ∈ columns, column.name = e.1 ∧ e.2.kind? = some column.domain.kind
  size : Row.storedSize (.ofList (names.zip given)) columns ≤ 4088
  single : ∀ key ∈ uniques, (Row.keyIn (.ofList (names.zip given)) key).hasNull = true ∨
    ∀ row ∈ rows, row.keyIn key ≠ Row.keyIn (.ofList (names.zip given)) key

theorem Insertable.congr {columns : List Column} {rows : List Row} {uniques uniques' : List (List String)} {names : List String}
    {values : List Language.Expr} {given : List Value} (h : Insertable columns rows uniques names values given) (hu : ∀ key, key ∈ uniques ↔ key ∈ uniques') :
    Insertable columns rows uniques' names values given :=
  ⟨h.count, h.literals, h.distinct, h.fits, h.size, fun key hm => h.single key ((hu key).2 hm)⟩

/-- No literal stands for NULL. -/
theorem Language.Expr.kind?_of_denotes {values : List Expr} {given : List Value}
    (h : List.Forall₂ Expr.Denotes values given) : ∀ v ∈ given, v.kind? ≠ none := by
  induction h with
  | nil => exact nofun
  | cons hv _ ih =>
    cases hv with
    | literal hv => exact List.forall_mem_cons.2 ⟨by cases hv <;> exact nofun, ih⟩

/-- The row that values for different columns make suits a table just if each column is one of the table and has a
value of its kind. -/
theorem Row.suits_iff {columns : List Column} {names : List String} {given : List Value}
    (hcolumns : (columns.map Column.name).Nodup) (hnames : names.Nodup) (hlength : names.length = given.length)
    (hkinds : ∀ v ∈ given, v.kind? ≠ none) : Row.Suits (.ofList (names.zip given)) columns ↔
      ∀ e ∈ names.zip given, ∃ column ∈ columns, column.name = e.1 ∧ e.2.kind? = some column.domain.kind := by
  have hkeys : ((names.zip given).map Prod.fst).Nodup := by
    rwa [List.map_fst_zip (Nat.le_of_eq hlength)]
  have hget : ∀ {name v}, (Bindings.ofList (names.zip given)).get? name = some v ↔ (name, v) ∈ names.zip given :=
    Bindings.get?_ofList_eq_some_iff hkeys
  have haccepts : ∀ {column : Column} {v : Value}, v.kind? ≠ none →
      (column.domain.accepts v = true ↔ v.kind? = some column.domain.kind) := by
    intro column v hv
    obtain ⟨k, hk⟩ := Option.ne_none_iff_exists'.1 hv
    rw [Domain.accepts, hk]
    simp
  constructor
  · rintro ⟨hnamed, haccepted⟩ ⟨name, v⟩ he
    have hbound : name ∈ (Bindings.ofList (names.zip given)).keys := by
      refine by_contra fun hn => ?_
      have hnone := (Bindings.get?_eq_none_iff _ _).2 hn
      rw [hget.2 he] at hnone
      cases hnone
    obtain ⟨column, hm, rfl⟩ := List.mem_map.1 (hnamed name hbound)
    exact ⟨column, hm, rfl, (haccepts (hkinds v (List.of_mem_zip he).2)).1 (haccepted column hm v (hget.2 he))⟩
  · intro h
    refine ⟨fun name hm => ?_, fun column hm v hv => ?_⟩
    · obtain ⟨v, hv⟩ := Option.ne_none_iff_exists'.1 fun hnone => (Bindings.get?_eq_none_iff _ _).1 hnone hm
      obtain ⟨column, hcolumn, rfl, -⟩ := h _ (hget.1 hv)
      exact List.mem_map_of_mem hcolumn
    · obtain ⟨column', hm', hname, hkind⟩ := h _ (hget.1 hv)
      cases List.inj_on_of_nodup_map hcolumns hm' hm hname
      have hne : v.kind? ≠ none := by
        rw [hkind]
        exact Option.some_ne_none _
      exact (haccepts hne).2 hkind

theorem Row.keyIn_filled {columns : List Column} {row : Row} {key : List String}
    (h : ∀ name ∈ key, name ∈ columns.map Column.name) : (Row.filled columns row).keyIn key = row.keyIn key := by
  refine List.map_congr_left fun name hm => ?_
  rw [Row.get?_filled, if_pos (h name hm), Option.getD_some]

namespace Database

variable {l : Location} {sites : Sites} {c : Catalog} {fs : Files} {d d' : Database} {t : String} {ct : Content}
  {names : Option (List String)} {values : List Language.Expr} {row : Row}

/-- The columns of the unique indices of a table. -/
def uniques (d : Database) (t : String) : List (List String) :=
  ((d.indexNames t).filter fun i => (d.definition t i).2).map fun i => (d.definition t i).1

theorem mem_uniques {key : List String} :
    key ∈ d.uniques t ↔ ∃ i ∈ d.indexNames t, d.definition t i = (key, true) := by
  simp only [uniques, List.mem_map, List.mem_filter, Prod.ext_iff]
  exact ⟨fun ⟨i, ⟨hi, hu⟩, hk⟩ => ⟨i, hi, hk, hu⟩, fun ⟨i, hi, hk, hu⟩ => ⟨i, ⟨hi, hu⟩, hk⟩⟩

/-- All indices of a table admit a row just if none of the unique ones has its key already, without a NULL. -/
theorem admit_iff (h : Models l sites c fs d) (hd : d.Sound l sites) (hc : d.table t = some ct) (row : Row) :
    Models.Admit d t (Row.filled ct.columns row) (d.indexNames t) ↔ ∀ key ∈ d.uniques t,
      (row.keyIn key).hasNull = true ∨ ∀ row' ∈ ct.rows.live.map Prod.snd, row'.keyIn key ≠ row.keyIn key := by
  have hindex : ∀ i ix, d.index t i = some ix → (ix.Admits (Row.filled ct.columns row) ↔
      ((d.definition t i).2 = true → (row.keyIn (d.definition t i).1).hasNull = true ∨
        ∀ row' ∈ ct.rows.live.map Prod.snd, row'.keyIn (d.definition t i).1 ≠ row.keyIn (d.definition t i).1)) := by
    intro i ix hx
    obtain ⟨ct', hc', hstands⟩ := hd.regular.stands t i ix hx
    rw [hc] at hc'
    cases hc'
    have hrow : ∀ column ∈ ix.columns, ∃ v, (Row.filled ct.columns row).get? column = some v := fun column hm =>
      ⟨_, (Row.get?_filled _ _ _).trans (if_pos (hstands.covered column hm))⟩
    have hrows : ∀ e ∈ ct.rows.live, ∀ column ∈ ix.columns, ∃ v, e.2.get? column = some v := by
      intro e he column hm
      obtain ⟨v, hv, -⟩ := h.stored_row (hd.regular.content_eq hc) he column (hstands.covered column hm)
      exact ⟨v, hv⟩
    rw [(hd.exact_of_table hc hx).admits_iff_key hrows hrow, hstands.definition, Row.keyIn_filled hstands.covered,
      List.forall_mem_map]
  constructor
  · intro htaken key hm
    obtain ⟨i, hi, hdef⟩ := mem_uniques.1 hm
    obtain ⟨ix, -, hx, -, -⟩ := hd.regular.index_of_mem hi
    have hkey := (hindex i ix hx).1 (htaken i hi ix hx)
    rw [hdef] at hkey
    exact hkey rfl
  · intro huniques i hi ix hx
    refine (hindex i ix hx).2 fun hunique => huniques _ (mem_uniques.2 ⟨i, hi, Prod.ext rfl hunique⟩)

/-- What a table takes is what can come to it. -/
theorem takes_iff (h : Models l sites c fs d) (hd : d.Sound l sites) (hc : d.table t = some ct)
    (hnodup : (ct.columns.map Column.name).Nodup) (hnull : ∀ column ∈ ct.columns, column.domain.nullable = true) :
    d.Takes t names values row ↔ ∃ given, Insertable ct.columns (ct.rows.live.map Prod.snd) (d.uniques t)
      (names.getD (ct.columns.map Column.name)) values given ∧
      row = .ofList ((names.getD (ct.columns.map Column.name)).zip given) := by
  have hrecord : ∀ row : Row, ct.Takes t row ↔
      row.Suits ct.columns ∧ row.storedSize ct.columns ≤ Heap.maxRecordSize := fun row =>
    Relation.exists_record_iff (r := Relation.describe t ct.columns "") hnull
  constructor
  · rintro ⟨ct', hc', hgiven, htakes, htaken⟩
    rw [hc] at hc'
    cases hc'
    obtain ⟨hlength, hnames, given, hdenotes, rfl⟩ := givenRow_eq_ok_iff.1 hgiven
    obtain ⟨hsuits, hsize⟩ := (hrecord _).1 htakes
    have hkinds := Language.Expr.kind?_of_denotes hdenotes
    exact ⟨given, ⟨hlength.symm, hdenotes, hnames,
      (Row.suits_iff hnodup hnames (hlength.trans hdenotes.length_eq) hkinds).1 hsuits, hsize,
      (admit_iff h hd hc _).1 htaken⟩, rfl⟩
  · rintro ⟨given, hi, rfl⟩
    have hkinds := Language.Expr.kind?_of_denotes hi.literals
    have hsuits := (Row.suits_iff hnodup hi.distinct (hi.count.symm.trans hi.literals.length_eq) hkinds).2 hi.fits
    exact ⟨ct, hc, givenRow_eq_ok_iff.2 ⟨hi.count.symm, hi.distinct, given, hi.literals, rfl⟩,
      (hrecord _).2 ⟨hsuits, hi.size⟩, (admit_iff h hd hc _).2 hi.single⟩

end Database

/-! ## After any run -/

namespace Session

variable {l : Location} {sites : Sites} {s : Session} {c : Catalog} {fs fs' before : Files} {d : Database}
  {t : String} {ct : Content} {columns : List Column} {rows : List Row} {uniques : List (List String)}
  {names : Option (List String)} {values : List Language.Expr} {given : List Value}
  {statements : List Language.Statement}

/-- Whether a table of the user's is listed in a session, with some columns, rows and columns of unique indices. -/
structure Offers (state : Session × Files) (t : String) (columns : List Column) (rows : List Row)
    (uniques : List (List String)) : Prop where
  own : t ∉ Schema.names
  listed : sees state (Catalog.tableExists t) = .ok true
  described : sees state (Catalog.columnsOf t) = .ok columns
  selected : ((execute (.select .all t none)).apply state.1 state.2).1 = .ok (Catalog.answerRows columns rows)
  unique_iff : ∀ key, key ∈ uniques ↔ ∃ names, sees state (Catalog.indexNames t) = .ok names ∧
    ∃ i ∈ names, sees state (Catalog.indexDefinition t i) = .ok (key, true)

/-- What a session sees of unique indices is what there is. -/
theorem Opens.unique_iff (h : Opens l sites d s fs c fs') {key : List String} :
    (∃ names, sees (s, fs) (Catalog.indexNames t) = .ok names ∧
      ∃ i ∈ names, sees (s, fs) (Catalog.indexDefinition t i) = .ok (key, true)) ↔ key ∈ d.uniques t := by
  simp only [sees_of_opened h.opened, h.models.value_indexNames, h.models.value_indexDefinition, mem_uniques,
    Except.ok.injEq, exists_eq_left']

theorem Opens.listed_iff (h : Opens l sites d s fs c fs') :
    sees (s, fs) (Catalog.tableExists t) = .ok true ↔ ∃ ct, d.content t = some ct := by
  rw [sees_of_opened h.opened, value_tableExists h.models, ← h.sound.regular.listed_iff, Except.ok.injEq,
    Bool.not_eq_true', List.isEmpty_eq_false_iff]

/-- The columns of a table of the user's are those that the catalog says. They have different names and can be NULL. -/
theorem Opens.columns_of_table (h : Opens l sites d s fs c fs') (hc : d.table t = some ct) :
    d.columnsOf t = ct.columns ∧ (ct.columns.map Column.name).Nodup ∧
      ∀ column ∈ ct.columns, column.domain.nullable = true := by
  have hcolumns : d.columnsOf t = ct.columns := by
    rw [h.sound.regular.columns t (h.sound.regular.not_mem_of_table hc), hc]
    rfl
  refine ⟨hcolumns, ?_, fun column hm => ?_⟩
  · rw [← hcolumns, names_columnsOf]
    exact h.coherent.columns_nodup t
  · rw [← hcolumns] at hm
    obtain ⟨e, -, rfl⟩ := List.mem_map.1 hm
    rfl

/-- SELECT of all columns without a condition answers with all rows of a table. -/
theorem Opens.select_all (h : Opens l sites d s fs c fs') (hc : d.table t = some ct) :
    ((Session.execute (.select .all t none)).apply s fs).1 =
      .ok (Catalog.answerRows ct.columns (ct.rows.live.map Prod.snd)) := by
  have hcontent := h.sound.regular.content_eq hc
  obtain ⟨hcolumns, hnodup, -⟩ := h.columns_of_table hc
  have hagreeable : Agreeable ct.columns [] := ⟨nofun, nofun⟩
  have hpicks : Language.Selection.Picks ct.columns .all ct.columns := rfl
  have hdemands : Language.Demands none [] := rfl
  have hselect := h.models.select_demands h.sound hcontent hcolumns hnodup hpicks hdemands hagreeable
  have hall : (ct.rows.live.filter fun e => e.2.solves []) = ct.rows.live := List.filter_eq_self.2 fun _ _ => rfl
  rw [apply_execute h.opened]
  refine hselect.trans (congrArg (fun rows => Except.ok (Catalog.answerRows ct.columns rows)) ?_)
  rw [hall]
  exact List.map_congr_left fun e he => (h.models.stored t ct hcontent).2.cut_eq he

/-- Every table of the user's that is there is offered. -/
theorem Opens.offers (h : Opens l sites d s fs c fs') (hc : d.table t = some ct) :
    Offers (s, fs) t ct.columns (ct.rows.live.map Prod.snd) (d.uniques t) := by
  have hn := h.sound.regular.not_mem_of_table hc
  refine ⟨hn, h.listed_iff.2 ⟨ct, h.sound.regular.content_eq hc⟩, ?_, h.select_all hc,
    fun key => h.unique_iff.symm⟩
  rw [sees_of_opened h.opened, h.models.value_columnsOf, (h.columns_of_table hc).1]

/-- What is offered is a table that is there. -/
theorem Opens.of_offers (h : Opens l sites d s fs c fs') (ho : Offers (s, fs) t columns rows uniques) :
    ∃ ct, d.table t = some ct ∧ columns = ct.columns ∧ rows = ct.rows.live.map Prod.snd ∧
      ∀ key, key ∈ uniques ↔ key ∈ d.uniques t := by
  obtain ⟨ct, hc⟩ := h.listed_iff.1 ho.listed
  rw [content_of_not_mem ho.own] at hc
  have hselect := h.select_all hc
  rw [ho.selected] at hselect
  have htable := congrArg Answer.table (Except.ok.inj hselect)
  have hcolumns := ho.described
  rw [sees_of_opened h.opened, h.models.value_columnsOf, (h.columns_of_table hc).1] at hcolumns
  exact ⟨ct, hc, (Except.ok.inj hcolumns).symm, congrArg Table.rows (Option.some.inj htable),
    fun key => (ho.unique_iff key).trans h.unique_iff⟩

/-- After any run INSERT succeeds just if its table is a listed one of the user's and its values can come there. The
rows are then those before and the new one, which has NULL in the columns that are not named. -/
theorem insertable_run (h : l.Fits sites before statements) (hrun : run statements (⟨l, none⟩, before) = (s, fs))
    (t : String) (names : Option (List String)) (values : List Language.Expr) :
    (t ∉ Schema.names → sees (s, fs) (Catalog.tableExists t) = .ok true →
      ∃ columns rows uniques, Offers (s, fs) t columns rows uniques) ∧
    ((execute (.insert t names values)).Succeeds s fs ↔ ∃ columns rows uniques given,
      Offers (s, fs) t columns rows uniques ∧
      Insertable columns rows uniques (names.getD (columns.map Column.name)) values given) ∧
    ∀ columns rows uniques given, Offers (s, fs) t columns rows uniques →
      Insertable columns rows uniques (names.getD (columns.map Column.name)) values given →
      ∀ s' fs', ((execute (.insert t names values)).apply s fs).2 = (s', fs') →
        ((execute (.select .all t none)).apply s' fs').1 = .ok (Catalog.answerRows columns (rows ++
          [Row.filled columns (.ofList ((names.getD (columns.map Column.name)).zip given))])) := by
  obtain ⟨d, c, fs', hopens⟩ := opens_run h
  rw [hrun] at hopens
  have htakes : ∀ {ct row}, d.table t = some ct → (d.Takes t names values row ↔ _) := fun hc =>
    takes_iff hopens.models hopens.sound hc (hopens.columns_of_table hc).2.1 (hopens.columns_of_table hc).2.2
  have hsettles : Settles l sites d (Catalog.insert t names values) c fs' (∃ row, d.Takes t names values row) _ :=
    settles_insert hopens.models hopens.sound
  have hsucceeds := hopens.succeeds_iff (.insert t names values) hsettles
  refine ⟨fun hn hlisted => ?_, hsucceeds.trans ⟨?_, ?_⟩, fun columns rows uniques given ho hi s' fs₁ hx => ?_⟩
  · obtain ⟨ct, hc⟩ := hopens.listed_iff.1 hlisted
    rw [content_of_not_mem hn] at hc
    exact ⟨_, _, _, hopens.offers hc⟩
  · rintro ⟨row, ct, hc, hgiven, haccepts⟩
    obtain ⟨given, hi, -⟩ := (htakes hc).1 ⟨ct, hc, hgiven, haccepts⟩
    exact ⟨_, _, _, given, hopens.offers hc, hi⟩
  · rintro ⟨columns, rows, uniques, given, ho, hi⟩
    obtain ⟨ct, hc, rfl, rfl, huniques⟩ := hopens.of_offers ho
    exact ⟨_, (htakes hc).2 ⟨given, hi.congr huniques, rfl⟩⟩
  · obtain ⟨ct, hc, rfl, rfl, huniques⟩ := hopens.of_offers ho
    obtain ⟨s₁, fs₁, c₁, d₁, hx₁, h₁, ct', handle, hc', hlike, hlive⟩ :=
      hopens.insert ((htakes hc).2 ⟨given, hi.congr huniques, rfl⟩)
    rw [hc] at hc'
    cases hc'
    cases hx₁.symm.trans hx
    obtain ⟨ct₁, hc₁, hcolumns⟩ := hlike.table_some hc
    have hrows : ct₁.rows.live = _ := (live_of_table hc₁).symm.trans (hlive t)
    rw [h₁.select_all hc₁, hrows, if_pos rfl, live_of_table hc, hcolumns,
      List.map_append]
    rfl

/-- A number for the first column of the table with two indices. -/
def numberedRow : Row := .ofList [("a", .integer 2), ("b", .null)]

/-- In the table with two indices there is room for another number without a name, but not for the same one with
another name. -/
theorem insertable_run_taken : ∃ s fs, Location.Fits {} (.of taken) (.fresh ["home"]) taken ∧
    run taken (⟨{}, none⟩, .fresh ["home"]) = (s, fs) ∧
    (execute (.insert "t" (some ["a"]) [.literal (.integer 2)])).Succeeds s fs ∧
    ¬ (execute (.insert "t" none [.literal (.integer 1), .literal (.text "y")])).Succeeds s fs ∧
    ∀ s' fs', ((execute (.insert "t" (some ["a"]) [.literal (.integer 2)])).apply s fs).2 = (s', fs') →
      ((execute (.select .all "t" none)).apply s' fs').1 =
        .ok (Catalog.answerRows takenColumns [takenRow, numberedRow]) := by
  obtain ⟨d, s, fs, c, ct, handle, hrun, hopens, hc, hcols, hrows, hi, hj, hnames⟩ := opens_taken_listed
  have huniques : ∀ key, key ∈ [["a"]] ↔ key ∈ d.uniques "t" := by
    intro key
    simp only [mem_uniques, hnames, List.mem_cons, List.not_mem_nil, or_false]
    constructor
    · rintro rfl
      exact ⟨"j", .inr rfl, hj⟩
    · rintro ⟨i, rfl | rfl, hdef⟩
      · rw [hi] at hdef
        cases hdef
      · rw [hj] at hdef
        cases hdef
        rfl
  have hlive : ct.rows.live.map Prod.snd = [takenRow] := congrArg (List.map Prod.snd) hrows
  have hoffers : Offers (s, fs) "t" takenColumns [takenRow] [["a"]] := by
    have ho := hopens.offers hc
    rw [hcols, hlive] at ho
    exact ⟨ho.own, ho.listed, ho.described, ho.selected, fun key => (huniques key).trans (ho.unique_iff key)⟩
  have hdenotes : Language.Expr.Denotes (.literal (.integer 2)) (.integer 2) :=
    .literal (Language.Literal.value_eq_ok_iff.1 (by decide))
  have hinsertable : Insertable takenColumns [takenRow] [["a"]] ["a"] [.literal (.integer 2)] [.integer 2] :=
    ⟨rfl, .cons hdenotes .nil, List.nodup_singleton _, by decide, by decide, by decide⟩
  obtain ⟨-, hsucceeds, hselect⟩ := insertable_run fits_taken hrun "t" (some ["a"]) [.literal (.integer 2)]
  obtain ⟨-, hrefused, -⟩ :=
    insertable_run fits_taken hrun "t" none [.literal (.integer 1), .literal (.text "y")]
  have hnumbered : Row.filled takenColumns (.ofList (["a"].zip [.integer 2])) = numberedRow := by decide
  have hafter := hselect _ _ _ _ hoffers hinsertable
  rw [Option.getD_some, hnumbered] at hafter
  refine ⟨s, fs, fits_taken, hrun, hsucceeds.2 ⟨_, _, _, _, hoffers, hinsertable⟩, fun hok => ?_, hafter⟩
  obtain ⟨columns, rows, uniques, given, ho, hinsert⟩ := hrefused.1 hok
  obtain ⟨ct', hc', rfl, rfl, hu⟩ := hopens.of_offers ho
  rw [hc] at hc'
  cases hc'
  rw [hcols, hlive] at hinsert
  have hsingle := hinsert.single ["a"] ((hu _).2 ((huniques _).1 (.head _)))
  cases hinsert.literals with
  | cons hfirst hrest =>
    cases hfirst with
    | literal hfirst =>
      cases hfirst.value_eq
      cases hrest with
      | cons hsecond hrest =>
        cases hsecond with
        | literal hsecond =>
          cases hsecond.value_eq
          cases hrest
          revert hsingle
          decide

end Session

end Rowbase
