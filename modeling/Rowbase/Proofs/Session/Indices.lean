import Rowbase.Proofs.Database.Listing
import Rowbase.Proofs.Database.Rolls
import Rowbase.Proofs.Session.Outcome

/-! # Making and dropping indices

An index that is dropped goes with its file and then with its entries. An index that cannot be made is
dropped as well: this leaves nothing behind, unless the file system refuses to remove its file. -/
namespace Rowbase

open Database Act

/-! ## Rows cut down to some columns -/

/-- The row with NULL for what is not bound, cut down to some columns; none at all stands for every one. -/
def Row.cut (row : Row) : List String → Row
  | [] => row
  | names => .ofList (names.map fun name => (name, (row.get? name).getD .null))

theorem Row.restrict_of_bound {row : Row} (owner : String) {names : List String}
    (h : ∀ name ∈ names, ∃ v, row.get? name = some v) : row.restrict owner names = .ok (row.cut names) := by
  cases names with
  | nil => rfl
  | cons name names =>
    have hv : row.valuesOf owner (name :: names) =
        .ok ((name :: names).map fun name => (row.get? name).getD .null) := by
      refine mapM_ok fun name hm => ?_
      obtain ⟨v, hv⟩ := h name hm
      rw [Row.value, hv]
      rfl
    rw [Row.restrict, hv]
    change Except.ok (Bindings.ofList ((name :: names).zip _)) = _
    rw [List.zip_map_right, List.zip_eq_zipWith, List.zipWith_self, List.map_map]
    rfl
    exact List.cons_ne_nil _ _

theorem Row.get?_cut {row : Row} {names : List String} (h : ∀ name ∈ names, ∃ v, row.get? name = some v)
    {name : String} (hm : name ∈ names) : (row.cut names).get? name = row.get? name := by
  cases names with
  | nil => rfl
  | cons first names =>
    rw [Row.cut, Bindings.get?_ofList_map, if_pos hm]
    · obtain ⟨v, hv⟩ := h name hm
      rw [hv]
      rfl
    · nofun

/-- DROP INDEX, step by step. -/
theorem Catalog.dropIndex_eq (i t : String) : dropIndex i t = (do
    let handles ← (indexHandles t i).adapt Refusal.storage
    if handles.isEmpty then throw (.indexMissing i t) else do
      (removeIndex t i).adapt Refusal.storage
      handles.forM fun h => (onIndices (Relation.delete h)).adapt Refusal.storage
      return .ofMessage s!"dropped index {i} from {t}") := rfl

namespace Models

variable {l : Location} {sites : Sites} {c : Catalog} {fs : Files} {d : Database} {t i : String}
  {ct : Content} {columns : List String}

/-! ## Dropping -/

theorem ascending_indices (h : Models l sites c fs d) : d.indices.Ascending :=
  ascending_roll (roll_indices d) h

/-- The entries about an index that is gone are cleared. -/
theorem clearIndex (h : Models l sites c fs (d.setIndex t i none)) :
    ∃ c' fs', (((d.indexEntries t i).map Prod.fst).forM fun handle =>
        (Catalog.onIndices (Relation.delete handle)).adapt Refusal.storage).apply c fs = (.ok (), c', fs') ∧
      c.KeepsTables c' ∧ Models l sites c' fs' (d.withoutIndex t i) := by
  obtain ⟨c', fs', hx, hk, h', -⟩ := h.deleteMeeting (roll_indices (d.setIndex t i none))
    fun e => decide (e.2.table = t ∧ e.2.index = i)
  refine ⟨c', fs', ?_, hk, h'⟩
  rw [apply_forM_adapt, apply_adapt]
  exact congrArg (fun r => (r.1.mapError Refusal.storage, r.2)) hx

/-- Dropping an index fails if there are no entries about it or the file system refuses to remove its
file. -/
theorem dropIndex (h : Models l sites c fs d) (hs : d.indexEntries t i ≠ [] → sites.Allows t i)
    (hfound : (∃ ix, d.index t i = some ix ∧ ix.path = l.indexPath t i) ∨ d.index t i = none) :
    (d.indexEntries t i = [] ∧ ∃ e c', Models l sites c' fs d ∧
      (Catalog.dropIndex i t).apply c fs = (.error e, c', fs)) ∨
    (d.indexEntries t i ≠ [] ∧ ∃ fault ix c', fault ≠ .notFound ∧
      fs.remove (l.indexPath t i) = .error fault ∧ Models l sites c' fs (d.setIndex t i (some ix)) ∧
      (Catalog.dropIndex i t).apply c fs = (.error (.storage (.file fault)), c', fs)) ∨
    (d.indexEntries t i ≠ [] ∧ (∀ fault, fs.remove (l.indexPath t i) = .error fault → fault = .notFound) ∧
      ∃ a c' fs', Models l sites c' fs' (d.withoutIndex t i) ∧
        (Catalog.dropIndex i t).apply c fs = (.ok a, c', fs')) := by
  obtain ⟨c₁, h₁, hlook⟩ := (looks_indexHandles t i).known h (h.value_indexHandles t i) Refusal.storage
  rw [Catalog.dropIndex_eq, hlook]
  by_cases hnil : d.indexEntries t i = []
  · rw [hnil]
    exact .inl ⟨rfl, _, c₁, h₁, rfl⟩
  · have hempty : ¬ ((d.indexEntries t i).map Prod.fst).isEmpty = true := by
      rwa [List.isEmpty_iff, List.map_eq_nil_iff]
    rw [if_neg hempty]
    obtain ⟨ix, hfound, hp⟩ : ∃ ix, Usable l d t i ix ∧ ix.path = l.indexPath t i := by
      rcases hfound with ⟨ix, hx, hp⟩ | hx
      · exact ⟨ix, .inl hx, hp⟩
      · exact ⟨_, .inr ⟨hx, mt definition_eq_nil.1 hnil, rfl⟩, rfl⟩
    rcases h₁.removeIndex (hs hnil) hfound hp with ⟨fault, ix', c₂, hfault, hr, hx, h₂⟩ | ⟨c₂, fs₂, hr, hx, h₂⟩
    · have hremove : ((Catalog.removeIndex t i).adapt Refusal.storage).apply c₁ fs =
          (.error (.storage (.file fault)), c₂, fs) := by
        rw [apply_adapt, hx]
        rfl
      exact .inr (.inl ⟨hnil, fault, ix', c₂, hfault, hr, h₂, apply_bind_error hremove _⟩)
    · have hremove : ((Catalog.removeIndex t i).adapt Refusal.storage).apply c₁ fs = (.ok (), c₂, fs₂) := by
        rw [apply_adapt, hx]
        rfl
      obtain ⟨c', fs', hrows, -, h'⟩ := clearIndex h₂
      refine .inr (.inr ⟨hnil, hr, .ofMessage s!"dropped index {i} from {t}", c', fs', h', ?_⟩)
      rw [apply_bind_ok hremove, apply_bind_ok hrows]
      rfl

end Models

section
variable {l : Location} {sites : Sites} {c : Catalog} {fs : Files} {d : Database} {t i : String}

/-- DROP INDEX takes an index away with its entries. -/
theorem settles_dropIndex (h : Models l sites c fs d) (hd : d.Sound l sites) :
    Settles l sites d (Catalog.dropIndex i t) c fs (d.index t i ≠ none) (· = d.withoutIndex t i) := by
  have hstands : ∀ ix, d.index t i = some ix → ix.path = l.indexPath t i ∧ .index t i ∈ sites := by
    intro ix hx
    obtain ⟨ct, -, hs⟩ := hd.regular.stands t i ix hx
    exact ⟨hs.path_eq, hs.site⟩
  have hfound : (∃ ix, d.index t i = some ix ∧ ix.path = l.indexPath t i) ∨ d.index t i = none := by
    cases hx : d.index t i with
    | none => exact .inr rfl
    | some ix => exact .inl ⟨ix, rfl, (hstands ix hx).1⟩
  have hallows : d.indexEntries t i ≠ [] → sites.Allows t i := fun hne _ =>
    have ⟨ix, hx⟩ := hd.regular.exists_index hne
    (hstands ix hx).2
  rcases h.dropIndex hallows hfound with
    ⟨hnil, e, c', h', hx⟩ | ⟨hne, fault, ix, c', hfault, hr, -⟩ | ⟨hne, -, a, c', fs', h', hx⟩
  · exact .refused (fun hc => (hd.regular.indexed t i).2 hc hnil) hx h' hd (.refl d)
  · obtain ⟨ix, hix⟩ := hd.regular.exists_index hne
    exact absurd (h.apart.remove_error (hstands ix hix).2 hr) hfault
  · exact .done ((hd.regular.indexed t i).1 hne) hx h' (hd.withoutIndex h.ascending_indices t i) rfl

end

/-! ## Making -/

/-- The rows of a table with their handles, cut down to some columns. -/
def Catalog.keyedRows (t : String) (columns : List String) : Act StorageError Catalog (List (Handle × Row)) := do
  let handles ← onRelation t (Relation.select none)
  handles.mapM fun h => do return (h, ← onRelation t (Relation.project h columns))

/-- What is done before an index is made. -/
theorem Catalog.makeIndex_eq (i t : String) (columns : List String) (kind : Language.IndexKind) :
    makeIndex i t columns kind = (do
      (columns.zipIdx 1).forM fun b =>
        discard (onRelation Schema.indices (Relation.insert (IndexEntry.atPlace t i kind b).row))
      let entries ← keyedRows t columns
      onIndex t i (Index.create entries)) := by
  rw [keyedRows]
  simp only [bind_assoc]
  rfl

namespace Database

variable {l : Location} {sites : Sites} {d : Database} {fs : Files} {t i : String} {ct : Content}
  {columns : List String} {kind : Language.IndexKind}

/-- Whether something stands in the way of an index: an entry about it makes no record, or the index itself is
blocked. -/
def Hindered (l : Location) (sites : Sites) (fs : Files) (t i : String) (columns : List String)
    (kind : Language.IndexKind) (ct : Content) : Prop :=
  columns = [] ∨
  (∃ b ∈ columns.zipIdx 1, ¬ Schema.Records Schema.indices (IndexEntry.atPlace t i kind b).row) ∨
  ∃ (ix : Index) (fs₁ : Files), fs.SameTree fs₁ ∧ Files.Apart l sites fs₁ ∧ ix.path = l.indexPath t i ∧
    ix.Blocked fs₁ (ct.rows.live.map fun e => (e.1, e.2.cut columns))

/-- Nothing stands in the way of an index of no rows, if its entries make records and its place is free. -/
theorem not_hindered (hs : .index t i ∈ sites) (hne : columns ≠ [])
    (hrec : ∀ b ∈ columns.zipIdx 1, Schema.Records Schema.indices (IndexEntry.atPlace t i kind b).row)
    (hfree : fs.exists? (l.indexPath t i) = false) (hrows : ct.rows.live = []) :
    ¬ Hindered l sites fs t i columns kind ct := by
  rintro (hnil | ⟨b, hb, hnot⟩ | ⟨ix, fs₁, htree, hapart, hp, hexists | hsep | ⟨data, e, hw⟩⟩)
  · exact hne hnil
  · exact hnot (hrec b hb)
  · rw [hp, htree.exists?, hfree] at hexists
    cases hexists
  · rw [hrows] at hsep
    exact hsep ⟨{ ix with map := ∅ }, ⟨rfl, rfl, rfl, rfl, rfl⟩, Index.exact_empty rfl⟩
  · obtain ⟨fs', hok, -⟩ := hapart.write (b := data) hs
    rw [hp] at hw
    exact nomatch hw.symm.trans hok

theorem mem_definition {column : String} (h : column ∈ (d.definition t i).1) :
    ∃ e ∈ d.indexEntries t i, e.2.column = column := by
  rw [definition] at h
  obtain ⟨part, hp, rfl⟩ := List.mem_map.1 h
  obtain ⟨e, he, rfl⟩ := List.mem_map.1 (List.mem_mergeSort.1 hp)
  exact ⟨e, he, rfl⟩

end Database

namespace Models

variable {l : Location} {sites : Sites} {c : Catalog} {fs : Files} {d : Database} {t i : String}
  {ct : Content} {columns : List String}

theorem looks_keyedRows (hd : d.Described) (t : String) (columns : List String) :
    Looks l sites d (Catalog.keyedRows t columns) :=
  (looks_onRelation hd (Relation.reads_select none)).bind fun handles => looks_mapM (fun handle =>
    (looks_onRelation hd (Relation.reads_project handle columns)).bind fun _ => looks_pure _) handles

theorem value_keyedRows_bind (t : String) (columns : List String) (c : Catalog) (fs : Files) :
    (Catalog.keyedRows t columns).value c fs =
      (Catalog.onRelation t (Relation.select none)).value c fs >>= fun handles =>
        handles.mapM fun handle => (do
          return (handle, ← Catalog.onRelation t (Relation.project handle columns)) :
            Act StorageError Catalog (Handle × Row)).value c fs := by
  have hrow : ∀ handle, Reads Catalog.view (do
      return (handle, ← Catalog.onRelation t (Relation.project handle columns)) :
        Act StorageError Catalog (Handle × Row)) := fun handle =>
    (Catalog.reads_onRelation t (Relation.reads_project handle columns)).bind fun _ => reads_pure _
  rw [Catalog.keyedRows, (Catalog.reads_onRelation t (Relation.reads_select none)).value_bind
    fun handles => reads_mapM hrow handles]
  congr 1
  funext handles
  exact value_mapM hrow c fs handles

/-- The rows of a relation are read as they are stored. -/
theorem value_keyedRows (h : Models l sites c fs d) (hd : d.Described) (hc : d.content t = some ct)
    (hcols : ∀ name ∈ columns, name ∈ ct.columns.map Column.name) :
    (Catalog.keyedRows t columns).value c fs = .ok (ct.rows.live.map fun e => (e.1, e.2.cut columns)) := by
  obtain ⟨r, hr, hv⟩ := h.value_onRelation hd hc
  rw [value_keyedRows_bind, hv, hr.lists.select]
  refine (mapM_map _ _ _).trans (mapM_ok fun e he => ?_)
  have hread : Looks l sites d (Catalog.onRelation t (Relation.project e.1 columns)) :=
    looks_onRelation hd (Relation.reads_project e.1 columns)
  rw [hread.reads.value_bind fun _ => reads_pure _, hv, hr.value_project he, Row.restrict_of_bound]
  · rfl
  · intro name hm
    obtain ⟨v, hv, -⟩ := hr.stored he name (hcols name hm)
    exact ⟨v, hv⟩

theorem value_keyedRows_none (h : Models l sites c fs d) (hd : d.Described) (hc : d.content t = none) :
    (Catalog.keyedRows t columns).value c fs = .error (.relation (.relationMissing t)) := by
  rw [value_keyedRows_bind, h.value_onRelation_none hd hc]
  rfl

/-- The entries about an index come one after the other, up to the first that makes no record. -/
theorem recordIndex (h : Models l sites c fs d) (hnone : d.index t i = none) (columns : List String)
    (kind : Language.IndexKind) :
    ∃ res c' fs' new, ((columns.zipIdx 1).forM fun b => discard (Catalog.onRelation Schema.indices
        (Relation.insert (IndexEntry.atPlace t i kind b).row))).apply c fs = (res, c', fs') ∧
      fs.SameTree fs' ∧ Models l sites c' fs' (d.withIndex t i new none) ∧
      (∀ e ∈ new, e.2.table = t ∧ e.2.index = i) ∧
      (new ≠ [] ↔ ∃ column ∈ columns.head?,
        Schema.Records Schema.indices (Schema.indexRow t i 1 column kind)) ∧
      ((∃ e, res = .error e) ∧
          (∃ b ∈ columns.zipIdx 1, ¬ Schema.Records Schema.indices (IndexEntry.atPlace t i kind b).row) ∨
        res = .ok () ∧ new.map Prod.snd = (columns.zipIdx 1).map (IndexEntry.atPlace t i kind)) := by
  obtain ⟨res, c₁, fs₁, new, hx, -, htree, h₁, hpre, hfirst, hres⟩ :=
    insertEntries (roll_indices d) (IndexEntry.atPlace t i kind) (columns.zipIdx 1) d.indices c fs h
  have hlisted : ({ d with indices := d.indices ++ Tape.ofLive new } : Database).index t i = none := hnone
  have hself := setIndex_self hlisted
  rw [← hself] at h₁
  refine ⟨res, c₁, fs₁, new, hx, htree, h₁, fun e he => ?_, ?_, hres.imp_right fun ⟨hok, _, hall⟩ => ⟨hok, hall⟩⟩
  · obtain ⟨b, -, heq⟩ := List.mem_map.1 (hpre.subset (List.mem_map_of_mem he))
    rw [← heq]
    exact ⟨rfl, rfl⟩
  · rw [hfirst]
    cases columns with
    | nil => exact iff_of_false nofun nofun
    | cons first rest =>
      refine ⟨fun ⟨b, hb, hrec⟩ => ⟨first, rfl, ?_⟩, fun ⟨column, hcol, hrec⟩ => ⟨(first, 1), rfl, ?_⟩⟩
      · cases hb
        exact hrec
      · cases hcol
        exact hrec

/-- An index that is made of the rows of its table, cut down to its columns, has just these rows and stands as it is
described. -/
theorem stands_of_described {new : List (Handle × IndexEntry)} {ix : Index} {kind : Language.IndexKind}
    (h : Models l sites c fs d) (hn : t ∉ Schema.names) (hc : d.table t = some ct)
    (hnil : d.indexEntries t i = []) (hcols : ∀ name ∈ columns, name ∈ ct.columns.map Column.name)
    (hall : new.map Prod.snd = (columns.zipIdx 1).map (IndexEntry.atPlace t i kind))
    (halike : (describedIndex l (d.withIndex t i new none) t i).Alike ix) (hl : ix.loaded = true)
    (hexact : ix.Exact (ct.rows.live.map fun e => (e.1, e.2.cut columns))) :
    ix.Exact ct.rows.live ∧
      (.index t i ∈ sites → ix.Stands l sites (d.withIndex t i new (some ix)) t i ct) := by
  -- the columns of the index are those that were given, in whatever order they are read
  have hcovered : ∀ column ∈ ix.columns, column ∈ columns := by
    intro column hm
    rw [halike.columns] at hm
    obtain ⟨e, he, rfl⟩ := mem_definition hm
    rw [indexEntries_withIndex (about_of_atPlace hall), if_pos ⟨rfl, rfl⟩, hnil, List.nil_append] at he
    obtain ⟨b, hb, heq⟩ := List.mem_map.1 (hall ▸ List.mem_map_of_mem he)
    rw [← heq]
    exact List.fst_mem_of_mem_zipIdx hb
  have hbound : ∀ e ∈ ct.rows.live, ∀ name ∈ columns, ∃ v, e.2.get? name = some v := by
    intro e he name hm
    obtain ⟨v, hv, -⟩ := (h.stored t ct ((content_of_not_mem hn).trans hc)).2.stored he name (hcols name hm)
    exact ⟨v, hv⟩
  refine ⟨?_, fun hsite => ?_⟩
  · refine Index.Exact.of_keys (f := (Row.cut · columns)) (fun e he => mapM_congr fun column hm => ?_) hexact
    rw [Row.value, Row.value, Row.get?_cut (hbound e he) (hcovered column hm)]
  · refine ⟨halike.table, halike.name, ?_, halike.path, hl, hsite, fun column hm =>
      hcols column (hcovered column hm)⟩
    rw [halike.columns, halike.unique]
    rfl

/-- An index is described, entry by entry, and made of the rows of its table, or something of this is done
and fails. -/
theorem makeIndex (h : Models l sites c fs d) (hd : d.Sound l sites) (hs : sites.Allows t i)
    (hc : d.table t = some ct)
    (hnil : d.indexEntries t i = []) (hcols : ∀ name ∈ columns, name ∈ ct.columns.map Column.name)
    (kind : Language.IndexKind) :
    ∃ res c' fs' new o, (Catalog.makeIndex i t columns kind).apply c fs = (res, c', fs') ∧
      Models l sites c' fs' (d.withIndex t i new o) ∧ (∀ e ∈ new, e.2.table = t ∧ e.2.index = i) ∧
      (new ≠ [] ↔ ∃ column ∈ columns.head?,
        Schema.Records Schema.indices (Schema.indexRow t i 1 column kind)) ∧
      ((∃ e, res = .error e) ∧ fs.SameTree fs' ∧ Hindered l sites fs t i columns kind ct ∧
          ((new ≠ [] ∧ ∃ ix, o = some ix ∧ ix.path = l.indexPath t i) ∨ o = none) ∨
        res = .ok () ∧ new ≠ [] ∧ new.map Prod.snd = (columns.zipIdx 1).map (IndexEntry.atPlace t i kind) ∧
          ∃ ix, o = some ix ∧ ix.Exact ct.rows.live ∧
          (.index t i ∈ sites → ix.Stands l sites (d.withIndex t i new (some ix)) t i ct)) := by
  have hn := hd.regular.not_mem_of_table hc
  have hnone : d.index t i = none := hd.regular.index_eq_none hnil
  rw [Catalog.makeIndex_eq]
  obtain ⟨res, c₁, fs₁, new, hx, htree, h₁, hnew, hhead, ⟨⟨e, rfl⟩, hrec⟩ | ⟨rfl, hall⟩⟩ :=
    h.recordIndex hnone columns kind
  · exact ⟨.error e, c₁, fs₁, new, none, apply_bind_error hx _, h₁, hnew, hhead,
      .inl ⟨⟨e, rfl⟩, htree, .inr (.inl hrec), .inr rfl⟩⟩
  · have hentries : (d.withIndex t i new none).indexEntries t i = new := by
      rw [indexEntries_withIndex hnew, if_pos ⟨rfl, rfl⟩, hnil, List.nil_append]
    have hdescribed : (d.withIndex t i new none).Described := ⟨hd.regular.columns, hd.regular.nonempty⟩
    obtain ⟨c₂, hrows, h₂⟩ := (looks_keyedRows hdescribed t columns).apply h₁
    rw [h₁.value_keyedRows hdescribed ((content_of_not_mem hn).trans hc) hcols] at hrows
    rw [apply_bind_ok hx, apply_bind_ok hrows]
    have hindex : (d.withIndex t i new none).index t i = none := if_pos ⟨rfl, rfl⟩
    by_cases hne : new = []
    · obtain ⟨c₃, h₃, hcreate⟩ := h₂.onIndex_missing hindex
        (definition_eq_nil.2 (hentries.trans hne)) (Index.create (ct.rows.live.map fun e => (e.1, e.2.cut columns)))
      have hnil : columns = [] := by
        rw [hne, List.map_nil, eq_comm, List.map_eq_nil_iff, List.zipIdx_eq_nil_iff] at hall
        exact hall
      exact ⟨_, c₃, fs₁, new, none, hcreate, h₃, hnew, hhead, .inl ⟨⟨_, rfl⟩, htree, .inl hnil, .inr rfl⟩⟩
    · have hdef : ((d.withIndex t i new none).definition t i).1 ≠ [] := by
        rw [ne_eq, definition_eq_nil, hentries]
        exact hne
      have hset : ∀ o, (d.withIndex t i new none).setIndex t i o = d.withIndex t i new o := fun o =>
        setIndex_setIndex none o
      rcases h₂.createFrom hs hindex hdef (ct.rows.live.map fun e => (e.1, e.2.cut columns)) with
        ⟨e, ix, c₃, hcreate, hp, -, h₃, hb⟩ | ⟨ix, c₃, fs₃, hcreate, halike, hl, hexact, h₃⟩
      · rw [hset] at h₃
        exact ⟨_, c₃, fs₁, new, some ix, hcreate, h₃, hnew, hhead,
          .inl ⟨⟨e, rfl⟩, htree, .inr (.inr ⟨_, fs₁, htree, h₂.apart, rfl, hb⟩), .inl ⟨hne, ix, rfl, hp⟩⟩⟩
      · rw [hset] at h₃
        exact ⟨_, c₃, fs₃, new, some ix, hcreate, h₃, hnew, hhead, .inr ⟨rfl, hne, hall, ix, rfl,
          h.stands_of_described hn hc hnil hcols hall halike hl hexact⟩⟩

end Models

/-! ## The statement -/

/-- CREATE INDEX, step by step. -/
theorem Catalog.createIndex_eq (i t : String) (columns : List String) (kind : Language.IndexKind) :
    createIndex i t columns kind =
      (if t ∈ Schema.names then throw (.indexCatalogTable t) else do
        let listed ← (tableExists t).adapt Refusal.storage
        if listed then do
          let known ← (columnsOf t).adapt Refusal.storage
          .result (checkIndexColumns i t (known.map Column.name) [] columns)
          let handles ← (indexHandles t i).adapt Refusal.storage
          if handles.isEmpty then do
            ((makeIndex i t columns kind).adapt .storage).onFailure (discard (dropIndex i t))
            return .ofMessage s!"created index {i}"
          else throw (.indexExists i t)
        else throw (.tableMissing t)) := rfl

theorem Catalog.mem_of_checkIndexColumns {i t : String} {known : List String} :
    ∀ {columns checked : List String}, checkIndexColumns i t known checked columns = .ok () →
      ∀ column ∈ columns, column ∈ known
  | [], _, _, _, hm => nomatch hm
  | first :: rest, checked, h, column, hm => by
    rw [checkIndexColumns] at h
    split at h
    · cases h
    · rename_i hknown
      split at h
      · cases h
      · rcases List.mem_cons.1 hm with rfl | hm
        · exact not_not.1 hknown
        · exact mem_of_checkIndexColumns h column hm

/-- Whether CREATE INDEX passes all checks and its first entry makes a record. -/
def Database.Begins (d : Database) (i t : String) (columns : List String) (kind : Language.IndexKind) : Prop :=
  (∃ ct, d.table t = some ct ∧
    Catalog.checkIndexColumns i t (ct.columns.map Column.name) [] columns = .ok ()) ∧
  d.indexEntries t i = [] ∧
  ∃ column ∈ columns.head?, Schema.Records Schema.indices (Schema.indexRow t i 1 column kind)

/-- Whether a database is another one with an index and the entries about its columns. -/
def Database.Gets (d : Database) (t i : String) (columns : List String) (kind : Language.IndexKind)
    (d' : Database) : Prop :=
  ∃ new ix, d' = d.withIndex t i new (some ix) ∧ new ≠ [] ∧
    new.map Prod.snd = (columns.zipIdx 1).map (IndexEntry.atPlace t i kind)

/-- Whether the file system does not let go of what may be at a path. -/
def Files.Refuses (fs : Files) (path : String) : Prop := ∃ fault, fault ≠ .notFound ∧ fs.remove path = .error fault

/-- How an act ends that is to make an index: it is refused and leaves nothing behind, or the file system does not let
go of what may be at the index's path and the entries about the index stay, or the index is made. -/
inductive Attempts (l : Location) (sites : Sites) (d : Database) (t i : String) (columns : List String)
    (kind : Language.IndexKind) {α : Type} (x : Act Refusal Catalog α) (c : Catalog) (fs : Files) : Prop
  | refused {e : Refusal} {c' : Catalog} {fs' : Files} {d' : Database}
      (ha : x.apply c fs = (.error e, c', fs')) (hm : Models l sites c' fs' d') (hd : d'.Sound l sites)
      (hs : d.Same d') (hr : d.Begins i t columns kind → ¬ fs.Refuses (l.indexPath t i))
      (hh : d.Begins i t columns kind → ∀ ct, d.table t = some ct →
        Database.Hindered l sites fs t i columns kind ct)
  | stuck {e : Refusal} {c' : Catalog} {fs' : Files} {new : List (Handle × IndexEntry)} {o : Option Index}
      (ha : x.apply c fs = (.error e, c', fs')) (hb : d.Begins i t columns kind)
      (hr : fs.Refuses (l.indexPath t i)) (hm : Models l sites c' fs' (d.withIndex t i new o)) (hne : new ≠ [])
      (hnew : ∀ e ∈ new, e.2.table = t ∧ e.2.index = i)
  | made {a : α} {c' : Catalog} {fs' : Files} {d' : Database} (ha : x.apply c fs = (.ok a, c', fs'))
      (hb : d.Begins i t columns kind) (hm : Models l sites c' fs' d') (hg : d.Gets t i columns kind d')
      (hd : .index t i ∈ sites → d'.Sound l sites)

section
variable {l : Location} {sites : Sites} {c : Catalog} {fs : Files} {d : Database} {t i : String}
  {columns : List String} {kind : Language.IndexKind} {α β : Type}

theorem attempts_throw (hb : ¬ d.Begins i t columns kind) (h : Models l sites c fs d) (hd : d.Sound l sites)
    (e : Refusal) : Attempts l sites d t i columns kind (throw e : Act Refusal Catalog α) c fs :=
  .refused rfl h hd (.refl d) (fun hc => absurd hc hb) fun hc => absurd hc hb

/-- An attempt ends as what is left to do of it does. -/
theorem Attempts.of_apply {x y : Act Refusal Catalog α} {c' : Catalog} (he : x.apply c fs = y.apply c' fs)
    (h : Attempts l sites d t i columns kind y c' fs) : Attempts l sites d t i columns kind x c fs := by
  cases h with
  | refused ha hm hd hs hr hh => exact .refused (he.trans ha) hm hd hs hr hh
  | stuck ha hb hr hm hne hnew => exact .stuck (he.trans ha) hb hr hm hne hnew
  | made ha hb hm hg hd => exact .made (he.trans ha) hb hm hg hd

/-- An attempt that goes on from what a look returned ends as it does from there. -/
theorem Looks.attempts_bind {x : Act Refusal Catalog α} {f : α → Act Refusal Catalog β} (hx : Looks l sites d x)
    (h : Models l sites c fs d) (hd : d.Sound l sites)
    (herror : ∀ e, x.value c fs = .error e → ¬ d.Begins i t columns kind)
    (hok : ∀ a c', x.value c fs = .ok a → Models l sites c' fs d →
      Attempts l sites d t i columns kind (f a) c' fs) : Attempts l sites d t i columns kind (x >>= f) c fs := by
  obtain ⟨c', ha, h'⟩ := hx.apply h
  cases hv : x.value c fs with
  | error e =>
    rw [hv] at ha
    have hb := herror e hv
    exact .refused (apply_bind_error ha f) h' hd (.refl d) (fun hc => absurd hc hb) fun hc => absurd hc hb
  | ok a =>
    rw [hv] at ha
    exact (hok a c' hv h').of_apply (apply_bind_ok ha f)

/-- What is returned in the end does not matter. -/
theorem Attempts.bind_pure {x : Act Refusal Catalog α} (h : Attempts l sites d t i columns kind x c fs) (f : α → β) :
    Attempts l sites d t i columns kind (x >>= fun a => pure (f a)) c fs := by
  cases h with
  | refused ha hm hd hs hr hh => exact .refused (apply_bind_error ha _) hm hd hs hr hh
  | stuck ha hb hr hm hne hnew => exact .stuck (apply_bind_error ha _) hb hr hm hne hnew
  | made ha hb hm hg hd => exact .made (apply_bind_ok ha _) hb hm hg hd

end

namespace Models

variable {l : Location} {sites : Sites} {c : Catalog} {fs : Files} {d : Database} {t i : String}
  {ct : Content} {columns : List String} {kind : Language.IndexKind}

/-- An index that is halfway there when its making fails is dropped again, if the file system lets go of it. -/
theorem dropHalfway {x : Act Refusal Catalog Unit} {e : Refusal} {c₁ : Catalog} {fs₁ : Files}
    {new : List (Handle × IndexEntry)} {o : Option Index} (hx : x.apply c fs = (.error e, c₁, fs₁))
    (h₁ : Models l sites c₁ fs₁ (d.withIndex t i new o)) (hd : d.Sound l sites) (hs : sites.Allows t i)
    (hnil : d.indexEntries t i = []) (htree : fs.SameTree fs₁)
    (hnew : ∀ e ∈ new, e.2.table = t ∧ e.2.index = i) (hbegins : d.Begins i t columns kind ↔ new ≠ [])
    (ho : (new ≠ [] ∧ ∃ ix, o = some ix ∧ ix.path = l.indexPath t i) ∨ o = none)
    (hh : ∀ ct, d.table t = some ct → Hindered l sites fs t i columns kind ct) :
    Attempts l sites d t i columns kind (x.onFailure (discard (Catalog.dropIndex i t))) c fs := by
  have hfailed : ∀ {r c' fs'}, (Catalog.dropIndex i t).apply c₁ fs₁ = (r, c', fs') →
      (x.onFailure (discard (Catalog.dropIndex i t))).apply c fs = (.error e, c', fs') := by
    intro r c' fs' hdrop
    rw [apply_onFailure_error hx, apply_discard, hdrop]
  have hentries : (d.withIndex t i new o).indexEntries t i = new := by
    rw [indexEntries_withIndex hnew, if_pos ⟨rfl, rfl⟩, hnil, List.nil_append]
  have hfound : (∃ ix, (d.withIndex t i new o).index t i = some ix ∧ ix.path = l.indexPath t i) ∨
      (d.withIndex t i new o).index t i = none := by
    rw [index_withIndex, if_pos ⟨rfl, rfl⟩]
    exact ho.imp_left And.right
  rcases h₁.dropIndex (fun _ => hs) hfound with
    ⟨hnone, e', c', h', hdrop⟩ | ⟨hsome, fault, ix, c', hfault, hr, h', hdrop⟩ |
      ⟨hsome, hr, a, c', fs', h', hdrop⟩
  · -- no entry came, so there is nothing to be taken back
    rw [hentries] at hnone
    have hself : d.withIndex t i new o = d := by
      rw [hnone, ho.resolve_left fun hne => hne.1 hnone, withIndex, Tape.append_ofLive_nil,
        setIndex_self (hd.regular.index_eq_none hnil)]
    rw [hself] at h'
    exact .refused (hfailed hdrop) h' hd (.refl d) (fun hb => absurd hnone (hbegins.1 hb)) fun _ => hh
  · rw [hentries] at hsome
    have hset : (d.withIndex t i new o).setIndex t i (some ix) = d.withIndex t i new (some ix) :=
      setIndex_setIndex o _
    rw [hset] at h'
    exact .stuck (hfailed hdrop) (hbegins.2 hsome) ⟨fault, hfault, htree.remove_eq_error.1 hr⟩ h' hsome hnew
  · have hascending : (d.indices ++ Tape.ofLive new).Ascending := h₁.ascending_indices
    obtain ⟨hsound, hsame⟩ := hd.withoutIndex_withIndex hascending hnew hnil o
    refine .refused (hfailed hdrop) h' hsound hsame ?_ fun _ => hh
    rintro - ⟨fault, hfault, hremove⟩
    exact hfault (hr fault (htree.remove_eq_error.2 hremove))

/-- How an index is made that is checked, and dropped again if this fails. -/
theorem buildIndex (h : Models l sites c fs d) (hd : d.Sound l sites) (hs : sites.Allows t i)
    (hc : d.table t = some ct) (hnil : d.indexEntries t i = [])
    (hcheck : Catalog.checkIndexColumns i t (ct.columns.map Column.name) [] columns = .ok ()) :
    Attempts l sites d t i columns kind (((Catalog.makeIndex i t columns kind).adapt Refusal.storage).onFailure
      (discard (Catalog.dropIndex i t))) c fs := by
  obtain ⟨res, c₁, fs₁, new, o, hx, h₁, hnew, hfirst, hres⟩ :=
    h.makeIndex hd hs hc hnil (Catalog.mem_of_checkIndexColumns hcheck) kind
  have hadapt : ((Catalog.makeIndex i t columns kind).adapt Refusal.storage).apply c fs =
      (res.mapError Refusal.storage, c₁, fs₁) := by
    rw [apply_adapt, hx]
  have hbegins : d.Begins i t columns kind ↔ new ≠ [] :=
    ⟨fun hb => hfirst.2 hb.2.2, fun hne => ⟨⟨ct, hc, hcheck⟩, hnil, hfirst.1 hne⟩⟩
  rcases hres with ⟨⟨e, rfl⟩, htree, hhindered, ho⟩ | ⟨rfl, hne, hall, ix, rfl, hexact, hstands⟩
  · refine dropHalfway hadapt h₁ hd hs hnil htree hnew hbegins ho fun ct' hc' => ?_
    rw [hc] at hc'
    cases hc'
    exact hhindered
  · exact .made (apply_onFailure_ok hadapt _) (hbegins.2 hne) h₁ ⟨new, ix, rfl, hne, hall⟩ fun hsite =>
      hd.withIndex hnew hne hc (hstands hsite) hexact

/-- CREATE INDEX makes an index, or fails and leaves nothing behind, or leaves the entries about an index
that the file system does not let go. -/
theorem createIndex (h : Models l sites c fs d) (hd : d.Sound l sites) (hs : sites.Allows t i)
    (columns : List String) (kind : Language.IndexKind) :
    Attempts l sites d t i columns kind (Catalog.createIndex i t columns kind) c fs := by
  rw [Catalog.createIndex_eq]
  by_cases hn : t ∈ Schema.names
  · rw [if_pos hn]
    refine attempts_throw ?_ h hd _
    rintro ⟨⟨ct, hc, -⟩, -⟩
    exact hd.regular.not_mem_of_table hc hn
  rw [if_neg hn]
  obtain ⟨c₁, h₁, hlisted⟩ := (looks_tableExists t).known h (value_tableExists h t) Refusal.storage
  refine .of_apply (hlisted _) ?_
  by_cases hnone : d.tableHandles t = []
  · rw [hnone]
    refine attempts_throw ?_ h₁ hd _
    rintro ⟨⟨ct, hc, -⟩, -⟩
    exact (hd.regular.listed t).2 (.inr (by rw [hc]; exact nofun)) hnone
  obtain ⟨ct, hc⟩ := hd.regular.exists_table hn hnone
  rw [if_pos (by rwa [Bool.not_eq_true', List.isEmpty_eq_false_iff])]
  obtain ⟨c₂, h₂, hcols⟩ := (looks_columnsOf t).known h₁ (h₁.value_columnsOf t) Refusal.storage
  refine .of_apply (hcols _) ?_
  rw [hd.regular.columns t hn, hc]
  refine (looks_result _).attempts_bind h₂ hd (fun e he => ?_) fun _ c₃ hcheck h₃ => ?_
  · rintro ⟨⟨ct', hc', hok⟩, -⟩
    rw [hc] at hc'
    cases hc'
    exact absurd (hok.symm.trans he) nofun
  obtain ⟨c₄, h₄, hhandles⟩ := (looks_indexHandles t i).known h₃ (h₃.value_indexHandles t i) Refusal.storage
  refine .of_apply (hhandles _) ?_
  by_cases hnil : d.indexEntries t i = []
  · rw [if_pos (by rw [hnil]; rfl)]
    exact (h₄.buildIndex hd hs hc hnil hcheck).bind_pure _
  · rw [if_neg (by rwa [List.isEmpty_iff, List.map_eq_nil_iff])]
    exact attempts_throw (fun hb => hnil hb.2.1) h₄ hd _

end Models

section
variable {l : Location} {sites : Sites} {c : Catalog} {fs : Files} {d : Database} {t i : String}
  {ct : Content} {columns : List String} {kind : Language.IndexKind}

/-- In a place that is an index's own, CREATE INDEX makes the index or leaves nothing behind. -/
theorem settles_createIndex (h : Models l sites c fs d) (hd : d.Sound l sites) (hs : .index t i ∈ sites)
    (columns : List String) (kind : Language.IndexKind) :
    Settles l sites d (Catalog.createIndex i t columns kind) c fs
      ((Catalog.createIndex i t columns kind).Succeeds c fs)
      fun d' => d.Begins i t columns kind ∧ d.Gets t i columns kind d' := by
  cases h.createIndex hd (fun _ => hs) columns kind with
  | refused hx h' hd' hsame =>
    refine .refused ?_ hx h' hd' hsame
    rintro ⟨a, c₁, fs₁, hok⟩
    rw [hx] at hok
    cases hok
  | stuck hx hb hr =>
    obtain ⟨fault, hne, hr⟩ := hr
    exact absurd (h.apart.remove_error hs hr) hne
  | made hx hb h' hgets hd' => exact .done ⟨_, _, _, hx⟩ hx h' (hd' hs) ⟨hb, hgets⟩

/-- CREATE INDEX succeeds if nothing stands in its way. -/
theorem createIndex_succeeds (h : Models l sites c fs d) (hd : d.Sound l sites) (hs : .index t i ∈ sites)
    (hc : d.table t = some ct) (hb : d.Begins i t columns kind)
    (hh : ¬ Database.Hindered l sites fs t i columns kind ct) :
    (Catalog.createIndex i t columns kind).Succeeds c fs := by
  cases h.createIndex hd (fun _ => hs) columns kind with
  | refused hx h' hd' hsame hr hhindered => exact absurd (hhindered hb ct hc) hh
  | stuck hx hb hr =>
    obtain ⟨fault, hne, hr⟩ := hr
    exact absurd (h.apart.remove_error hs hr) hne
  | made hx => exact ⟨_, _, _, hx⟩

end

end Rowbase
