import Rowbase.Proofs.Database.Tables
import Rowbase.Proofs.Index

/-! # Using indices

What is done to an index changes its map and its own file, and no relation. An index is made of rows
from its description, filled and emptied row by row, and dropped with its file. -/
namespace Rowbase

open Files (Apart Beside)

/-! ## Acts on one index -/

namespace Index

variable {ix ix' : Index} {fs fs' : Files} {key : Key} {h : Handle} {row : Row}

theorem apply_load_of_loaded (hl : ix.loaded = true) : load.apply ix fs = (.ok (), ix, fs) :=
  Act.apply_change_ok (if_pos hl)

theorem apply_save (hw : fs.write ix.path ix.document.bytes = .ok fs') :
    save.apply ix fs = (.ok (), ix, fs') := by
  refine Act.apply_change_ok ?_
  rw [hw]
  rfl

theorem apply_save_error {fault : Files.Fault} (hw : fs.write ix.path ix.document.bytes = .error fault) :
    save.apply ix fs = (.error (.file fault), ix, fs) := by
  refine Act.apply_change_error ?_
  rw [hw]
  rfl

theorem apply_addRow_ok (hk : ix.keyOf row = .ok key) (ha : ix.add key h = .ok ix') :
    (addRow h row).apply ix fs = (.ok (), ix', fs) := by
  refine Act.apply_change_ok ?_
  rw [hk]
  change (ix.add key h >>= fun ix => _) = _
  rw [ha]
  rfl

/-- Adding a row that cannot be added changes nothing. -/
theorem apply_addRow_error {e : StorageError} (ha : (ix.keyOf row >>= (ix.add · h)) = .error e) :
    (addRow h row).apply ix fs = (.error e, ix, fs) := by
  refine Act.apply_change_error ?_
  cases hk : ix.keyOf row with
  | error e' =>
    rw [hk] at ha
    cases ha
    rfl
  | ok key =>
    rw [hk] at ha
    change (ix.add key h >>= fun ix => _) = _
    rw [show ix.add key h = .error e from ha]
    rfl

theorem apply_insert_ok (hl : ix.loaded = true) (hk : ix.keyOf row = .ok key)
    (ha : ix.add key h = .ok ix') (hw : fs.write ix'.path ix'.document.bytes = .ok fs') :
    (insert h row).apply ix fs = (.ok (), ix', fs') := by
  rw [insert, Act.apply_bind_ok (apply_load_of_loaded hl), Act.apply_bind_ok (apply_addRow_ok hk ha),
    apply_save hw]

/-- A row that cannot be added is refused. -/
theorem apply_insert_refused {e : StorageError} (hl : ix.loaded = true)
    (ha : (ix.keyOf row >>= (ix.add · h)) = .error e) : (insert h row).apply ix fs = (.error e, ix, fs) := by
  rw [insert, Act.apply_bind_ok (apply_load_of_loaded hl), Act.apply_bind_error (apply_addRow_error ha)]

theorem apply_insert_error {e : StorageError} (hl : ix.loaded = true) (hk : ix.keyOf row = .ok key)
    (ha : ix.add key h = .error e) : (insert h row).apply ix fs = (.error e, ix, fs) := by
  refine apply_insert_refused hl ?_
  rw [hk]
  exact ha

theorem apply_delete (hl : ix.loaded = true) (hk : ix.keyOf row = .ok key)
    (hw : fs.write (ix.remove key h).path (ix.remove key h).document.bytes = .ok fs') :
    (delete h row).apply ix fs = (.ok (), ix.remove key h, fs') := by
  have hremove : (Act.change fun ix fs => do return ((), ix.remove (← ix.keyOf row) h, fs) :
      Act StorageError Index Unit).apply ix fs = (.ok (), ix.remove key h, fs) := by
    refine Act.apply_change_ok ?_
    rw [hk]
    rfl
  rw [delete, Act.apply_bind_ok (apply_load_of_loaded hl), Act.apply_bind_ok hremove, apply_save hw]

/-- Whether two indices have the same description. -/
structure Alike (ix ix' : Index) : Prop where
  table : ix'.table = ix.table
  name : ix'.name = ix.name
  columns : ix'.columns = ix.columns
  unique : ix'.unique = ix.unique
  path : ix'.path = ix.path

theorem Alike.refl (ix : Index) : Alike ix ix := ⟨rfl, rfl, rfl, rfl, rfl⟩

theorem Alike.trans {ix'' : Index} (h : Alike ix ix') (h' : Alike ix' ix'') : Alike ix ix'' :=
  ⟨h'.table.trans h.table, h'.name.trans h.name, h'.columns.trans h.columns,
    h'.unique.trans h.unique, h'.path.trans h.path⟩

theorem alike_add (ha : ix.add key h = .ok ix') : Alike ix ix' :=
  have hd := add_description ha
  ⟨hd.1, hd.2.1, hd.2.2.1, hd.2.2.2.1, hd.2.2.2.2.1⟩

theorem alike_remove : Alike ix (ix.remove key h) := ⟨rfl, rfl, rfl, rfl, rfl⟩

theorem Alike.keyOf (h : Alike ix ix') (row : Row) : ix'.keyOf row = ix.keyOf row := by
  rw [Index.keyOf, Index.keyOf, h.name, h.columns]

/-- Whether an index like this one can have just some rows. -/
def Separates (ix : Index) (rows : List (Handle × Row)) : Prop := ∃ ix', Alike ix ix' ∧ ix'.Exact rows

theorem Alike.symm (h : Alike ix ix') : Alike ix' ix :=
  ⟨h.table.symm, h.name.symm, h.columns.symm, h.unique.symm, h.path.symm⟩

theorem Alike.separates {rows : List (Handle × Row)} (h : Alike ix ix') (hs : ix.Separates rows) :
    ix'.Separates rows := by
  obtain ⟨ix'', halike, he⟩ := hs
  exact ⟨ix'', h.symm.trans halike, he⟩

/-- A row that cannot be added keeps every index like this one from having it. -/
theorem Exact.not_separates {e : StorageError} {done rest : List (Handle × Row)} (he : ix.Exact done)
    (ha : (ix.keyOf row >>= (ix.add · h)) = .error e) : ¬ ix.Separates (done ++ (h, row) :: rest) := by
  rintro ⟨ix', halike, he'⟩
  obtain ⟨key, hk⟩ := he'.keyed (h, row) (List.mem_append_right _ (.head _))
  rw [halike.keyOf] at hk
  have hfull : ¬ ∃ ix₁, ix.add key h = .ok ix₁ := by
    rintro ⟨ix₁, hok⟩
    rw [show ix.keyOf row = .ok key from hk] at ha
    exact nomatch (show ix.add key h = .error e from ha).symm.trans hok
  rw [add_eq_ok_iff, not_not] at hfull
  have hsingle := he'.single (halike.unique.trans hfull.1) key hfull.2.1
  have hkey : ∀ r, ix'.hasKey key r = ix.hasKey key r := hasKey_congr halike.name halike.columns key
  simp only [he'.handles_eq, hkey, List.filter_append, List.map_append] at hsingle
  rw [← he.handles_eq, List.filter_cons, if_pos (hasKey_iff.2 hk), List.map_cons, List.length_append,
    List.length_cons] at hsingle
  have hpos := List.length_pos_of_ne_nil hfull.2.2
  omega

/-- Rows are added one by one, up to the first that cannot be. -/
theorem apply_addRows (fs : Files) : ∀ (entries done : List (Handle × Row)) (ix : Index), ix.Exact done →
    ∃ res ix', (entries.forM fun e => addRow e.1 e.2).apply ix fs = (res, ix', fs) ∧ Alike ix ix' ∧
      ix'.loaded = ix.loaded ∧ ((∃ e, res = .error e) ∧ ¬ ix.Separates (done ++ entries) ∨
        res = .ok () ∧ ix'.Exact (done ++ entries))
  | [], done, ix, he => ⟨.ok (), ix, rfl, .refl ix, rfl, .inr ⟨rfl, by rwa [List.append_nil]⟩⟩
  | (h, row) :: entries, done, ix, he => by
    rw [List.forM_eq_forM, List.forM_cons]
    cases ha : ix.keyOf row >>= (ix.add · h) with
    | error e =>
      exact ⟨.error e, ix, Act.apply_bind_error (apply_addRow_error ha) _, .refl ix, rfl,
        .inl ⟨⟨e, rfl⟩, he.not_separates ha⟩⟩
    | ok ix₁ =>
      obtain ⟨key, hk, ha⟩ := bind_eq_ok.1 ha
      obtain ⟨res, ix', hx, halike, hl, hres⟩ := apply_addRows fs entries _ ix₁ (he.add hk ha)
      rw [List.append_assoc, List.singleton_append] at hres
      refine ⟨res, ix', ?_, (alike_add ha).trans halike, hl.trans (add_description ha).2.2.2.2.2,
        hres.imp_left fun hres => ⟨hres.1, fun hs => ?_⟩⟩
      · rw [Act.apply_bind_ok (apply_addRow_ok hk ha)]
        exact hx
      · exact hres.2 ((alike_add ha).separates hs)

/-- Whether there is no way to make the file of an index that has just some rows. -/
def Blocked (ix : Index) (fs : Files) (rows : List (Handle × Row)) : Prop :=
  fs.exists? ix.path = true ∨ ¬ ix.Separates rows ∨ ∃ data e, fs.write ix.path data = .error e

/-- Where nothing lies at its path, an index is made of an empty one. -/
theorem apply_create_of_missing (hexists : fs.exists? ix.path = false) (entries : List (Handle × Row)) :
    (create entries).apply ix fs = (do
      entries.forM fun e => addRow e.1 e.2
      save
      Act.update fun ix => { ix with loaded := true } : Act StorageError Index Unit).apply { ix with map := ∅ } fs := by
  have hlook : (Act.look fun ix fs => if fs.exists? ix.path then
      .error (.relation (.indexExists ix.name ix.table)) else .ok () :
      Act StorageError Index Unit).apply ix fs = (.ok (), ix, fs) := by
    rw [Act.apply_look, hexists]
    rfl
  rw [create, Act.apply_bind_ok hlook, Act.apply_bind_ok (Act.apply_update _ ix fs)]

/-- An index is made of rows with a new file, or no file is touched. -/
theorem apply_create (ix : Index) (fs : Files) (entries : List (Handle × Row)) :
    (∃ e ix', (create entries).apply ix fs = (.error e, ix', fs) ∧ Alike ix ix' ∧ ix'.loaded = ix.loaded ∧
      ix.Blocked fs entries) ∨
    ∃ ix' fs', (create entries).apply ix fs = (.ok (), ix', fs') ∧ Alike ix ix' ∧
      ix'.loaded = true ∧ ix'.Exact entries ∧ fs.exists? ix.path = false ∧
      fs.write ix.path ix'.document.bytes = .ok fs' := by
  by_cases hexists : fs.exists? ix.path = true
  · have hlook : (Act.look fun ix fs => if fs.exists? ix.path then
        .error (.relation (.indexExists ix.name ix.table)) else .ok () :
        Act StorageError Index Unit).apply ix fs =
          (.error (.relation (.indexExists ix.name ix.table)), ix, fs) := by
      rw [Act.apply_look, if_pos hexists]
    rw [create]
    exact .inl ⟨_, ix, Act.apply_bind_error hlook _, .refl ix, rfl, .inl hexists⟩
  · have hexists : fs.exists? ix.path = false := by simpa using hexists
    obtain ⟨res, ix₁, hx, halike₁, hl, hres⟩ := apply_addRows fs entries []
      { ix with map := ∅ } (exact_empty rfl)
    have hempty : Alike ix { ix with map := ∅ } := ⟨rfl, rfl, rfl, rfl, rfl⟩
    have halike : Alike ix ix₁ := hempty.trans halike₁
    rw [apply_create_of_missing hexists]
    rcases hres with ⟨⟨e, rfl⟩, hsep⟩ | ⟨rfl, hexact⟩
    · exact .inl ⟨e, ix₁, Act.apply_bind_error hx _, halike, hl, .inr (.inl fun hs => hsep (hempty.separates hs))⟩
    · rw [Act.apply_bind_ok hx]
      cases hw : fs.write ix₁.path ix₁.document.bytes with
      | error e =>
        exact .inl ⟨.file e, ix₁, Act.apply_bind_error (apply_save_error hw) _, halike, hl,
          .inr (.inr ⟨_, e, halike.path ▸ hw⟩)⟩
      | ok fs' =>
        refine .inr ⟨{ ix₁ with loaded := true }, fs', ?_,
          ⟨halike.table, halike.name, halike.columns, halike.unique, halike.path⟩, rfl, hexact.congr rfl rfl rfl rfl,
          hexists, halike.path ▸ hw⟩
        rw [Act.apply_bind_ok (apply_save hw)]
        rfl

/-- What dropping an index comes to is for the file system to say. -/
theorem apply_drop (ix : Index) (fs : Files) : drop.apply ix fs =
    match fs.remove ix.path with
    | .ok fs' => (.ok (), { ix with map := ∅, loaded := false }, fs')
    | .error .notFound => (.ok (), { ix with map := ∅, loaded := false }, fs)
    | .error e => (.error (.file e), { ix with map := ∅, loaded := false }, fs) := by
  rw [drop, Act.apply_bind_ok (Act.apply_update _ ix fs), Act.apply_change]
  cases hr : fs.remove ix.path with
  | ok fs' => rfl
  | error e => cases e <;> rfl

end Index

/-! ## Indices of a database -/

namespace Files

variable {fs fs' : Files} {path : String} {b : ByteArray} {l : Location} {sites : Sites}

/-- A file that is written where there was none is a new one. -/
theorem Apart.write_of_missing (h : Apart l sites fs) (he : fs.exists? path = false)
    (hw : fs.write path b = .ok fs') : Beside l sites path fs fs' := by
  obtain ⟨names, hl, hw⟩ := bind_eq_ok.1 hw
  have hl := (locateFile_eq_ok.1 hl).2
  rw [exists?, hl] at he
  dsimp only at he
  cases hn : fs.node? names with
  | none =>
    rw [hn] at hw
    cases hw
    exact h.push hl hn
  | some node =>
    rw [hn] at he
    cases he

end Files

namespace Database

variable {d : Database} {t i : String}

theorem setIndex_setIndex (a b : Option Index) : (d.setIndex t i a).setIndex t i b = d.setIndex t i b := by
  rw [setIndex, setIndex, setIndex]
  congr 1
  funext t' i'
  dsimp only
  split <;> rfl

theorem setIndex_self {a : Option Index} (h : d.index t i = a) : d.setIndex t i a = d := by
  obtain ⟨tables, columns, indices, table, index⟩ := d
  rw [setIndex]
  congr 1
  funext t' i'
  dsimp only
  split
  · rename_i he
    rw [he.1, he.2]
    exact h.symm
  · rfl

end Database

namespace Catalog

variable {l : Location} {c c₀ c₁ : Catalog} {fs : Files} {t i : String} {ix : Index}
  {definition : List String × Bool} {α : Type}

theorem apply_rememberIndex_known (hg : c.indexes.get? (t, i) = some ix) (fs : Files) :
    (rememberIndex t i).apply c fs = (.ok ix, c, fs) := by
  rw [rememberIndex, Act.apply_bind_ok (Act.apply_thing c fs), hg]
  rfl

/-- An index that is not known is made from what the catalog says of it. -/
theorem apply_rememberIndex_described (hg : c.indexes.get? (t, i) = none)
    (hx : (indexDefinition t i).apply c fs = (.ok definition, c₀, fs)) (hl : c₀.location = l) :
    (rememberIndex t i).apply c fs =
      if definition.1.isEmpty then (.error (.relation (.indexMissing i t)), c₀, fs)
      else
        let ix : Index := { table := t, name := i, columns := definition.1, unique := definition.2,
                            path := l.indexPath t i }
        (.ok ix, { c₀ with indexes := c₀.indexes.insert (t, i) ix }, fs) := by
  subst hl
  rw [rememberIndex, Act.apply_bind_ok (Act.apply_thing c fs), hg]
  refine (Act.apply_bind_ok hx _).trans ?_
  dsimp only
  split <;> rfl

theorem onIndex_of_rememberIndex (hx : (rememberIndex t i).apply c fs = (.ok ix, c₁, fs))
    (x : Act StorageError Index α) : (onIndex t i x).apply c fs =
      ((x.apply ix fs).1, { c₁ with indexes := c₁.indexes.insert (t, i) (x.apply ix fs).2.1 },
        (x.apply ix fs).2.2) := by
  rw [onIndex, Act.apply_bind_ok hx]
  rfl

end Catalog

namespace Models

variable {l : Location} {sites : Sites} {c c' : Catalog} {fs fs' : Files} {d d' : Database}
  {t i : String} {ix ix' : Index} {key : Key} {handle : Handle} {row : Row} {α : Type}

/-- The index that an index is by its description. -/
def describedIndex (l : Location) (d : Database) (t i : String) : Index where
  table := t
  name := i
  columns := (d.definition t i).1
  unique := (d.definition t i).2
  path := l.indexPath t i

theorem get?_setIndex (h : Models l sites c fs d) (o : Option Index) (indexes : Bindings (String × String) Index)
    (hi : ∀ k, indexes.get? k = if k = (t, i) then o else c.indexes.get? k) (t' i' : String) :
    indexes.get? (t', i') = (d.setIndex t i o).index t' i' := by
  rw [hi, Database.setIndex]
  dsimp only
  refine if_congr ?_ rfl (h.index t' i')
  exact Prod.mk.injEq .. ▸ Iff.rfl

/-- A change of an index with its file leaves all relations and all other indices as they are. -/
theorem replaceIndex (h : Models l sites c fs d) (hs : sites.Allows t i ∨ fs' = fs)
    (hb : Beside l sites (l.indexPath t i) fs fs') {o : Option Index}
    (hf : sites.exclusive = true → .index t i ∈ sites → Index.Filed o fs' (l.indexPath t i))
    {indexes : Bindings (String × String) Index}
    (hi : ∀ k, indexes.get? k = if k = (t, i) then o else c.indexes.get? k) :
    Models l sites { c with indexes } fs' (d.setIndex t i o) := by
  have hne : ∀ name, .relation name ∈ sites →
      fs.locate (l.relationPath name) ≠ fs.locate (l.indexPath t i) :=
    fun name hs => (locate_index_ne h.apart hs t i).symm
  refine ⟨h.location, hb.directory h.directory, hb.apart, fun name r hk => ?_, fun name ct hc => ?_,
    fun name hs hc => ?_, h.get?_setIndex o indexes hi, fun hx t' i' ho => ?_⟩
  · obtain ⟨ct, hc, hr⟩ := h.kept name r hk
    have hs := (h.stored name ct hc).1
    exact ⟨ct, hc, hr.frame hb hs (hne name hs)⟩
  · obtain ⟨hs, hr⟩ := h.stored name ct hc
    exact ⟨hs, hr.frame hb hs (hne name hs)⟩
  · exact (hb.find _ hs (hne name hs)).trans (h.missing name hs hc)
  · rw [Database.setIndex]
    dsimp only
    split
    · rename_i he
      rw [he.1, he.2] at ho ⊢
      exact hf hx ho
    · rename_i he
      rcases hs with hs | rfl
      · refine (h.filed hx t' i' ho).frame (s := .index t' i') hb ho fun hl => he ?_
        cases h.apart.unshared _ ho hx _ (hs hx) hl
        exact ⟨rfl, rfl⟩
      · exact h.filed hx t' i' ho

/-- Whether an index is there, or is not but can be made from what is described. -/
def Usable (l : Location) (d : Database) (t i : String) (ix : Index) : Prop :=
  d.index t i = some ix ∨ d.index t i = none ∧ (d.definition t i).1 ≠ [] ∧ ix = describedIndex l d t i

theorem Usable.filed (hx : Usable l d t i ix) (h : Models l sites c fs d) (hexcl : sites.exclusive = true)
    (hs : .index t i ∈ sites) : Index.Filed (some ix) fs (l.indexPath t i) := by
  have hf := h.filed hexcl t i hs
  rcases hx with hx | ⟨hx, -, rfl⟩ <;> rw [hx] at hf
  · exact hf
  · exact (Index.Filed.unloaded_iff rfl).2 hf

/-- An index that is there can be used, and so can one that is described. -/
theorem using_index (h : Models l sites c fs d) (hx : Usable l d t i ix) :
    ∃ c₁, Models l sites c₁ fs (d.setIndex t i (some ix)) ∧
      ∀ {α : Type} (x : Act StorageError Index α), (Catalog.onIndex t i x).apply c fs =
        ((x.apply ix fs).1, { c₁ with indexes := c₁.indexes.insert (t, i) (x.apply ix fs).2.1 },
          (x.apply ix fs).2.2) := by
  have hf := hx.filed h
  rcases hx with hx | ⟨hx, hdef, rfl⟩
  · have hg : c.indexes.get? (t, i) = some ix := (h.index t i).trans hx
    refine ⟨c, h.replaceIndex (.inr rfl) (h.apart.beside_self _) hf fun k => ?_, fun x =>
      Catalog.onIndex_of_rememberIndex (Catalog.apply_rememberIndex_known hg fs) x⟩
    split
    · rename_i hk
      rw [hk, hg]
    · rfl
  · obtain ⟨c₀, hread, h₀⟩ := h.surveying (Catalog.surveys_indexDefinition t i)
    rw [h.value_indexDefinition] at hread
    have hremember := Catalog.apply_rememberIndex_described ((h.index t i).trans hx) hread h₀.location
    rw [if_neg (by rwa [List.isEmpty_iff])] at hremember
    exact ⟨_, h₀.replaceIndex (.inr rfl) (h₀.apart.beside_self _) hf fun _ => Bindings.get?_insert ..,
      fun x => Catalog.onIndex_of_rememberIndex hremember x⟩

/-- An act on an index, in terms of what it does to it. -/
theorem onIndex {x : Act StorageError Index α} {res : Except StorageError α} (h : Models l sites c fs d)
    (hfound : Usable l d t i ix) (hx : x.apply ix fs = (res, ix', fs')) (hs : sites.Allows t i ∨ fs' = fs)
    (hb : Beside l sites (l.indexPath t i) fs fs')
    (hf : sites.exclusive = true → .index t i ∈ sites → Index.Filed (some ix') fs' (l.indexPath t i)) :
    ∃ c', (Catalog.onIndex t i x).apply c fs = (res, c', fs') ∧
      Models l sites c' fs' (d.setIndex t i (some ix')) := by
  obtain ⟨c₁, h₁, ha⟩ := h.using_index hfound
  have h' : Models l sites { c₁ with indexes := c₁.indexes.insert (t, i) ix' } fs' _ :=
    h₁.replaceIndex hs hb hf fun _ => Bindings.get?_insert ..
  rw [Database.setIndex_setIndex] at h'
  exact ⟨_, by rw [ha, hx], h'⟩

/-- What is not described is not found. -/
theorem onIndex_missing (h : Models l sites c fs d) (hx : d.index t i = none)
    (hdef : (d.definition t i).1 = []) (x : Act StorageError Index α) :
    ∃ c', Models l sites c' fs d ∧
      (Catalog.onIndex t i x).apply c fs = (.error (.relation (.indexMissing i t)), c', fs) := by
  obtain ⟨c₀, hread, h₀⟩ := h.surveying (Catalog.surveys_indexDefinition t i)
  rw [h.value_indexDefinition] at hread
  have hremember := Catalog.apply_rememberIndex_described ((h.index t i).trans hx) hread h₀.location
  rw [hdef] at hremember
  exact ⟨c₀, h₀, by rw [Catalog.onIndex, Act.apply_bind_error hremember]⟩

/-- A row is added to an index that has room for its key. -/
theorem insertInto (h : Models l sites c fs d) (hx : d.index t i = some ix) (hl : ix.loaded = true)
    (hp : ix.path = l.indexPath t i) (hs : .index t i ∈ sites) (hk : ix.keyOf row = .ok key)
    (handle : Handle) :
    (∃ e c', ix.add key handle = .error e ∧ Models l sites c' fs d ∧
      (Catalog.onIndex t i (Index.insert handle row)).apply c fs = (.error e, c', fs)) ∨
    ∃ ix' c' fs', ix.add key handle = .ok ix' ∧
      (Catalog.onIndex t i (Index.insert handle row)).apply c fs = (.ok (), c', fs') ∧
      Models l sites c' fs' (d.setIndex t i (some ix')) := by
  cases ha : ix.add key handle with
  | error e =>
    obtain ⟨c', hc', h'⟩ := h.onIndex (.inl hx) (Index.apply_insert_error hl hk ha) (.inr rfl)
      (h.apart.beside_self _) (Usable.filed (.inl hx) h)
    rw [Database.setIndex_self hx] at h'
    exact .inl ⟨e, c', rfl, h', hc'⟩
  | ok ix' =>
    obtain ⟨fs', hw, hb⟩ := h.apart.write (b := ix'.document.bytes) hs
    have hread := h.apart.read_write hs hw
    have hw : fs.write ix'.path ix'.document.bytes = .ok fs' := by
      rw [(Index.alike_add ha).path, hp]
      exact hw
    obtain ⟨c', hc', h'⟩ := h.onIndex (.inl hx) (Index.apply_insert_ok hl hk ha hw) (.inl fun _ => hs) hb
      fun _ _ => .of_loaded ((Index.add_description ha).2.2.2.2.2.trans hl) hread
    exact .inr ⟨ix', c', fs', rfl, hc', h'⟩

/-- A row is taken out of an index. -/
theorem deleteFrom (h : Models l sites c fs d) (hx : d.index t i = some ix) (hl : ix.loaded = true)
    (hp : ix.path = l.indexPath t i) (hs : .index t i ∈ sites) (hk : ix.keyOf row = .ok key)
    (handle : Handle) :
    ∃ c' fs', (Catalog.onIndex t i (Index.delete handle row)).apply c fs = (.ok (), c', fs') ∧
      Models l sites c' fs' (d.setIndex t i (some (ix.remove key handle))) := by
  obtain ⟨fs', hw, hb⟩ := h.apart.write (b := (ix.remove key handle).document.bytes) hs
  have hread := h.apart.read_write hs hw
  have hw : fs.write (ix.remove key handle).path (ix.remove key handle).document.bytes = .ok fs' := by
    rw [show (ix.remove key handle).path = l.indexPath t i from hp]
    exact hw
  obtain ⟨c', hc', h'⟩ := h.onIndex (.inl hx) (Index.apply_delete hl hk hw) (.inl fun _ => hs) hb
    fun _ _ => .of_loaded hl hread
  exact ⟨c', fs', hc', h'⟩

/-- An index is made of rows, or nothing is left of it but an entry that is still to be forgotten. -/
theorem createFrom (h : Models l sites c fs d) (hs : sites.Allows t i) (hx : d.index t i = none)
    (hdef : (d.definition t i).1 ≠ []) (entries : List (Handle × Row)) :
    (∃ e ix' c', (Catalog.onIndex t i (Index.create entries)).apply c fs = (.error e, c', fs) ∧
      ix'.path = l.indexPath t i ∧ ix'.loaded = false ∧ Models l sites c' fs (d.setIndex t i (some ix')) ∧
      (describedIndex l d t i).Blocked fs entries) ∨
    ∃ ix' c' fs', (Catalog.onIndex t i (Index.create entries)).apply c fs = (.ok (), c', fs') ∧
      (describedIndex l d t i).Alike ix' ∧ ix'.loaded = true ∧ ix'.Exact entries ∧
      Models l sites c' fs' (d.setIndex t i (some ix')) := by
  have hfound : Usable l d t i (describedIndex l d t i) := .inr ⟨hx, hdef, rfl⟩
  rcases Index.apply_create (describedIndex l d t i) fs entries with
    ⟨e, ix', ha, halike, hl, hb⟩ | ⟨ix', fs', ha, halike, hl, hexact, hexists, hw⟩
  · obtain ⟨c', hc', h'⟩ := h.onIndex hfound ha (.inr rfl) (h.apart.beside_self _) fun hexcl ho =>
      (Index.Filed.unloaded_iff hl).2 (hx ▸ h.filed hexcl t i ho)
    exact .inl ⟨e, ix', c', hc', halike.path, hl, h', hb⟩
  · obtain ⟨c', hc', h'⟩ := h.onIndex hfound ha (.inl hs) (h.apart.write_of_missing hexists hw)
      fun _ ho => .of_loaded hl (h.apart.read_write (s := .index t i) ho hw)
    exact .inr ⟨ix', c', fs', hc', halike, hl, hexact, h'⟩

/-! ## Removing an index -/

theorem forgetIndex (h : Models l sites c fs d) (hx : d.index t i = some ix) (hl : ix.loaded = false) : ∃ c',
    (Catalog.forgetIndex t i).apply c fs = (.ok (), c', fs) ∧ Models l sites c' fs (d.setIndex t i none) :=
  ⟨{ c with indexes := c.indexes.erase (t, i) }, rfl,
    h.replaceIndex (.inr rfl) (h.apart.beside_self _)
      (fun hexcl ho => (Index.Filed.unloaded_iff hl).1 (hx ▸ h.filed hexcl t i ho))
      fun _ => Bindings.get?_erase ..⟩

/-- An index is removed with its file, if the file system does not refuse to remove it. -/
theorem removeIndex (h : Models l sites c fs d) (hs : sites.Allows t i) (hfound : Usable l d t i ix)
    (hp : ix.path = l.indexPath t i) :
    (∃ e ix' c', e ≠ .notFound ∧ fs.remove (l.indexPath t i) = .error e ∧
      (Catalog.removeIndex t i).apply c fs = (.error (.file e), c', fs) ∧
      Models l sites c' fs (d.setIndex t i (some ix'))) ∨
    ∃ c' fs', (∀ e, fs.remove (l.indexPath t i) = .error e → e = .notFound) ∧
      (Catalog.removeIndex t i).apply c fs = (.ok (), c', fs') ∧
      Models l sites c' fs' (d.setIndex t i none) := by
  have hdrop := Index.apply_drop ix fs
  have hgone : ∀ fs', Index.drop.apply ix fs = (.ok (), { ix with map := ∅, loaded := false }, fs') →
      Beside l sites (l.indexPath t i) fs fs' → fs'.find (l.indexPath t i) = .error .notFound → ∃ c' fs',
        (Catalog.removeIndex t i).apply c fs = (.ok (), c', fs') ∧
        Models l sites c' fs' (d.setIndex t i none) := by
    intro fs' ha hb hnone
    obtain ⟨c₁, hc₁, h₁⟩ := h.onIndex hfound ha (.inl hs) hb fun _ _ => (Index.Filed.unloaded_iff rfl).2 hnone
    obtain ⟨c', hc', h'⟩ := h₁.forgetIndex (t := t) (i := i) (if_pos ⟨rfl, rfl⟩) rfl
    rw [Database.setIndex_setIndex] at h'
    exact ⟨c', fs', by rw [Catalog.removeIndex, Act.apply_bind_ok hc₁, hc'], h'⟩
  cases hr : fs.remove (l.indexPath t i) with
  | ok fs' =>
    have hr' : fs.remove ix.path = .ok fs' := by rw [hp, hr]
    rw [hr'] at hdrop
    obtain ⟨hb, hnone⟩ := h.apart.remove hr
    obtain ⟨c', fs', hc', h'⟩ := hgone fs' hdrop hb hnone
    exact .inr ⟨c', fs', nofun, hc', h'⟩
  | error e =>
    have hr' : fs.remove ix.path = .error e := by rw [hp, hr]
    rw [hr'] at hdrop
    by_cases he : e = .notFound
    · subst he
      obtain ⟨c', fs', hc', h'⟩ := hgone fs hdrop (h.apart.beside_self _) (Files.find_of_remove hr)
      exact .inr ⟨c', fs', fun e he => (Except.error.inj he).symm, hc', h'⟩
    · have hdrop : Index.drop.apply ix fs =
          (.error (.file e), { ix with map := ∅, loaded := false }, fs) := by
        rw [hdrop]
        cases e with
        | notFound => exact absurd rfl he
        | _ => rfl
      obtain ⟨c', hc', h'⟩ := h.onIndex hfound hdrop (.inr rfl) (h.apart.beside_self _) fun _ ho =>
        absurd (h.apart.remove_error ho hr) he
      exact .inl ⟨e, _, c', he, rfl, by rw [Catalog.removeIndex, Act.apply_bind_error hc'], h'⟩

end Models

end Rowbase
