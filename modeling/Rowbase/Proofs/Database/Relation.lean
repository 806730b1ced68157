import Rowbase.Proofs.Query.Table
import Rowbase.Proofs.Sites

/-! # Relations in their places

A relation serves under a name if it lies where the name says and holds a tape. Whatever is done to
it, it goes on to do so, and the files of all others stay as they are. -/
namespace Rowbase.Relation

open Files (Apart Beside)

variable {r r' : Relation} {l : Location} {sites : Sites} {fs fs' : Files} {name : String}
  {columns : List Column} {tape : Tape Row} {row : Row} {h : Handle} {path : String}

/-- Whether a relation has a name, columns and a place, and holds a tape there. -/
structure Serves (r : Relation) (l : Location) (fs : Files) (name : String) (columns : List Column)
    (tape : Tape Row) : Prop where
  name_eq : r.name = name
  columns_eq : r.columns = columns
  path_eq : r.file.path = l.relationPath name
  owner_eq : r.file.relation = name
  holds : ∃ id, r.Holds fs id tape

theorem Serves.find_of (hr : r.Serves l fs name columns tape) {id : Nat} (hh : r.Holds fs id tape) :
    fs.find (l.relationPath name) = .ok id := hr.path_eq ▸ hh.find

/-- The relation that lies in the same place and is not open serves as well. -/
theorem Serves.described (hr : r.Serves l fs name columns tape) :
    (describe name columns (l.relationPath name)).Serves l fs name columns tape := by
  obtain ⟨id, hh⟩ := hr.holds
  exact ⟨rfl, rfl, rfl, rfl, id, hh.closed hr.name_eq.symm hr.columns_eq.symm hr.path_eq.symm rfl⟩

theorem Serves.frame (hr : r.Serves l fs name columns tape) (hb : Beside l sites path fs fs')
    (hs : .relation name ∈ sites) (hne : fs.locate (l.relationPath name) ≠ fs.locate path) :
    r.Serves l fs' name columns tape := by
  obtain ⟨id, hh⟩ := hr.holds
  have hfind := hr.find_of hh
  have hfind' : fs'.find (l.relationPath name) = .ok id := (hb.find _ hs hne).trans hfind
  exact ⟨hr.name_eq, hr.columns_eq, hr.path_eq, hr.owner_eq, id, hh.frame (hr.path_eq.symm ▸ hfind')
    (hb.apart.stored _ hs id hfind') (hb.bytes _ hs hne id hfind)⟩

/-- Relations that serve in one place look the same. -/
theorem Serves.view_eq {tape' : Tape Row} (hr : r.Serves l fs name columns tape)
    (hr' : r'.Serves l fs name columns tape') : r'.view fs = r.view fs := by
  obtain ⟨id, hh⟩ := hr.holds
  obtain ⟨id', hh'⟩ := hr'.holds
  obtain rfl : id' = id := Except.ok.inj ((hr'.find_of hh').symm.trans (hr.find_of hh))
  rw [view, view, hh.opened, hh'.opened, Heap.BlockFile.openAt, Heap.BlockFile.openAt, hr.name_eq, hr'.name_eq,
    hr.columns_eq, hr'.columns_eq, hr.path_eq, hr'.path_eq, hr.owner_eq, hr'.owner_eq]

/-- What looks the same serves the same. -/
theorem Serves.of_view (hr : r.Serves l fs name columns tape) (hv : r'.view fs = r.view fs) :
    r'.Serves l fs name columns tape := by
  obtain ⟨id, hh⟩ := hr.holds
  simp only [view, Prod.mk.injEq] at hv
  obtain ⟨⟨hn, hc, hp⟩, ho⟩ := hv
  rw [hh.opened, Heap.BlockFile.opened] at ho
  by_cases hopen : r'.file.isOpen = true
  · rw [if_pos hopen] at ho
    have hfile := Except.ok.inj ho
    refine ⟨hn.trans hr.name_eq, hc.trans hr.columns_eq, hp.trans hr.path_eq, hfile ▸ hr.owner_eq, id, hp ▸ hh.find,
      hh.stored, .inr ?_, hh.intact, ?_⟩
    · rw [hfile]
      exact ⟨rfl, rfl⟩
    · have : r'.decode = r.decode := by
        funext data
        rw [decode, decode, hn, hc]
      rw [this]
      exact hh.reads
  · rw [if_neg hopen, hp, hh.find] at ho
    have hfile : (⟨r'.file.relation, r.file.path, some id, _⟩ : Heap.BlockFile) = _ := Except.ok.inj ho
    have howner : r'.file.relation = r.file.relation := (congrArg Heap.BlockFile.relation hfile :)
    refine ⟨hn.trans hr.name_eq, hc.trans hr.columns_eq, hp.trans hr.path_eq, howner.trans hr.owner_eq, id,
      hh.closed hn hc hp ?_⟩
    cases hf : r'.file.file with
    | none => rfl
    | some id' => exact absurd (by rw [Heap.BlockFile.isOpen, hf]; rfl) hopen

theorem Serves.ascending (hr : r.Serves l fs name columns tape) : tape.Ascending := by
  obtain ⟨id, hh⟩ := hr.holds
  exact hh.ascending

/-! ## Reading -/

theorem Serves.lists (hr : r.Serves l fs name columns tape) : r.Lists fs tape.live := by
  obtain ⟨id, hh⟩ := hr.holds
  refine ⟨?_, fun h row hm => ?_⟩
  · rw [Act.value, hh.select]
    change List.map Prod.fst <$> tape.live.filterM (fun _ => (pure true : Except StorageError Bool)) = _
    rw [filterM_pure, List.filter_true]
    rfl
  · rw [Act.value, hh.project, hh.rowIn_eq_ok_iff.2 hm]
    rfl

/-- A row behind a handle, cut down to some columns. -/
theorem Serves.value_project (hr : r.Serves l fs name columns tape) (hm : (h, row) ∈ tape.live)
    (names : List String) : (project h names).value r fs = row.restrict name names := by
  obtain ⟨id, hh⟩ := hr.holds
  rw [Act.value, hh.project, hh.rowIn_eq_ok_iff.2 hm, hr.name_eq]
  rfl

theorem Serves.stored (hr : r.Serves l fs name columns tape) (hm : (h, row) ∈ tape.live) :
    row.Stored columns := hr.columns_eq ▸ hr.lists.stored hm

/-- What selecting finds where every row is a kind of entry. -/
theorem Serves.value_select_image {α : Type} {f : α → Row} {entries : Tape α} {condition : Row}
    {p : α → Bool} (hr : r.Serves l fs name columns (entries.image f))
    (hc : condition.FitsColumns columns) (hp : ∀ a, (f a).satisfies condition = p a) :
    (select (some condition)).value r fs =
      .ok ((entries.live.filter fun e => p e.2).map Prod.fst) := by
  rw [hr.lists.value_select (hr.columns_eq.symm ▸ hc), Tape.live_image, List.filter_map, List.map_map]
  refine congrArg (fun l => Except.ok (List.map Prod.fst l)) ?_
  exact List.filter_congr fun e _ => hp e.2

/-! ## What reading depends on -/

section
variable {fs' : Files} {tape' : Tape Row}

theorem Serves.value_select (hr : r.Serves l fs name columns tape) (condition : Option Row) :
    (select condition).value r fs =
      List.map Prod.fst <$> tape.live.filterM fun e => r.picks condition e.2 := by
  obtain ⟨id, hh⟩ := hr.holds
  rw [Act.value, hh.select]

/-- Two relations with the same rows find the same. -/
theorem Serves.select_congr (hr : r.Serves l fs name columns tape)
    (hr' : r'.Serves l fs' name columns tape') (hl : tape'.live = tape.live) (condition : Option Row) :
    (select condition).value r' fs' = (select condition).value r fs := by
  rw [hr.value_select, hr'.value_select, hl]
  have hpicks : r'.picks condition = r.picks condition := by
    funext row
    cases condition with
    | none => rfl
    | some condition => rw [picks, picks, hr.name_eq, hr'.name_eq]
  rw [hpicks]

theorem Serves.select_sublist (hr : r.Serves l fs name columns tape) {condition : Option Row}
    {hs : List Handle} (h : (select condition).value r fs = .ok hs) :
    hs.Sublist (tape.live.map Prod.fst) := by
  rw [hr.value_select] at h
  obtain ⟨rows, hrows, rfl⟩ := map_eq_ok.1 h
  exact (sublist_of_filterM_eq_ok hrows).map _

theorem value_keep (condition : Row) (hs : List Handle) (r : Relation) (fs : Files) :
    (keep condition hs).value r fs =
      hs.filterM fun h => (project h []).value r fs >>= fun row => row.meets condition r.name := by
  rw [keep, Act.value_filterM fun h => (reads_project h []).bind fun row =>
    reads_look_description fun name _ => row.meets condition name]
  refine filterM_congr fun h _ => ?_
  rw [(reads_project h []).value_bind fun row => reads_look_description fun name _ =>
    row.meets condition name]
  rfl

theorem Serves.keep_congr (hr : r.Serves l fs name columns tape)
    (hr' : r'.Serves l fs' name columns tape') (hl : tape'.live = tape.live) (condition : Row)
    {hs : List Handle} (hm : ∀ h ∈ hs, h ∈ tape.live.map Prod.fst) :
    (keep condition hs).value r' fs' = (keep condition hs).value r fs := by
  rw [value_keep, value_keep]
  refine filterM_congr fun h hh => ?_
  obtain ⟨e, he, rfl⟩ := List.mem_map.1 (hm h hh)
  rw [hr.value_project he, hr'.value_project (hl.symm ▸ he), hr.name_eq, hr'.name_eq]

theorem keep_sublist {condition : Row} {hs kept : List Handle}
    (h : (keep condition hs).value r fs = .ok kept) : kept.Sublist hs := by
  rw [value_keep] at h
  exact sublist_of_filterM_eq_ok h

/-- What is said of the name and the columns alone is said of every relation with them. -/
theorem Serves.look_congr {α : Type} (hr : r.Serves l fs name columns tape)
    (hr' : r'.Serves l fs' name columns tape') (f : String → List Column → Except StorageError α) :
    (Act.look fun r _ => f r.name r.columns).value r' fs' =
      (Act.look fun r _ => f r.name r.columns).value r fs := by
  change f r'.name r'.columns = f r.name r.columns
  rw [hr.name_eq, hr'.name_eq, hr.columns_eq, hr'.columns_eq]

end

/-! ## Writing -/

theorem record_congr (hn : r'.name = r.name) (hc : r'.columns = r.columns) (row : Row) :
    r'.record row = r.record row := by
  have hcell : r'.cell row = r.cell row := by
    funext c
    rw [cell, cell, hn]
  rw [record, record, complete, complete, columnNames, columnNames, hn, hc, hcell]

/-- A row is inserted just if it makes a record. -/
theorem Serves.insert (hr : r.Serves l fs name columns tape) (ha : Apart l sites fs)
    (hs : .relation name ∈ sites) (row : Row) :
    (∃ e r', r.record row = .error e ∧ (insert row).apply r fs = (.error e, r', fs) ∧
      r'.Serves l fs name columns tape) ∨
    ∃ data h r' fs', r.record row = .ok data ∧ (insert row).apply r fs = (.ok h, r', fs') ∧
      Beside l sites (l.relationPath name) fs fs' ∧ fs.SameTree fs' ∧
      r'.Serves l fs' name columns (tape ++ [(h, some (Row.filled columns row))]) := by
  obtain ⟨id, hh⟩ := hr.holds
  cases hd : r.record row with
  | error e =>
    exact .inl ⟨e, _, rfl, hh.insert_refused hd, hr.name_eq, hr.columns_eq, hr.path_eq, hr.owner_eq, id, hh.openAt⟩
  | ok data =>
    obtain ⟨h, bytes, hx, hh'⟩ := hh.insert_stored hd
    rw [hr.columns_eq] at hh'
    exact .inr ⟨data, h, _, _, rfl, hx, ha.setBytes hs (hr.find_of hh),
      Files.sameTree_setBytes, hr.name_eq, hr.columns_eq, hr.path_eq, hr.owner_eq, id, hh'⟩

/-- Deleting clears a handle, if there is a row behind it, and else does nothing. -/
theorem Serves.delete (hr : r.Serves l fs name columns tape) (ha : Apart l sites fs)
    (hs : .relation name ∈ sites) (h : Handle) :
    ∃ res r' fs', (Relation.delete h).apply r fs = (res, r', fs') ∧
      ((∃ row, (h, row) ∈ tape.live) → res = .ok ()) ∧
      Beside l sites (l.relationPath name) fs fs' ∧ r'.Serves l fs' name columns (tape.clear h) := by
  obtain ⟨id, hh⟩ := hr.holds
  by_cases hl : ∃ row, (h, row) ∈ tape.live
  · obtain ⟨row, hm⟩ := hl
    obtain ⟨bytes, hx, -, hh'⟩ := hh.delete hm
    exact ⟨_, _, _, hx, fun _ => rfl, ha.setBytes hs (hr.find_of hh),
      hr.name_eq, hr.columns_eq, hr.path_eq, hr.owner_eq, id, hh'⟩
  · have hm : ∀ row, (h, row) ∉ tape.live := fun row hm => hl ⟨row, hm⟩
    obtain ⟨e, hx⟩ := hh.delete_missing hm
    refine ⟨_, _, _, hx, fun hc => absurd hc hl, ha.beside_self _, ?_⟩
    rw [Tape.clear_of_not_live hm]
    exact ⟨hr.name_eq, hr.columns_eq, hr.path_eq, hr.owner_eq, id, hh.openAt⟩

/-- A relation is made where there is none. -/
theorem create_serves (ha : Apart l sites fs) (hs : .relation name ∈ sites)
    (hf : fs.find (l.relationPath name) = .error .notFound) (hn : r.name = name) (hc : r.columns = columns)
    (hp : r.file.path = l.relationPath name) (ho : r.file.relation = name) :
    ∃ r' fs', create.apply r fs = (.ok (), r', fs') ∧
      Beside l sites (l.relationPath name) fs fs' ∧ r'.Serves l fs' name columns [] := by
  obtain ⟨id, fs₁, hcreate⟩ := ha.create hs hf
  obtain ⟨bytes, hx, hh⟩ := create_of_create
    (show fs.create r.file.path = .ok (id, fs₁) by rw [hp]; exact hcreate)
  obtain ⟨names, hl, hnode, rfl, rfl⟩ := Files.create_eq_ok.1 hcreate
  have hl := (Files.locateFile_eq_ok.1 hl).2
  have hb := ha.push (b := .empty) hl hnode
  have hb' := hb.apart.setBytes (b := bytes) hs (Files.find_push hl hnode)
  exact ⟨_, _, hx, hb.trans hb' ha ⟨names, hl⟩, hn, hc, hp, ho, _, hh⟩

theorem createIfMissing_serves (ha : Apart l sites fs) (hs : .relation name ∈ sites)
    (hf : fs.find (l.relationPath name) = .error .notFound) (hn : r.name = name) (hc : r.columns = columns)
    (hp : r.file.path = l.relationPath name) (ho : r.file.relation = name) :
    ∃ r' fs', createIfMissing.apply r fs = (.ok (), r', fs') ∧
      Beside l sites (l.relationPath name) fs fs' ∧ r'.Serves l fs' name columns [] := by
  have hlocated := ha.locate hs
  rw [Location.pathOf] at hlocated
  have hexists := Files.exists?_of_missing hlocated hf
  have hlook : (Act.look fun r fs => Except.ok (r.file.exists? fs) :
      Act StorageError Relation Bool).apply r fs = (.ok false, r, fs) := by
    rw [Act.apply_look, Heap.BlockFile.exists?, hp, hexists]
  rw [createIfMissing, Act.apply_bind_ok hlook, if_neg Bool.false_ne_true]
  exact create_serves ha hs hf hn hc hp ho

/-- A relation that is there is opened. -/
theorem createIfMissing_of_serves (hr : r.Serves l fs name columns tape) :
    ∃ r', createIfMissing.apply r fs = (.ok (), r', fs) ∧ r'.Serves l fs name columns tape := by
  obtain ⟨id, hh⟩ := hr.holds
  have hexists : fs.exists? r.file.path = true := Files.exists?_of_find hh.find
  have hlook : (Act.look fun r fs => Except.ok (r.file.exists? fs) :
      Act StorageError Relation Bool).apply r fs = (.ok true, r, fs) := by
    rw [Act.apply_look, Heap.BlockFile.exists?, hexists]
  refine ⟨r.openAt id (Heap.blockCount (fs.bytes id)), ?_, hr.name_eq, hr.columns_eq, hr.path_eq, hr.owner_eq, id,
    hh.openAt⟩
  rw [createIfMissing, Act.apply_bind_ok hlook, if_pos rfl, hh.opening]

theorem apply_drop (r : Relation) (fs : Files) : drop.apply r fs = match r.file.remove fs with
    | .ok fs' => (.ok (), { r with file := r.file.dropped }, fs')
    | .error e => (.error e, { r with file := r.file.dropped }, fs) := by
  rw [drop, Act.apply_bind_ok (Act.apply_update _ r fs), Act.apply_change]
  have hremove : r.file.dropped.remove fs = r.file.remove fs := rfl
  dsimp only
  rw [hremove]
  cases r.file.remove fs <;> rfl

/-- A relation is dropped with its file. -/
theorem drop_removes (ha : Apart l sites fs) {id : Nat} (hf : fs.find (l.relationPath name) = .ok id)
    (hp : r.file.path = l.relationPath name) :
    ∃ r' fs', drop.apply r fs = (.ok (), r', fs') ∧ Beside l sites (l.relationPath name) fs fs' ∧
      fs'.find (l.relationPath name) = .error .notFound := by
  obtain ⟨names, hl, hn⟩ := Files.find_eq_ok.1 hf
  have hremove := Files.remove_eq_ok.2 ⟨names, id, hl, hn, rfl⟩
  obtain ⟨hb, hf⟩ := ha.remove hremove
  have hfile : r.file.remove fs = .ok { fs with nodes := fs.nodes.erase names } := by
    rw [Heap.BlockFile.remove, hp, hremove]
  exact ⟨_, _, by rw [apply_drop, hfile], hb, hf⟩

end Rowbase.Relation
