import Rowbase.Proofs.Database.Indices
import Rowbase.Proofs.Lockstep

/-! # Calls of an index

Two indices of one description with the same entries answer every call alike, also if only one of them is loaded and
the other has its entries from the file. So a change of an index by one row that fails goes unnoticed by all calls
after it, unless the file system did not let the index be saved: then the index keeps the change. -/
namespace Rowbase.Index

open Act

variable {ix ix' : Index} {fs fs' : Files} {key : Key}

/-! ## Indices that answer alike -/

/-- Whether two indices of one description have the same entries and are both loaded or both not. -/
structure Twins (ix ix' : Index) : Prop where
  alike : ix.Alike ix'
  loaded : ix'.loaded = ix.loaded
  map : ix'.map.Equiv ix.map

/-- Whether two indices of one description are both loaded, with the same entries, or both not. -/
structure Peers (ix ix' : Index) : Prop where
  alike : ix.Alike ix'
  loaded : ix'.loaded = ix.loaded
  map : ix.loaded = true → ix'.map.Equiv ix.map

/-- Whether two indices of one description come to have the same entries when they are loaded, or cannot be loaded for
the same cause. -/
structure Resembles (ix ix' : Index) (fs : Files) : Prop where
  alike : ix.Alike ix'
  contents : (∃ e, ix.contents fs = .error e ∧ ix'.contents fs = .error e) ∨
    ∃ map map', ix.contents fs = .ok map ∧ ix'.contents fs = .ok map' ∧ map'.Equiv map

/-- What is in the map does not count for the description. -/
theorem Alike.recast (ha : Alike ix ix') (map map' : Std.TreeMap Key (List Handle) Key.compare)
    (loaded loaded' : Bool) : Alike { ix with map, loaded } { ix' with map := map', loaded := loaded' } :=
  ⟨ha.table, ha.name, ha.columns, ha.unique, ha.path⟩

theorem Twins.refl (ix : Index) : Twins ix ix := ⟨.refl ix, rfl, .rfl⟩

theorem Twins.peers (ht : Twins ix ix') : Peers ix ix' := ⟨ht.alike, ht.loaded, fun _ => ht.map⟩

theorem Peers.resembles (hp : Peers ix ix') (fs : Files) : Resembles ix ix' fs := by
  refine ⟨hp.alike, ?_⟩
  by_cases hl : ix.loaded = true
  · exact .inr ⟨_, _, contents_of_loaded hl, contents_of_loaded (hp.loaded.trans hl), hp.map hl⟩
  · have hl : ix.loaded = false := by simpa using hl
    have hc : ix'.contents fs = ix.contents fs := by
      rw [contents_of_unloaded hl, contents_of_unloaded (hp.loaded.trans hl), hp.alike.path, hp.alike.name,
        hp.alike.table]
    cases hm : ix.contents fs with
    | error e => exact .inl ⟨e, rfl, hc.trans hm⟩
    | ok map => exact .inr ⟨map, map, rfl, hc.trans hm, .rfl⟩

theorem Twins.handles (ht : Twins ix ix') (key : Key) : ix'.handles key = ix.handles key := ht.map.getD_eq

theorem Twins.document (ht : Twins ix ix') : ix'.document = ix.document := by
  rw [Index.document, Index.document, ht.alike.unique, ht.alike.columns, ht.map.toList_eq]

theorem Twins.add (ht : Twins ix ix') (key : Key) (h : Handle) :
    (∃ e, ix.add key h = .error e ∧ ix'.add key h = .error e) ∨
      ∃ a a', ix.add key h = .ok a ∧ ix'.add key h = .ok a' ∧ Twins a a' := by
  by_cases hfull : (ix.unique && !key.hasNull && !(ix.handles key).isEmpty) = true
  · refine .inl ⟨.duplicateKey ix.name key.shown, by rw [Index.add, if_pos hfull], ?_⟩
    rw [Index.add, ht.alike.unique, ht.alike.name, ht.handles, if_pos hfull]
  · refine .inr ⟨{ ix with map := ix.map.insert key (ix.handles key ++ [h]) },
      { ix' with map := ix'.map.insert key (ix.handles key ++ [h]) }, by rw [Index.add, if_neg hfull], ?_,
      ht.alike.recast _ _ _ _, ht.loaded, ht.map.insert key _⟩
    have hfull' : ¬ (ix'.unique && !key.hasNull && !(ix'.handles key).isEmpty) = true := by
      rwa [ht.alike.unique, ht.handles]
    rw [Index.add, if_neg hfull', ht.handles]

theorem Twins.remove (ht : Twins ix ix') (key : Key) (h : Handle) : Twins (ix.remove key h) (ix'.remove key h) := by
  refine ⟨ht.alike.recast _ _ _ _, ht.loaded, ?_⟩
  rw [Index.remove, Index.remove, ht.handles]
  dsimp only
  split
  · exact ht.map.erase key
  · exact ht.map.insert key _

/-! ## Calls in lockstep -/

theorem lockstep_load : Lockstep Resembles load fun res ix ix' _ => match res with
    | .ok _ => Twins ix ix'
    | .error _ => Peers ix ix' := by
  intro ix ix' fs hr
  rcases hr.contents with ⟨e, hc, hc'⟩ | ⟨map, map', hc, hc', hm⟩
  · refine ⟨.error e, ix, ix', fs, by rw [apply_load, hc], by rw [apply_load, hc'], hr.alike, ?_, fun hl => ?_⟩
    · have hunloaded : ∀ {j : Index}, j.contents fs = .error e → j.loaded = false := fun hj =>
        Bool.eq_false_iff.2 fun hl => nomatch hj.symm.trans (contents_of_loaded hl)
      rw [hunloaded hc, hunloaded hc']
    · rw [contents_of_loaded hl] at hc
      cases hc
  · exact ⟨.ok (), ix.withMap map, ix'.withMap map', fs, by rw [apply_load, hc], by rw [apply_load, hc'],
      hr.alike.recast _ _ _ _, rfl, hm⟩

theorem lockstep_save : Lockstep (fun ix ix' _ => Twins ix ix') save fun _ ix ix' _ => Twins ix ix' := by
  refine lockstep_change id fun ix ix' fs ht => ?_
  rw [ht.alike.path, ht.document]
  cases fs.write ix.path ix.document.bytes with
  | error e => exact .inl ⟨.file e, rfl, rfl⟩
  | ok fs' => exact .inr ⟨(), ix, ix', fs', rfl, rfl, ht⟩

theorem lockstep_addRow (h : Handle) (row : Row) :
    Lockstep (fun ix ix' _ => Twins ix ix') (addRow h row) fun _ ix ix' _ => Twins ix ix' := by
  refine lockstep_change id fun ix ix' fs ht => ?_
  rw [ht.alike.keyOf]
  cases ix.keyOf row with
  | error e => exact .inl ⟨e, rfl, rfl⟩
  | ok key =>
    rcases ht.add key h with ⟨e, ha, ha'⟩ | ⟨a, a', ha, ha', ht'⟩
    · refine .inl ⟨e, ?_, ?_⟩
      · exact congrArg (· >>= fun a => .ok ((), a, fs)) ha
      · exact congrArg (· >>= fun a => .ok ((), a, fs)) ha'
    · refine .inr ⟨(), a, a', fs, ?_, ?_, ht'⟩
      · exact congrArg (· >>= fun a => .ok ((), a, fs)) ha
      · exact congrArg (· >>= fun a => .ok ((), a, fs)) ha'

theorem lockstep_insert (h : Handle) (row : Row) :
    Lockstep Resembles (insert h row) fun _ ix ix' _ => Peers ix ix' :=
  lockstep_load.bind (fun _ => (lockstep_addRow h row).bind (fun _ => lockstep_save.mono id Twins.peers) Twins.peers) id

theorem lockstep_delete (h : Handle) (row : Row) :
    Lockstep Resembles (delete h row) fun _ ix ix' _ => Peers ix ix' := by
  refine lockstep_load.bind (fun _ => Lockstep.bind (Q := fun _ ix ix' _ => Twins ix ix')
    (lockstep_change id fun ix ix' fs ht => ?_) (fun _ => lockstep_save.mono id Twins.peers) Twins.peers) id
  rw [ht.alike.keyOf]
  cases ix.keyOf row with
  | error e => exact .inl ⟨e, rfl, rfl⟩
  | ok key => exact .inr ⟨(), _, _, fs, rfl, rfl, ht.remove key h⟩

theorem lockstep_load_look {α : Type} {f : Index → Files → Except StorageError α}
    (hf : ∀ ix ix' fs, Twins ix ix' → f ix fs = f ix' fs) :
    Lockstep Resembles (do load; look f) fun _ ix ix' _ => Peers ix ix' :=
  lockstep_load.bind (fun _ => (lockstep_look hf).mono id Twins.peers) id

theorem lockstep_lookup (row : Row) : Lockstep Resembles (lookup row) fun _ ix ix' _ => Peers ix ix' := by
  refine lockstep_load_look fun ix ix' fs ht => ?_
  rw [ht.alike.keyOf]
  simp only [ht.handles]

theorem lockstep_drop : Lockstep Resembles drop fun _ ix ix' _ => Peers ix ix' := by
  refine Lockstep.bind (Q := fun _ ix ix' _ => Peers ix ix')
    (lockstep_update fun ix ix' fs hr => ⟨hr.alike.recast _ _ _ _, rfl, nofun⟩)
    (fun _ => lockstep_change id fun ix ix' fs hp => ?_) id
  rw [hp.alike.path]
  cases fs.remove ix.path with
  | ok fs' => exact .inr ⟨(), ix, ix', fs', rfl, rfl, hp⟩
  | error e =>
    cases e with
    | notFound => exact .inr ⟨(), ix, ix', fs, rfl, rfl, hp⟩
    | _ => exact .inl ⟨_, rfl, rfl⟩

/-- An index that is not loaded cannot be loaded where nothing lies at its path. -/
theorem contents_of_missing (hl : ix.loaded = false) (he : fs.exists? ix.path = false) :
    ∃ e, ix.contents fs = .error e := by
  rw [contents_of_unloaded hl]
  cases hr : fs.read ix.path with
  | error e => cases e <;> exact ⟨_, rfl⟩
  | ok bytes =>
    obtain ⟨id, hf, -⟩ := bind_eq_ok.1 hr
    rw [Files.exists?_of_find hf] at he
    cases he

theorem lockstep_create (entries : List (Handle × Row)) :
    Lockstep Resembles (create entries) fun _ => Resembles := by
  have hlook : Lockstep Resembles (Act.look fun ix fs => if fs.exists? ix.path then
      .error (.relation (.indexExists ix.name ix.table)) else .ok () : Act StorageError Index Unit)
      fun res ix ix' fs => Resembles ix ix' fs ∧ ((∃ u, res = .ok u) → fs.exists? ix.path = false) := by
    intro ix ix' fs hr
    refine ⟨_, ix, ix', fs, apply_look _ ix fs, ?_, hr, ?_⟩
    · rw [apply_look, hr.alike.path, hr.alike.name, hr.alike.table]
    · rintro ⟨u, hu⟩
      split at hu
      · cases hu
      · rename_i he
        simpa using he
  have hrows : Lockstep (fun ix ix' _ => Twins ix ix') (do
      entries.forM fun e => addRow e.1 e.2
      save
      Act.update fun ix => { ix with loaded := true }) fun _ ix ix' _ => Twins ix ix' :=
    (lockstep_forM fun e _ => lockstep_addRow e.1 e.2).bind (fun _ => lockstep_save.bind
      (fun _ => lockstep_update fun ix ix' fs ht => ⟨ht.alike.recast _ _ _ _, rfl, ht.map⟩) id) id
  refine hlook.bind (fun _ => Lockstep.bind (Q := fun _ ix ix' _ => Twins ix ix')
    (lockstep_update fun ix ix' fs hr => ?_)
    (fun _ => hrows.mono id fun ht => ht.peers.resembles _) fun ht => ht.peers.resembles _) And.left
  -- an index that is loaded is not like one that is not, where there is no file to load
  have hfree := hr.2 ⟨(), rfl⟩
  refine ⟨hr.1.alike.recast _ _ _ _, ?_, .rfl⟩
  cases hl : ix.loaded <;> cases hl' : ix'.loaded <;> try rfl
  · obtain ⟨e, he⟩ := contents_of_missing hl hfree
    rcases hr.1.contents with ⟨e', -, hc⟩ | ⟨_, _, hc, -⟩
    · exact nomatch hc.symm.trans (contents_of_loaded hl')
    · exact nomatch hc.symm.trans he
  · obtain ⟨e, he⟩ := contents_of_missing hl' (hr.1.alike.path ▸ hfree)
    rcases hr.1.contents with ⟨e', hc, -⟩ | ⟨_, _, -, hc, -⟩
    · exact nomatch hc.symm.trans (contents_of_loaded hl)
    · exact nomatch hc.symm.trans he

/-- What can be asked of an index. -/
inductive Call where
  | create (entries : List (Handle × Row))
  | drop
  | insert (h : Handle) (row : Row)
  | delete (h : Handle) (row : Row)
  | lookup (row : Row)

/-- Makes a call. Only a look-up returns handles. -/
def Call.act : Call → Act StorageError Index (List Handle)
  | create entries => do Index.create entries; return []
  | drop => do Index.drop; return []
  | insert h row => do Index.insert h row; return []
  | delete h row => do Index.delete h row; return []
  | lookup row => Index.lookup row

/-- Makes calls one after the other, whether they fail or not. -/
def serve (calls : List Call) : Act StorageError Index (List (Except StorageError (List Handle))) :=
  calls.mapM fun call => call.act.caught

theorem lockstep_call (call : Call) : Lockstep Resembles call.act fun _ => Resembles := by
  have hpeers : ∀ {α : Type} {x : Act StorageError Index α}, Lockstep Resembles x (fun _ ix ix' _ => Peers ix ix') →
      Lockstep Resembles x fun _ => Resembles := fun hx => hx.mono id fun hp => hp.resembles _
  cases call with
  | create entries => exact (lockstep_create entries).bind (fun _ => lockstep_pure _) id
  | drop => exact (hpeers lockstep_drop).bind (fun _ => lockstep_pure _) id
  | insert h row => exact (hpeers (lockstep_insert h row)).bind (fun _ => lockstep_pure _) id
  | delete h row => exact (hpeers (lockstep_delete h row)).bind (fun _ => lockstep_pure _) id
  | lookup row => exact hpeers (lockstep_lookup row)

/-- Indices that are alike with the files at hand answer all calls alike, and leave the same files. -/
theorem lockstep_serve (calls : List Call) : Lockstep Resembles (serve calls) fun _ => Resembles :=
  lockstep_mapM (fun call => (lockstep_call call).caught) calls

/-! ## Changes that fail -/

/-- A change of an index by one row. -/
inductive Revision where
  | insert (h : Handle) (row : Row)
  | delete (h : Handle) (row : Row)

namespace Revision

def row : Revision → Row
  | insert _ row => row
  | delete _ row => row

/-- Changes the index and saves it. -/
def act : Revision → Act StorageError Index Unit
  | insert h row => Index.insert h row
  | delete h row => Index.delete h row

/-- The index with the change under a key. -/
def revised : Revision → Index → Key → Except StorageError Index
  | insert h _, ix, key => ix.add key h
  | delete h _, ix, key => .ok (ix.remove key h)

/-- The handles under the key of the row after the change. -/
def handles : Revision → List Handle → List Handle
  | insert h _, hs => hs ++ [h]
  | delete h _, hs => hs.filter (· ≠ h)

/-- What looking up a row finds after the change, by what it found before. -/
def found (v : Revision) (ix : Index) (row : Row) (hs : List Handle) : List Handle :=
  match ix.keyOf row with
  | .ok key => if ix.hasKey key v.row && !key.hasNull then v.handles hs else hs
  | .error _ => hs

end Revision

theorem Revision.act_eq (v : Revision) : v.act = (do
    load
    Act.change fun ix fs => do return ((), ← v.revised ix (← ix.keyOf v.row), fs)
    save) := by
  cases v <;> rfl

theorem Revision.handles_revised {v : Revision} (hv : v.revised ix key = .ok ix') (k : Key) :
    ix'.handles k = if key = k then v.handles (ix.handles key) else ix.handles k := by
  cases v with
  | insert h row => exact handles_add hv k
  | delete h row =>
    cases hv
    exact handles_remove k

theorem Revision.alike_revised {v : Revision} (hv : v.revised ix key = .ok ix') :
    ix.Alike ix' ∧ ix'.loaded = ix.loaded := by
  cases v with
  | insert h row => exact ⟨alike_add hv, (add_description hv).2.2.2.2.2⟩
  | delete h row =>
    cases hv
    exact ⟨alike_remove, rfl⟩

/-- An index whose map is at hand is changed and saved, if the row has a key that can be changed. -/
theorem Revision.apply_act {map : Std.TreeMap Key (List Handle) Key.compare} (v : Revision)
    (hc : ix.contents fs = .ok map) : v.act.apply ix fs =
      match (ix.withMap map).keyOf v.row >>= v.revised (ix.withMap map) with
      | .error e => (.error e, ix.withMap map, fs)
      | .ok ix' => save.apply ix' fs := by
  rw [v.act_eq, apply_bind_ok ((apply_load ix fs).trans (by rw [hc])), apply_bind, apply_change, ← bind_assoc]
  cases (ix.withMap map).keyOf v.row >>= v.revised (ix.withMap map) <;> rfl

/-- A change that fails changes no file. It fails before it comes to saving, or because the index cannot be saved. -/
theorem Revision.act_error {v : Revision} {e : StorageError} (hx : v.act.apply ix fs = (.error e, ix', fs')) :
    fs' = fs ∧ (ix.Resembles ix' fs ∨ ∃ map key fault, ix.contents fs = .ok map ∧ ix.keyOf v.row = .ok key ∧
      v.revised (ix.withMap map) key = .ok ix' ∧ fs.write ix.path ix'.document.bytes = .error fault ∧
      e = .file fault) := by
  cases hc : ix.contents fs with
  | error e₁ =>
    rw [v.act_eq, apply_bind_error ((apply_load ix fs).trans (by rw [hc]))] at hx
    cases hx
    exact ⟨rfl, .inl ((Twins.refl ix).peers.resembles fs)⟩
  | ok map =>
    have hloaded : ix.Resembles (ix.withMap map) fs :=
      ⟨⟨rfl, rfl, rfl, rfl, rfl⟩, .inr ⟨map, map, hc, contents_of_loaded rfl, .rfl⟩⟩
    rw [v.apply_act hc] at hx
    cases hr : (ix.withMap map).keyOf v.row >>= v.revised (ix.withMap map) with
    | error e₁ =>
      rw [hr] at hx
      cases hx
      exact ⟨rfl, .inl hloaded⟩
    | ok ix₁ =>
      obtain ⟨key, hk, hv⟩ := bind_eq_ok.1 hr
      rw [hr] at hx
      dsimp only at hx
      cases hw : fs.write ix₁.path ix₁.document.bytes with
      | ok fs₁ =>
        rw [apply_save hw] at hx
        cases hx
      | error fault =>
        rw [apply_save_error hw] at hx
        cases hx
        rw [(Revision.alike_revised hv).1.path] at hw
        exact ⟨rfl, .inr ⟨map, key, fault, rfl, hk, hv, hw, rfl⟩⟩

/-- How a change of an index by one row fails, which changes no file: no call after it tells it from one that was never
tried, or the file system did not let the index be saved, and every look-up after it answers as if it had. -/
inductive Fails (v : Revision) (ix : Index) (fs : Files) (ix' : Index) : StorageError → Prop
  | unnoticed {e : StorageError} (answers : ∀ calls, ((serve calls).apply ix' fs).1 = ((serve calls).apply ix fs).1)
      (files : ∀ calls, ((serve calls).apply ix' fs).2.2 = ((serve calls).apply ix fs).2.2) : Fails v ix fs ix' e
  | unsaved {fault : Files.Fault} (refused : fs.write ix.path ix'.document.bytes = .error fault)
      (kept : ∀ row fs₁, (lookup row).value ix' fs₁ = v.found ix row <$> (lookup row).value ix fs) :
      Fails v ix fs ix' (.file fault)

theorem value_lookup (ix : Index) (fs : Files) (row : Row) : (lookup row).value ix fs =
    ix.contents fs >>= fun map => ix.keyOf row >>= fun key =>
      .ok (if key.hasNull then [] else (ix.withMap map).handles key) := value_load_look _

/-- A change that fails goes unnoticed, unless the file system did not let the index be saved. -/
theorem revision_fails {v : Revision} {e : StorageError} (hx : v.act.apply ix fs = (.error e, ix', fs')) :
    fs' = fs ∧ Fails v ix fs ix' e := by
  obtain ⟨rfl, hr | ⟨map, key, fault, hc, hk, hv, hw, rfl⟩⟩ := v.act_error hx
  · refine ⟨rfl, .unnoticed (fun calls => ?_) fun calls => ?_⟩ <;>
      obtain ⟨answers, _, _, _, hs, ht, -⟩ := lockstep_serve calls ix ix' _ hr <;> rw [hs, ht]
  · refine ⟨rfl, .unsaved hw fun row fs₁ => ?_⟩
    obtain ⟨halike, hl⟩ := Revision.alike_revised hv
    rw [value_lookup, value_lookup, hc, contents_of_loaded hl, halike.keyOf]
    change (ix.keyOf row >>= fun k => _) = v.found ix row <$> (ix.keyOf row >>= fun k => _)
    cases hrow : ix.keyOf row with
    | error e => rfl
    | ok k =>
      have hhandles : (ix'.withMap ix'.map).handles k = _ := Revision.handles_revised hv k
      refine congrArg Except.ok ?_
      rw [Revision.found, hrow, hhandles]
      dsimp only
      rw [hasKey_eq hk]
      cases hnull : k.hasNull <;> by_cases he : key = k <;> simp [he]

/-- A loaded index without entries. -/
def idle : Index :=
  { table := "t", name := "i", columns := ["x"], unique := true, path := "t.idx", loaded := true }

/-- Files with a directory where the index is to be saved. -/
def occupied : Files := ((Files.fresh []).makeDirectories "t.idx").2

/-- A row that the index has room for. -/
def refusedRow : Row := .ofList [("x", .integer 1)]

theorem write_occupied (bytes : ByteArray) : occupied.write "t.idx" bytes = .error .isDirectory := by
  have hl : occupied.locateFile "t.idx" = .ok ["t.idx"] := by decide +kernel
  have hn : occupied.node? ["t.idx"] = some .directory := by decide +kernel
  rw [Files.write, hl]
  dsimp only [bind, Except.bind]
  rw [hn]

theorem write_fresh (bytes : ByteArray) :
    (Files.fresh []).write "t.idx" bytes = .ok ((Files.fresh []).push ["t.idx"] bytes) := by
  have hl : (Files.fresh []).locateFile "t.idx" = .ok ["t.idx"] := by decide +kernel
  have hn : (Files.fresh []).node? ["t.idx"] = none := by decide +kernel
  rw [Files.write, hl]
  dsimp only [bind, Except.bind]
  rw [hn]
  rfl

theorem revision_fails_occupied : ∃ ix',
    (Revision.insert ⟨1, 1⟩ refusedRow).act.apply idle occupied = (.error (.file .isDirectory), ix', occupied) ∧
    Fails (.insert ⟨1, 1⟩ refusedRow) idle occupied ix' (.file .isDirectory) ∧
    (lookup refusedRow).value idle occupied = .ok [] ∧ (lookup refusedRow).value ix' occupied = .ok [⟨1, 1⟩] := by
  obtain ⟨ix', hadd⟩ : ∃ ix', idle.add [.integer 1] ⟨1, 1⟩ = .ok ix' := ⟨_, rfl⟩
  have hsave : save.apply ix' occupied = (.error (.file .isDirectory), ix', occupied) := by
    refine apply_change_error ?_
    rw [(alike_add hadd).path, show idle.path = "t.idx" from rfl, write_occupied]
    rfl
  have hx : (Revision.insert ⟨1, 1⟩ refusedRow).act.apply idle occupied =
      (.error (.file .isDirectory), ix', occupied) := by
    rw [Revision.act, insert, apply_bind_ok (apply_load_of_loaded rfl),
      apply_bind_ok (apply_addRow_ok (show idle.keyOf refusedRow = .ok [.integer 1] from rfl) hadd), hsave]
  refine ⟨ix', hx, (revision_fails hx).2, rfl, ?_⟩
  cases hadd
  rfl

end Rowbase.Index
