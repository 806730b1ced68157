import Rowbase.Proofs.Index.Calls

/-! # An index is a multimap

Whatever is added to an index that was made and taken out of it again, it answers as a list of pairs of a key and a
handle does: what is found under a key without a NULL are the handles paired with it, in the order in which they came.
The list is kept beside the run, from what the calls return alone. Before each call the files may change as they please,
as long as the index can be saved. -/
namespace Rowbase

/-- Whether all bytes can be written at a path. -/
def Files.Writable (fs : Files) (path : String) : Prop := ∀ bytes, ∃ fs', fs.write path bytes = .ok fs'

namespace Index

open Act

variable {ix ix' : Index} {fs : Files} {key : Key} {h : Handle} {row : Row} {e : StorageError}

/-- What can be asked of an index that was made. -/
inductive Op where
  | insert (h : Handle) (row : Row)
  | delete (h : Handle) (row : Row)
  | lookup (row : Row)

/-- The handles that are paired with a key, in their order. -/
def under (pairs : List (Key × Handle)) (key : Key) : List Handle := (pairs.filter (·.1 = key)).map Prod.snd

/-- An index during a run. -/
structure Trace where
  index : Index
  /-- What was added and not taken out since, in the order in which it was added. -/
  pairs : List (Key × Handle)

/-- The trace after a call, with the files that are there at that moment. -/
def Trace.step (t : Trace) (fs : Files) : Op → Trace
  | .insert h row =>
    let s := (Index.insert h row).apply t.index fs
    match s.1, t.index.keyOf row with
    | .ok (), .ok key => { index := s.2.1, pairs := t.pairs ++ [(key, h)] }
    | _, _ => { t with index := s.2.1 }
  | .delete h row =>
    let s := (Index.delete h row).apply t.index fs
    match s.1, t.index.keyOf row with
    | .ok (), .ok key => { index := s.2.1, pairs := t.pairs.filter (· ≠ (key, h)) }
    | _, _ => { t with index := s.2.1 }
  | .lookup row => { t with index := ((Index.lookup row).apply t.index fs).2.1 }

/-- The trace after a run. -/
def Trace.run (t : Trace) (calls : List (Files × Op)) : Trace := calls.foldl (fun t call => t.step call.1 call.2) t

/-- Where a run starts: the index was just made of some rows. -/
def Trace.start (ix : Index) (fs : Files) (entries : List (Handle × Row)) : Trace where
  index := ((create entries).apply ix fs).2.1
  pairs := entries.filterMap fun e => (ix.keyOf e.2).toOption.map (·, e.1)

/-! ## Pairs -/

theorem under_append (pairs : List (Key × Handle)) (key : Key) (h : Handle) (k : Key) :
    under (pairs ++ [(key, h)]) k = if key = k then under pairs key ++ [h] else under pairs k := by
  rw [under, under, under, List.filter_append, List.map_append, List.filter_singleton]
  by_cases hk : key = k
  · subst hk
    simp
  · simp [hk]

theorem under_filter (pairs : List (Key × Handle)) (key : Key) (h : Handle) (k : Key) :
    under (pairs.filter (· ≠ (key, h))) k =
      if key = k then (under pairs key).filter (· ≠ h) else under pairs k := by
  rw [under, under, under, List.filter_filter]
  split
  · rename_i hk
    subst hk
    rw [List.filter_map, List.filter_filter]
    refine congrArg (List.map Prod.snd) (List.filter_congr fun p _ => ?_)
    by_cases hp : p.1 = key <;> simp [hp, Prod.ext_iff]
  · rename_i hk
    refine congrArg (List.map Prod.snd) (List.filter_congr fun p _ => ?_)
    by_cases hp : p.1 = k
    · have hne : p ≠ (key, h) := fun he => hk ((congrArg Prod.fst he).symm.trans hp)
      simp [hp, hne]
    · simp [hp]

theorem mem_under {pairs : List (Key × Handle)} : h ∈ under pairs key ↔ (key, h) ∈ pairs := by
  simp [under]

/-- The pairs of rows are those of their handles with their keys. -/
theorem under_entries (ix : Index) (entries : List (Handle × Row)) (key : Key) :
    under (entries.filterMap fun e => (ix.keyOf e.2).toOption.map (·, e.1)) key =
      (entries.filter fun e => ix.hasKey key e.2).map Prod.fst := by
  induction entries with
  | nil => rfl
  | cons e entries ih =>
    rw [List.filterMap_cons, List.filter_cons, hasKey]
    cases hk : ix.keyOf e.2 with
    | error _ => exact ih
    | ok k =>
      dsimp only [Except.toOption, Option.map_some]
      rw [under, List.filter_cons]
      by_cases hkk : k = key
      · rw [if_pos (decide_eq_true hkk), if_pos (beq_iff_eq.2 hkk), List.map_cons, List.map_cons]
        exact congrArg (e.1 :: ·) ih
      · rw [if_neg (by simpa using hkk), if_neg (by simpa using hkk)]
        exact ih

/-! ## Calls of a loaded index -/

theorem apply_delete_unkeyed (hl : ix.loaded = true) (hk : ix.keyOf row = .error e) (fs : Files) :
    (delete h row).apply ix fs = (.error e, ix, fs) := by
  rw [delete, apply_bind_ok (apply_load_of_loaded hl), apply_bind_error (apply_change_error ?_)]
  rw [hk]
  rfl

theorem apply_lookup (hl : ix.loaded = true) (row : Row) (fs : Files) : (lookup row).apply ix fs =
    (ix.keyOf row >>= fun key => .ok (if key.hasNull then [] else ix.handles key), ix, fs) := by
  rw [lookup, apply_bind_ok (apply_load_of_loaded hl), apply_look]
  rfl

/-- What a row is refused for is that its key is taken. -/
theorem add_eq_error (ha : ix.add key h = .error e) : e = .duplicateKey ix.name key.shown ∧
    ix.unique = true ∧ key.hasNull = false ∧ ix.handles key ≠ [] := by
  have hfull := add_eq_ok_iff.not.1 fun ⟨ix', hok⟩ => nomatch ha.symm.trans hok
  rw [not_not] at hfull
  rw [add] at ha
  split at ha
  · cases ha
    exact ⟨rfl, hfull⟩
  · cases ha

/-! ## The run -/

/-- Whether an index that is loaded has just some pairs. -/
structure Trace.Sound (ix : Index) (t : Trace) : Prop where
  alike : ix.Alike t.index
  loaded : t.index.loaded = true
  inhabited : t.index.Inhabited
  handles : ∀ key, t.index.handles key = under t.pairs key

variable {t : Trace}

theorem Trace.Sound.writable (hs : t.Sound ix) (hw : fs.Writable ix.path) (halike : t.index.Alike ix') :
    ∃ fs', fs.write ix'.path ix'.document.bytes = .ok fs' := by
  rw [halike.path, hs.alike.path]
  exact hw _

/-- Each call takes pairs that the index has to pairs that it has. -/
theorem Trace.Sound.step (hs : t.Sound ix) (hw : fs.Writable ix.path) (op : Op) : (t.step fs op).Sound ix := by
  cases op with
  | insert h row =>
    cases hk : t.index.keyOf row with
    | error e =>
      have hx : (Index.insert h row).apply t.index fs = (.error e, t.index, fs) :=
        apply_insert_refused hs.loaded (by rw [hk]; rfl)
      simp only [Trace.step, hx]
      exact hs
    | ok key =>
      cases ha : t.index.add key h with
      | error e =>
        simp only [Trace.step, apply_insert_error hs.loaded hk ha]
        exact hs
      | ok ix' =>
        obtain ⟨fs', hsave⟩ := hs.writable hw (alike_add ha)
        simp only [Trace.step, apply_insert_ok hs.loaded hk ha hsave, hk]
        refine ⟨hs.alike.trans (alike_add ha), (add_description ha).2.2.2.2.2.trans hs.loaded,
          inhabited_add hs.inhabited ha, fun k => ?_⟩
        rw [handles_add ha, under_append, hs.handles, hs.handles]
  | delete h row =>
    cases hk : t.index.keyOf row with
    | error e =>
      simp only [Trace.step, apply_delete_unkeyed hs.loaded hk]
      exact hs
    | ok key =>
      obtain ⟨fs', hsave⟩ := hs.writable hw (show t.index.Alike (t.index.remove key h) from alike_remove)
      simp only [Trace.step, apply_delete hs.loaded hk hsave, hk]
      refine ⟨hs.alike.trans alike_remove, hs.loaded, inhabited_remove hs.inhabited, fun k => ?_⟩
      rw [handles_remove, under_filter, hs.handles, hs.handles]
  | lookup row =>
    simp only [Trace.step, apply_lookup hs.loaded]
    exact hs

theorem Trace.Sound.run (calls : List (Files × Op)) (hw : ∀ call ∈ calls, call.1.Writable ix.path) :
    ∀ {t : Trace}, t.Sound ix → (t.run calls).Sound ix := by
  induction calls with
  | nil => exact fun hs => hs
  | cons call calls ih =>
    exact fun hs => ih (fun call hm => hw call (.tail _ hm)) (hs.step (hw call (.head _)) call.2)

theorem Trace.sound_start {entries : List (Handle × Row)} (hc : ((create entries).apply ix fs).1 = .ok ()) :
    (Trace.start ix fs entries).Sound ix := by
  rcases apply_create ix fs entries with ⟨e, ix', hx, -⟩ | ⟨ix', fs', hx, halike, hl, hexact, -⟩
  · rw [hx] at hc
    cases hc
  · simp only [Trace.start, hx]
    refine ⟨halike, hl, hexact.inhabited, fun key => ?_⟩
    rw [hexact.handles_eq, under_entries]
    simp only [hasKey_congr halike.name halike.columns]

/-! ## What the pairs tell -/

/-- Whether an index answers as the pairs kept beside its run do. -/
structure Trace.Faithful (ix : Index) (t : Trace) : Prop where
  /-- Under a key without a NULL are found the handles paired with it, under any other none. -/
  lookup : ∀ fs row key, ix.keyOf row = .ok key →
    (Index.lookup row).apply t.index fs = (.ok (if key.hasNull then [] else under t.pairs key), t.index, fs)
  /-- A unique index refuses a row just if its key has no NULL and is paired with a handle, and is then as it was. -/
  insert : ∀ fs h row key, ix.keyOf row = .ok key → fs.Writable ix.path →
    if ix.unique = true ∧ key.hasNull = false ∧ under t.pairs key ≠ [] then
      (Index.insert h row).apply t.index fs = (.error (.duplicateKey ix.name key.shown), t.index, fs)
    else ((Index.insert h row).apply t.index fs).1 = .ok ()
  delete : ∀ fs h row key, ix.keyOf row = .ok key → fs.Writable ix.path →
    ((Index.delete h row).apply t.index fs).1 = .ok ()
  /-- Where a pair is taken out that is not there, the index stays what it is and is saved as it is. -/
  absent : ∀ fs h row key, ix.keyOf row = .ok key → fs.Writable ix.path → (key, h) ∉ t.pairs →
    ∃ ix' fs', (Index.delete h row).apply t.index fs = (.ok (), ix', fs') ∧ t.index.Twins ix' ∧
      fs.write ix.path t.index.document.bytes = .ok fs'

theorem Trace.Sound.twins_remove (hs : t.Sound ix) (hm : (key, h) ∉ t.pairs) :
    t.index.Twins (t.index.remove key h) := by
  refine ⟨alike_remove, rfl, hs.inhabited.equiv (inhabited_remove hs.inhabited) fun k => ?_⟩
  rw [handles_remove]
  split
  · rename_i hk
    subst hk
    rw [List.filter_eq_self]
    intro h' hm'
    rw [hs.handles, mem_under] at hm'
    exact decide_eq_true fun he => hm (he ▸ hm')
  · rfl

theorem Trace.Sound.faithful (hs : t.Sound ix) : t.Faithful ix where
  lookup fs row key hk := by
    rw [← hs.alike.keyOf] at hk
    rw [apply_lookup hs.loaded, hk, ← hs.handles]
    rfl
  insert fs h row key hk hw := by
    rw [← hs.alike.keyOf] at hk
    cases ha : t.index.add key h with
    | error e =>
      obtain ⟨rfl, hfull⟩ := add_eq_error ha
      rw [hs.handles, hs.alike.unique] at hfull
      rw [if_pos hfull, ← hs.alike.name]
      exact apply_insert_error hs.loaded hk ha
    | ok ix' =>
      have hfree := add_eq_ok_iff.1 ⟨ix', ha⟩
      rw [hs.handles, hs.alike.unique] at hfree
      obtain ⟨fs', hsave⟩ := hs.writable hw (alike_add ha)
      rw [if_neg hfree, apply_insert_ok hs.loaded hk ha hsave]
  delete fs h row key hk hw := by
    rw [← hs.alike.keyOf] at hk
    obtain ⟨fs', hsave⟩ := hs.writable hw (show t.index.Alike (t.index.remove key h) from alike_remove)
    rw [apply_delete hs.loaded hk hsave]
  absent fs h row key hk hw hm := by
    rw [← hs.alike.keyOf] at hk
    obtain ⟨fs', hsave⟩ := hs.writable hw (show t.index.Alike (t.index.remove key h) from alike_remove)
    have htwins := hs.twins_remove hm
    refine ⟨_, fs', apply_delete hs.loaded hk hsave, htwins, ?_⟩
    rwa [htwins.document, alike_remove.path, hs.alike.path] at hsave

/-! ## Making an index -/

theorem keyOf_eq_error (hk : ix.keyOf row = .error e) : ∃ column, e = .unknownColumn column ix.name := by
  obtain ⟨column, -, hv⟩ := exists_of_mapM_eq_error hk
  rw [Row.value] at hv
  split at hv
  · cases hv
  · cases hv
    exact ⟨column, rfl⟩

/-- Whether two of some rows have the same key without a NULL. -/
def Repeats (ix : Index) (key : Key) (entries : List (Handle × Row)) : Prop :=
  key.hasNull = false ∧ 2 ≤ (entries.filter fun e => ix.hasKey key e.2).length

/-- Why rows cannot be added one by one: one of them has no key, or two clash in a unique index. -/
inductive Clashes (ix : Index) (entries : List (Handle × Row)) : StorageError → Prop
  | unkeyed {entry : Handle × Row} {e : StorageError} (hm : entry ∈ entries) (hk : ix.keyOf entry.2 = .error e) :
    Clashes ix entries e
  | repeated {key : Key} (hunique : ix.unique = true) (hkey : ix.Repeats key entries) :
    Clashes ix entries (.duplicateKey ix.name key.shown)

theorem Alike.clashes {entries : List (Handle × Row)} (halike : ix.Alike ix') (hc : ix'.Clashes entries e) :
    ix.Clashes entries e := by
  cases hc with
  | unkeyed hm hk => exact .unkeyed hm ((halike.keyOf _).symm.trans hk)
  | @repeated key hunique hkey =>
    rw [halike.name]
    simp only [Repeats, hasKey_congr halike.name halike.columns] at hkey
    exact .repeated (halike.unique.symm.trans hunique) hkey

/-- Rows that are added behind others cannot be for a reason that lies in all of them. -/
theorem addRows_clash (fs : Files) : ∀ (entries done : List (Handle × Row)) (ix : Index), ix.Exact done →
    ((entries.forM fun e => addRow e.1 e.2).apply ix fs).1 = .error e → ix.Clashes (done ++ entries) e
  | [], _, _, _, hx => nomatch hx
  | (h, row) :: entries, done, ix, he, hx => by
    rw [List.forM_eq_forM, List.forM_cons] at hx
    have hmem : (h, row) ∈ done ++ (h, row) :: entries := List.mem_append_right _ (.head _)
    cases hk : ix.keyOf row with
    | error e' =>
      rw [apply_bind_error (apply_addRow_error (h := h) (e := e') (by rw [hk]; rfl))] at hx
      cases hx
      exact .unkeyed hmem hk
    | ok key =>
      cases ha : ix.add key h with
      | error e' =>
        rw [apply_bind_error (apply_addRow_error (h := h) (e := e') (by rw [hk]; exact ha))] at hx
        cases hx
        obtain ⟨rfl, hunique, hnull, hne⟩ := add_eq_error ha
        refine .repeated hunique ⟨hnull, ?_⟩
        rw [he.handles_eq] at hne
        have hpos := List.length_pos_of_ne_nil hne
        rw [List.length_map] at hpos
        rw [List.filter_append, List.filter_cons, if_pos (hasKey_iff.2 hk), List.length_append, List.length_cons]
        omega
      | ok ix₁ =>
        rw [apply_bind_ok (apply_addRow_ok hk ha)] at hx
        have hrest := (alike_add ha).clashes (addRows_clash fs entries _ ix₁ (he.add hk ha) hx)
        rwa [List.append_assoc, List.singleton_append] at hrest

/-- In a unique index that has just some rows no two of them have the same key without a NULL. -/
theorem Separates.not_repeats {entries : List (Handle × Row)} (hs : ix.Separates entries) (hunique : ix.unique = true)
    (key : Key) : ¬ ix.Repeats key entries := by
  rintro ⟨hnull, hkey⟩
  obtain ⟨ix', halike, he⟩ := hs
  have hsingle := he.single (halike.unique.trans hunique) key hnull
  simp only [he.handles_eq, List.length_map, hasKey_congr halike.name halike.columns] at hsingle
  omega

/-- Where nothing lies at its path, an index is not made if its rows clash, or if the file system refuses to save it. -/
theorem create_fails (hexists : fs.exists? ix.path = false) (entries : List (Handle × Row)) :
    (∃ e, ((create entries).apply ix fs).1 = .error e ∧ ix.Clashes entries e) ∨
      ix.Separates entries ∧ ∀ e, ((create entries).apply ix fs).1 = .error e → ∃ fault, e = .file fault := by
  have hempty : Alike ix { ix with map := ∅ } := ⟨rfl, rfl, rfl, rfl, rfl⟩
  rw [apply_create_of_missing hexists]
  obtain ⟨res, ix₁, hx, halike, -, hres⟩ := apply_addRows fs entries [] { ix with map := ∅ } (exact_empty rfl)
  rcases hres with ⟨⟨e, rfl⟩, -⟩ | ⟨rfl, hexact⟩
  · exact .inl ⟨e, by rw [apply_bind_error hx],
      hempty.clashes (addRows_clash fs entries [] _ (exact_empty rfl) (by rw [hx]))⟩
  · refine .inr ⟨⟨ix₁, hempty.trans halike, hexact⟩, fun e he => ?_⟩
    rw [apply_bind_ok hx] at he
    cases hw : fs.write ix₁.path ix₁.document.bytes with
    | ok fs' =>
      rw [apply_bind_ok (apply_save hw)] at he
      cases he
    | error fault =>
      rw [apply_bind_error (apply_save_error hw)] at he
      cases he
      exact ⟨fault, rfl⟩

/-- An index is a multimap. Made of any rows it answers, whatever is then added to it and taken out of it, as the pairs
do that were added and not taken out since. Where nothing lies at its path, it is refused for a duplicate key just if it
is unique and two of its rows have the same key without a NULL. -/
theorem multimap_run (ix : Index) (fs : Files) (entries : List (Handle × Row)) :
    (((create entries).apply ix fs).1 = .ok () → ∀ calls : List (Files × Op),
      (∀ call ∈ calls, call.1.Writable ix.path) → ((Trace.start ix fs entries).run calls).Faithful ix) ∧
    (fs.exists? ix.path = false →
      (∀ name shown, ((create entries).apply ix fs).1 = .error (.duplicateKey name shown) →
        ix.unique = true ∧ name = ix.name ∧ ∃ key : Key, shown = key.shown ∧ ix.Repeats key entries) ∧
      ((∀ entry ∈ entries, ∃ key, ix.keyOf entry.2 = .ok key) → ix.unique = true → (∃ key, ix.Repeats key entries) →
        ∃ key : Key, ((create entries).apply ix fs).1 = .error (.duplicateKey ix.name key.shown) ∧
          ix.Repeats key entries)) := by
  refine ⟨fun hc calls hw => ((Trace.sound_start hc).run calls hw).faithful,
    fun hexists => ⟨fun name shown hx => ?_, ?_⟩⟩
  · rcases create_fails hexists entries with ⟨e, he, hclash⟩ | ⟨-, hfile⟩
    · cases he.symm.trans hx
      cases hclash with
      | unkeyed hm hk =>
        obtain ⟨_, hcolumn⟩ := keyOf_eq_error hk
        cases hcolumn
      | repeated hunique hkey => exact ⟨hunique, rfl, _, rfl, hkey⟩
    · obtain ⟨_, hfault⟩ := hfile _ hx
      cases hfault
  · rintro hkeyed hunique ⟨key, hkey⟩
    rcases create_fails hexists entries with ⟨e, he, hclash⟩ | ⟨hsep, -⟩
    · cases hclash with
      | unkeyed hm hk =>
        obtain ⟨_, hkey'⟩ := hkeyed _ hm
        cases hkey'.symm.trans hk
      | repeated _ hkey => exact ⟨_, he, hkey⟩
    · exact absurd hkey (hsep.not_repeats hunique key)

/-- A unique index that was never made. -/
def sample : Index := { table := "t", name := "i", columns := ["x"], unique := true, path := "t.idx" }

/-- A row that is refused while another has its key is taken once that one is gone; two such rows make no index. -/
theorem multimap_run_sample :
    let one : Row := .ofList [("x", .integer 1)]
    let calls : List (Files × Op) :=
      [(.fresh [], .insert ⟨1, 3⟩ one), (.fresh [], .delete ⟨1, 1⟩ one), (.fresh [], .insert ⟨1, 4⟩ one)]
    let t := (Trace.start sample (.fresh []) [(⟨1, 1⟩, one), (⟨1, 2⟩, .ofList [("x", .null)])]).run calls
    t.pairs = [([.null], ⟨1, 2⟩), ([.integer 1], ⟨1, 4⟩)] ∧ t.Faithful sample ∧
      ∃ key : Key, ((create [(⟨1, 1⟩, one), (⟨1, 2⟩, one)]).apply sample (.fresh [])).1 =
        .error (.duplicateKey "i" key.shown) ∧ sample.Repeats key [(⟨1, 1⟩, one), (⟨1, 2⟩, one)] := by
  refine ⟨by decide +kernel, (multimap_run sample (.fresh []) _).1 (by decide +kernel) _ fun call hm => ?_,
    ((multimap_run sample (.fresh []) _).2 (by decide +kernel)).2 (fun entry hm => ?_) rfl
      ⟨[.integer 1], rfl, by decide +kernel⟩⟩
  · simp only [List.mem_cons, List.not_mem_nil, or_false] at hm
    rcases hm with rfl | rfl | rfl <;> exact fun bytes => ⟨_, write_fresh bytes⟩
  · simp only [List.mem_cons, List.not_mem_nil, or_false] at hm
    rcases hm with rfl | rfl <;> exact ⟨[.integer 1], by decide +kernel⟩

end Index

end Rowbase
