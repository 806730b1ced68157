import Rowbase.Index.Basic
import Rowbase.Proofs.Heap.Tape
import Std.Data.TreeMap.Lemmas

/-! # Indices as groupings

An index groups rows if it has under each key the handles of the rows that have that key, in their
order. An exact one has a key for every row and no key without a row, and if it is unique no two rows
have the same key without a NULL. Adding a new row and removing one keep it so. -/
namespace Rowbase.Index

variable {ix ix' : Index} {rows : List (Handle × Row)} {key : Key} {h : Handle} {row : Row}

theorem compare_eq_iff {a b : Key} : Key.compare a b = .eq ↔ a = b := Std.LawfulEqCmp.compare_eq_iff_eq

theorem handles_add (ha : ix.add key h = .ok ix') (k : Key) :
    ix'.handles k = if key = k then ix.handles key ++ [h] else ix.handles k := by
  rw [add] at ha
  split at ha
  · cases ha
  · cases ha
    rw [handles, Std.TreeMap.getD_insert]
    exact if_congr compare_eq_iff rfl rfl

theorem handles_remove (k : Key) :
    (ix.remove key h).handles k =
      if key = k then (ix.handles key).filter (· ≠ h) else ix.handles k := by
  rw [remove, handles]
  dsimp only
  split
  · rename_i he
    rw [Std.TreeMap.getD_erase]
    refine if_congr compare_eq_iff ?_ rfl
    exact (List.isEmpty_iff.1 he).symm
  · rw [Std.TreeMap.getD_insert]
    exact if_congr compare_eq_iff rfl rfl

/-- Whether there is no key without a handle. -/
def Inhabited (ix : Index) : Prop := ∀ key, key ∈ ix.map → ix.handles key ≠ []

theorem inhabited_add (hi : ix.Inhabited) (ha : ix.add key h = .ok ix') : ix'.Inhabited := by
  intro k hm
  rw [handles_add ha]
  split
  · simp
  · rename_i hne
    refine hi k ?_
    rw [add] at ha
    split at ha
    · cases ha
    · cases ha
      rw [Std.TreeMap.mem_insert] at hm
      exact hm.resolve_left fun hc => hne (compare_eq_iff.1 hc)

theorem inhabited_remove (hi : ix.Inhabited) : (ix.remove key h).Inhabited := by
  intro k hm
  by_cases hkk : key = k
  · subst hkk
    intro hnil
    rw [remove] at hm
    dsimp only at hm
    rw [handles_remove, if_pos rfl] at hnil
    rw [if_pos (List.isEmpty_iff.2 hnil), Std.TreeMap.mem_erase] at hm
    exact hm.1 (compare_eq_iff.2 rfl)
  · rw [handles_remove, if_neg hkk]
    refine hi k ?_
    rw [remove] at hm
    dsimp only at hm
    split at hm
    · exact (Std.TreeMap.mem_erase.1 hm).2
    · exact (Std.TreeMap.mem_insert.1 hm).resolve_left fun hc => hkk (compare_eq_iff.1 hc)

/-- What an index has under a key, if anything. -/
theorem Inhabited.getElem?_eq (hi : ix.Inhabited) (key : Key) :
    ix.map[key]? = if ix.handles key = [] then none else some (ix.handles key) := by
  have hhandles : ix.handles key = ix.map[key]?.getD [] := Std.TreeMap.getD_eq_getD_getElem?
  cases hg : ix.map[key]? with
  | none =>
    rw [hg] at hhandles
    exact (if_pos hhandles).symm
  | some hs =>
    have hne := hi key (Std.TreeMap.mem_iff_isSome_getElem?.2 (by rw [hg]; rfl))
    rw [hg] at hhandles
    rw [if_neg hne, hhandles]
    rfl

/-- Where each key has a handle, the handles under the keys are all there is to a map. -/
theorem Inhabited.equiv (hi : ix.Inhabited) (hi' : ix'.Inhabited) (h : ∀ k, ix'.handles k = ix.handles k) :
    ix'.map.Equiv ix.map :=
  Std.TreeMap.Equiv.of_forall_constGet?_eq fun k => by rw [hi.getElem?_eq, hi'.getElem?_eq, h]

/-- Whether the handles under each key are those of the rows with the key, in their order. -/
structure Groups (ix : Index) (rows : List (Handle × Row)) : Prop where
  mem_iff : ∀ key h, h ∈ ix.handles key ↔ ∃ row, (h, row) ∈ rows ∧ ix.keyOf row = .ok key
  ascending : ∀ key, (ix.handles key).Pairwise Handle.Before

/-- Whether a row has a key. -/
def hasKey (ix : Index) (key : Key) (row : Row) : Bool :=
  match ix.keyOf row with
  | .ok k => k == key
  | .error _ => false

theorem hasKey_iff : ix.hasKey key row = true ↔ ix.keyOf row = .ok key := by
  rw [hasKey]
  split
  · rename_i k hk
    rw [hk, beq_iff_eq, Except.ok.injEq]
  · rename_i hk
    rw [hk]
    simp

/-- What lies under a key are the rows with it, in the order of the rows. -/
theorem Groups.handles_eq (hg : ix.Groups rows) (hr : (rows.map Prod.fst).Pairwise Handle.Before)
    (key : Key) : ix.handles key = (rows.filter fun e => ix.hasKey key e.2).map Prod.fst := by
  have hs : ((rows.filter fun e => ix.hasKey key e.2).map Prod.fst).Pairwise Handle.Before :=
    hr.sublist (List.filter_sublist.map _)
  refine List.Perm.eq_of_pairwise (fun a b _ _ (hab : a.Before b) (hba : b.Before a) => ?_)
    (hg.ascending key) hs ?_
  · exact absurd rfl (hab.trans hba).ne
  · refine (List.perm_ext_iff_of_nodup ((hg.ascending key).imp fun h => h.ne)
      (hs.imp fun h => h.ne)).2 fun h => ?_
    rw [hg.mem_iff, List.mem_map]
    constructor
    · rintro ⟨row, hm, hk⟩
      exact ⟨(h, row), List.mem_filter.2 ⟨hm, hasKey_iff.2 hk⟩, rfl⟩
    · rintro ⟨⟨h', row⟩, hm, rfl⟩
      obtain ⟨hm, hk⟩ := List.mem_filter.1 hm
      exact ⟨row, hm, hasKey_iff.1 hk⟩

/-! ## Exact indices -/

/-- Whether an index has just some rows: each under its key, no key without a row, and if the index is
unique, no two rows under a key without a NULL. -/
structure Exact (ix : Index) (rows : List (Handle × Row)) : Prop where
  handles_eq : ∀ key, ix.handles key = (rows.filter fun e => ix.hasKey key e.2).map Prod.fst
  keyed : ∀ e ∈ rows, ∃ key, ix.keyOf e.2 = .ok key
  inhabited : ∀ key, key ∈ ix.map → ix.handles key ≠ []
  single : ix.unique = true → ∀ key : Key, key.hasNull = false → (ix.handles key).length ≤ 1

theorem Exact.groups (he : ix.Exact rows) (hr : (rows.map Prod.fst).Pairwise Handle.Before) :
    ix.Groups rows where
  mem_iff key h := by
    rw [he.handles_eq, List.mem_map]
    constructor
    · rintro ⟨⟨h', row⟩, hm, rfl⟩
      obtain ⟨hm, hk⟩ := List.mem_filter.1 hm
      exact ⟨row, hm, hasKey_iff.1 hk⟩
    · rintro ⟨row, hm, hk⟩
      exact ⟨(h, row), List.mem_filter.2 ⟨hm, hasKey_iff.2 hk⟩, rfl⟩
  ascending key := by
    rw [he.handles_eq]
    exact hr.sublist (List.filter_sublist.map _)

/-- Two indices on the same columns that say the same of each key have the same rows. -/
theorem Exact.congr (he : ix.Exact rows) (hn : ix'.name = ix.name) (hc : ix'.columns = ix.columns)
    (hu : ix'.unique = ix.unique) (hm : ix'.map = ix.map) : ix'.Exact rows := by
  obtain ⟨t, n, cols, u, p, m, lo⟩ := ix
  obtain ⟨t', n', cols', u', p', m', lo'⟩ := ix'
  cases hn
  cases hc
  cases hu
  cases hm
  exact ⟨he.handles_eq, he.keyed, he.inhabited, he.single⟩

theorem exact_empty (hm : ix.map = ∅) : ix.Exact [] where
  handles_eq key := by
    rw [handles, hm, Std.TreeMap.getD_emptyc]
    rfl
  keyed := nofun
  inhabited key hk := by
    rw [hm] at hk
    exact absurd hk Std.TreeMap.not_mem_emptyc
  single _ key _ := by
    rw [handles, hm, Std.TreeMap.getD_emptyc]
    exact Nat.zero_le _

/-- Rows that have the same keys are indexed alike. -/
theorem Exact.of_keys {f : Row → Row} (hf : ∀ e ∈ rows, ix.keyOf (f e.2) = ix.keyOf e.2)
    (he : ix.Exact (rows.map fun e => (e.1, f e.2))) : ix.Exact rows where
  handles_eq key := by
    rw [he.handles_eq, List.filter_map, List.map_map]
    refine congrArg (List.map Prod.fst) (List.filter_congr fun e hm => ?_)
    change ix.hasKey key (f e.2) = _
    rw [hasKey, hasKey, hf e hm]
  keyed e hm := by
    obtain ⟨key, hk⟩ := he.keyed _ (List.mem_map_of_mem hm)
    exact ⟨key, (hf e hm).symm.trans hk⟩
  inhabited := he.inhabited
  single := he.single

theorem hasKey_eq (hk : ix.keyOf row = .ok key) (k : Key) : ix.hasKey k row = decide (key = k) := by
  rw [hasKey, hk]
  exact Bool.eq_iff_iff.2 (beq_iff_eq.trans decide_eq_true_iff.symm)

theorem add_eq_ok_iff : (∃ ix', ix.add key h = .ok ix') ↔
    ¬ (ix.unique = true ∧ key.hasNull = false ∧ ix.handles key ≠ []) := by
  rw [add]
  split
  · rename_i hc
    simp only [Bool.and_eq_true, Bool.not_eq_true', List.isEmpty_eq_false_iff] at hc
    exact iff_of_false (fun ⟨_, h⟩ => nomatch h) (not_not_intro ⟨hc.1.1, hc.1.2, hc.2⟩)
  · rename_i hc
    simp only [Bool.and_eq_true, Bool.not_eq_true', List.isEmpty_eq_false_iff] at hc
    exact iff_of_true ⟨_, rfl⟩ fun h => hc ⟨⟨h.1, h.2.1⟩, h.2.2⟩

/-- Whether an index takes a row: a unique one takes no second row of a key without a NULL. -/
def Admits (ix : Index) (row : Row) : Prop :=
  ∀ key, ix.keyOf row = .ok key →
    ¬ (ix.unique = true ∧ key.hasNull = false ∧ ix.handles key ≠ [])

/-- An index takes a row just if the row's key can be added to it. -/
theorem admits_iff_add (hk : ix.keyOf row = .ok key) (h : Handle) :
    ix.Admits row ↔ ∃ ix', ix.add key h = .ok ix' := by
  rw [add_eq_ok_iff]
  refine ⟨fun hf => hf key hk, fun hf k hk' => ?_⟩
  rw [hk] at hk'
  cases hk'
  exact hf

/-- Adding changes no more of an index than its map. -/
theorem add_description (ha : ix.add key h = .ok ix') : ix'.table = ix.table ∧ ix'.name = ix.name ∧
    ix'.columns = ix.columns ∧ ix'.unique = ix.unique ∧ ix'.path = ix.path ∧ ix'.loaded = ix.loaded := by
  rw [add] at ha
  split at ha
  · cases ha
  · cases ha
    exact ⟨rfl, rfl, rfl, rfl, rfl, rfl⟩

theorem hasKey_congr (hn : ix'.name = ix.name) (hc : ix'.columns = ix.columns) (key : Key) (row : Row) :
    ix'.hasKey key row = ix.hasKey key row := by
  rw [hasKey, hasKey, keyOf, keyOf, hn, hc]

/-- Exact indices of one description on the same rows have the same under each key. -/
theorem Exact.handles_congr (he : ix.Exact rows) (he' : ix'.Exact rows) (hn : ix'.name = ix.name)
    (hc : ix'.columns = ix.columns) (k : Key) : ix'.handles k = ix.handles k := by
  rw [he.handles_eq, he'.handles_eq]
  simp only [hasKey_congr hn hc]

/-- What an exact index takes depends on its rows alone. -/
theorem Exact.admits_iff (he : ix.Exact rows) (he' : ix'.Exact rows) (hn : ix'.name = ix.name)
    (hc : ix'.columns = ix.columns) (hu : ix'.unique = ix.unique) (row : Row) :
    ix'.Admits row ↔ ix.Admits row := by
  rw [Admits, Admits, keyOf, keyOf, hn, hc, hu]
  simp only [he.handles_congr he' hn hc]

/-- Exact indices of one description on the same rows have the same entries. -/
theorem Exact.entries_eq (he : ix.Exact rows) (he' : ix'.Exact rows) (hn : ix'.name = ix.name)
    (hc : ix'.columns = ix.columns) : ix'.map.toList = ix.map.toList := by
  have hequiv := Inhabited.equiv he.inhabited he'.inhabited (he.handles_congr he' hn hc)
  exact hequiv.toList_eq

/-- Exact indices of one description on the same rows are saved alike. -/
theorem Exact.document_eq (he : ix.Exact rows) (he' : ix'.Exact rows) (hn : ix'.name = ix.name)
    (hc : ix'.columns = ix.columns) (hu : ix'.unique = ix.unique) : ix'.document = ix.document := by
  rw [document, document, hu, hc, he.entries_eq he' hn hc]

/-- An index on no rows is saved without entries. -/
theorem Exact.document_of_nil (he : ix.Exact []) : ix.document = ⟨ix.unique, ix.columns, []⟩ :=
  (show Exact { ix with map := ∅ } [] from exact_empty rfl).document_eq he rfl rfl rfl

/-- A row is added behind all others. -/
theorem Exact.add (he : ix.Exact rows) (hk : ix.keyOf row = .ok key) (ha : ix.add key h = .ok ix') :
    ix'.Exact (rows ++ [(h, row)]) := by
  obtain ⟨-, hn, hc, hu, -, -⟩ := add_description ha
  have hkey : ∀ r, ix'.keyOf r = ix.keyOf r := fun r => by rw [keyOf, keyOf, hn, hc]
  have hhandles : ∀ k, ix'.handles k = if key = k then ix.handles key ++ [h] else ix.handles k :=
    handles_add ha
  refine ⟨fun k => ?_, fun e hm => ?_, inhabited_add he.inhabited ha, fun hunique k hnull => ?_⟩
  · simp only [hasKey_congr hn hc]
    rw [hhandles, List.filter_append, List.map_append, ← he.handles_eq]
    by_cases hkk : key = k
    · subst hkk
      rw [if_pos rfl, List.filter_cons_of_pos (by rw [hasKey_eq hk]; exact decide_eq_true rfl)]
      rfl
    · rw [if_neg hkk, List.filter_cons_of_neg (by rw [hasKey_eq hk]; simpa using hkk)]
      exact (List.append_nil _).symm
  · rw [hkey]
    rcases List.mem_append.1 hm with hm | hm
    · exact he.keyed e hm
    · cases List.mem_singleton.1 hm
      exact ⟨key, hk⟩
  · rw [hu] at hunique
    rw [hhandles]
    split
    · rename_i hkk
      subst hkk
      have hfree := add_eq_ok_iff.1 ⟨ix', ha⟩
      have hnil : ix.handles key = [] := by
        by_contra hne
        exact hfree ⟨hunique, hnull, hne⟩
      rw [hnil]
      exact Nat.le_refl _
    · exact he.single hunique k hnull

/-- Taking a row out leaves the others. -/
theorem Exact.remove (he : ix.Exact rows) (hr : (rows.map Prod.fst).Nodup) (hm : (h, row) ∈ rows)
    (hk : ix.keyOf row = .ok key) : (ix.remove key h).Exact (rows.filter fun e => e.1 ≠ h) := by
  have hrow : ∀ e ∈ rows, e.1 = h → e.2 = row := by
    rintro ⟨h', row'⟩ hm' rfl
    have h1 := (Tape.lookup_eq_some_iff hr).2 hm'
    rw [(Tape.lookup_eq_some_iff hr).2 hm] at h1
    exact (Option.some.inj h1).symm
  have hhandles : ∀ k, (ix.remove key h).handles k = (ix.handles k).filter (· ≠ h) := by
    intro k
    rw [handles_remove]
    split
    · rename_i hkk
      rw [hkk]
    · rename_i hkk
      refine (List.filter_eq_self.2 fun h' hm' => ?_).symm
      rw [he.handles_eq, List.mem_map] at hm'
      obtain ⟨e, hm', rfl⟩ := hm'
      obtain ⟨hm', hk'⟩ := List.mem_filter.1 hm'
      refine decide_eq_true fun hh => hkk ?_
      rw [hrow e hm' hh, hasKey_eq hk] at hk'
      exact of_decide_eq_true hk'
  refine ⟨fun k => ?_, fun e hm' => ?_, inhabited_remove he.inhabited, fun hunique k hnull => ?_⟩
  · change _ = (List.filter (fun e => ix.hasKey k e.2) _).map Prod.fst
    rw [hhandles, he.handles_eq, List.filter_map, List.filter_filter, List.filter_filter]
    refine congrArg (List.map Prod.fst) (List.filter_congr fun e _ => ?_)
    exact Bool.and_comm _ _
  · exact he.keyed e (List.mem_filter.1 hm').1
  · rw [hhandles]
    exact Nat.le_trans (List.length_filter_le _ _) (he.single hunique k hnull)

end Rowbase.Index
