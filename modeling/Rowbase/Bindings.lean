/-! # Finite maps that remember the order of insertion

A `Bindings` lists its keys once each, in the order in which they were first bound. Binding a key
again replaces its value where it stands. `get?` is the view of the map: each operation is
described by what it does to it, and by what it does to the list of keys. -/
namespace Rowbase

/-- The list with `k` bound to `v`: in place of an earlier value, otherwise at the end. -/
def bindEntry [DecidableEq α] (k : α) (v : β) : List (α × β) → List (α × β)
  | [] => [(k, v)]
  | (k', v') :: rest => if k' = k then (k, v) :: rest else (k', v') :: bindEntry k v rest

theorem map_fst_bindEntry [DecidableEq α] (k : α) (v : β) (entries : List (α × β)) :
    (bindEntry k v entries).map Prod.fst =
      if k ∈ entries.map Prod.fst then entries.map Prod.fst else entries.map Prod.fst ++ [k] := by
  induction entries with
  | nil => simp [bindEntry]
  | cons e rest ih =>
    obtain ⟨k', v'⟩ := e
    by_cases h : k' = k
    · simp [bindEntry, h]
    · have h' : k ≠ k' := fun e => h e.symm
      simp only [bindEntry, h, if_false, List.map_cons, ih, List.mem_cons, h', false_or]
      split <;> simp

theorem lookup_cons_ite [DecidableEq α] (a k : α) (v : β) (rest : List (α × β)) :
    ((k, v) :: rest).lookup a = if a = k then some v else rest.lookup a := by
  by_cases h : a = k
  · simp [h]
  · have hb : (a == k) = false := by simpa using h
    simp [List.lookup_cons, h, hb]

theorem lookup_bindEntry [DecidableEq α] (k a : α) (v : β) (entries : List (α × β)) :
    (bindEntry k v entries).lookup a = if a = k then some v else entries.lookup a := by
  induction entries with
  | nil => simp [bindEntry, lookup_cons_ite]
  | cons e rest ih =>
    obtain ⟨k', v'⟩ := e
    by_cases h : k' = k
    · subst h
      by_cases ha : a = k' <;> simp [bindEntry, lookup_cons_ite, ha]
    · by_cases ha : a = k'
      · subst ha; simp [bindEntry, h]
      · simp [bindEntry, lookup_cons_ite, h, ha, ih]

/-- A finite map as a list of bindings with distinct keys. -/
structure Bindings (α β : Type) where
  entries : List (α × β)
  distinct : (entries.map Prod.fst).Nodup
deriving DecidableEq

namespace Bindings

theorem eq_of_entries {b b' : Bindings α β} (h : b.entries = b'.entries) : b = b' := by
  cases b
  cases b'
  cases h
  rfl

/-- The map that binds nothing. -/
def empty : Bindings α β := ⟨[], by simp⟩

instance : Inhabited (Bindings α β) := ⟨empty⟩

/-- The bound keys, oldest first. -/
def keys (b : Bindings α β) : List α := b.entries.map Prod.fst

@[simp] theorem keys_empty : (empty : Bindings α β).keys = [] := rfl

/-- The bound values, in the order of their keys. -/
def values (b : Bindings α β) : List β := b.entries.map Prod.snd

/-- The number of bound keys. -/
def size (b : Bindings α β) : Nat := b.entries.length

section
variable [DecidableEq α]

/-- The value of a key. -/
def get? (b : Bindings α β) (k : α) : Option β := b.entries.lookup k

/-- The map with `k` bound to `v`. -/
def insert (b : Bindings α β) (k : α) (v : β) : Bindings α β where
  entries := bindEntry k v b.entries
  distinct := by
    rw [map_fst_bindEntry]
    split
    · exact b.distinct
    · rename_i h
      refine List.nodup_append.2 ⟨b.distinct, by simp, ?_⟩
      intro a ha c hc he
      simp only [List.mem_singleton] at hc
      exact h (hc ▸ he ▸ ha)

/-- The map without `k`; the other keys keep their order. -/
def erase (b : Bindings α β) (k : α) : Bindings α β where
  entries := b.entries.filter fun e => e.1 ≠ k
  distinct := b.distinct.sublist ((List.filter_sublist).map _)

/-- The map with every binding of `c` made in turn. -/
def extend (b c : Bindings α β) : Bindings α β :=
  c.entries.foldl (fun b e => b.insert e.1 e.2) b

/-- The bindings of a list made in turn, so that of two values for a key the later one stays, at
the place of the earlier. -/
def ofList (entries : List (α × β)) : Bindings α β :=
  entries.foldl (fun b e => b.insert e.1 e.2) empty

@[simp] theorem get?_empty (k : α) : (empty : Bindings α β).get? k = none := rfl

@[simp] theorem get?_insert (b : Bindings α β) (k a : α) (v : β) :
    (b.insert k v).get? a = if a = k then some v else b.get? a :=
  lookup_bindEntry k a v b.entries

@[simp] theorem get?_erase (b : Bindings α β) (k a : α) :
    (b.erase k).get? a = if a = k then none else b.get? a := by
  obtain ⟨entries, distinct⟩ := b
  simp only [erase, get?]
  clear distinct
  induction entries with
  | nil => simp
  | cons e rest ih =>
    obtain ⟨k', v'⟩ := e
    by_cases h : k' = k
    · subst h
      rw [List.filter_cons_of_neg (by simp), ih, lookup_cons_ite]
      by_cases ha : a = k' <;> simp [ha]
    · rw [List.filter_cons_of_pos (by simpa using h), lookup_cons_ite, lookup_cons_ite, ih]
      by_cases ha : a = k'
      · subst ha; simp [h]
      · simp [ha]

theorem get?_eq_some_iff (b : Bindings α β) (k : α) (v : β) :
    b.get? k = some v ↔ (k, v) ∈ b.entries := by
  obtain ⟨entries, distinct⟩ := b
  simp only [get?]
  induction entries with
  | nil => simp
  | cons e rest ih =>
    obtain ⟨k', v'⟩ := e
    simp only [List.map_cons, List.nodup_cons] at distinct
    by_cases h : k = k'
    · subst h
      simp only [lookup_cons_ite, if_true, List.mem_cons, Prod.mk.injEq, true_and]
      refine ⟨fun e => .inl (Option.some.inj e).symm, ?_⟩
      rintro (e | e)
      · rw [e]
      · exact absurd (List.mem_map.2 ⟨_, e, rfl⟩) distinct.1
    · simp [lookup_cons_ite, h, ih distinct.2]

theorem get?_eq_none_iff (b : Bindings α β) (k : α) : b.get? k = none ↔ k ∉ b.keys := by
  cases h : b.get? k with
  | none =>
    simp only [true_iff]
    intro hk
    obtain ⟨⟨k', v⟩, hmem, rfl⟩ := List.mem_map.1 hk
    simp [(get?_eq_some_iff b k' v).2 hmem] at h
  | some v =>
    simp only [reduceCtorEq, false_iff, Decidable.not_not]
    exact List.mem_map.2 ⟨_, (get?_eq_some_iff b k v).1 h, rfl⟩

theorem keys_insert (b : Bindings α β) (k : α) (v : β) :
    (b.insert k v).keys = if k ∈ b.keys then b.keys else b.keys ++ [k] :=
  map_fst_bindEntry k v b.entries

theorem keys_erase (b : Bindings α β) (k : α) : (b.erase k).keys = b.keys.filter (· ≠ k) := by
  simp only [keys, erase, List.filter_map]
  rfl

/-- Whether both maps bind the same keys to the same values, in whatever order. -/
def same [DecidableEq β] (b c : Bindings α β) : Bool :=
  b.size == c.size && b.entries.all fun e => c.get? e.1 == some e.2

end

end Bindings

end Rowbase
