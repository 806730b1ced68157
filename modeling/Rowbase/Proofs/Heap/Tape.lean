import Mathlib.Data.List.Nodup
import Rowbase.Heap.Relation

/-! # Tapes

A tape lists all handles that a relation ever gave out, in their order, with what lies behind each:
nothing any more if it was deleted. New handles come at the end, and none is given out twice. -/
namespace Rowbase

/-- Whether a handle comes before another: in an earlier block, or earlier in the same one. -/
def Handle.Before (a b : Handle) : Prop :=
  a.block < b.block ∨ a.block = b.block ∧ a.record < b.record

theorem Handle.Before.trans {a b c : Handle} (h : a.Before b) (h' : b.Before c) : a.Before c := by
  rw [Handle.Before] at h h' ⊢
  omega

theorem Handle.Before.ne {a b : Handle} (h : a.Before b) : a ≠ b := by
  rintro rfl
  rw [Handle.Before] at h
  omega

/-- Handles with what lies behind them, or nothing where it was deleted. -/
abbrev Tape (α : Type) := List (Handle × Option α)

namespace Tape

variable {α β : Type} {t : Tape α} {h : Handle} {a : α}

/-- The handles behind which something lies, with it. -/
def live (t : Tape α) : List (Handle × α) := t.filterMap fun e => e.2.map (e.1, ·)

/-- All handles. -/
def handles (t : Tape α) : List Handle := t.map Prod.fst

/-- The tape with nothing behind a handle. -/
def clear (h : Handle) (t : Tape α) : Tape α := t.map fun e => if e.1 = h then (h, none) else e

/-- The tape of things that all lie there. -/
def ofLive (l : List (Handle × α)) : Tape α := l.map fun e => (e.1, some e.2)

/-- The tape with a function applied to all that lies on it. -/
def image (f : α → β) (t : Tape α) : Tape β := t.map fun e => (e.1, e.2.map f)

/-- Whether the handles stand in their order, each once. -/
def Ascending (t : Tape α) : Prop := t.handles.Pairwise Handle.Before

theorem mem_live : (h, a) ∈ t.live ↔ (h, some a) ∈ t := by
  rw [live, List.mem_filterMap]
  constructor
  · rintro ⟨⟨h', o⟩, hm, he⟩
    obtain ⟨b, hb, he⟩ := Option.map_eq_some_iff.1 he
    cases he
    cases hb
    exact hm
  · intro hm
    exact ⟨_, hm, rfl⟩

theorem live_ofLive (l : List (Handle × α)) : (ofLive l).live = l := by
  rw [live, ofLive, List.filterMap_map]
  exact List.filterMap_some

theorem handles_ofLive (l : List (Handle × α)) : (ofLive l).handles = l.map Prod.fst := by
  rw [handles, ofLive, List.map_map]
  rfl

theorem ofLive_concat (l : List (Handle × α)) (h : Handle) (a : α) :
    ofLive (l ++ [(h, a)]) = ofLive l ++ [(h, some a)] := List.map_append

theorem append_ofLive_nil (t : Tape α) : t ++ ofLive [] = t := List.append_nil t

theorem live_append (t t' : Tape α) : (t ++ t').live = t.live ++ t'.live := List.filterMap_append

theorem handles_append (t t' : Tape α) : (t ++ t').handles = t.handles ++ t'.handles :=
  List.map_append

theorem live_sublist (t : Tape α) : (t.live.map Prod.fst).Sublist t.handles := by
  induction t with
  | nil => exact .slnil
  | cons e t ih =>
    obtain ⟨h, _ | a⟩ := e
    · exact ih.cons _
    · exact ih.cons_cons _

/-! ## Clearing -/

theorem handles_clear (h : Handle) (t : Tape α) : (t.clear h).handles = t.handles := by
  rw [handles, handles, clear, List.map_map]
  refine List.map_congr_left fun e _ => ?_
  change (if e.1 = h then (h, none) else e).1 = e.1
  split
  · rename_i he
    exact he.symm
  · rfl

/-- A tape without a handle is the same after clearing it. -/
theorem clear_of_not_mem (hn : h ∉ t.handles) : t.clear h = t := by
  rw [clear, List.map_congr_left (g := id) fun e he => ?_, List.map_id]
  rw [if_neg, id]
  rintro rfl
  exact hn (List.mem_map_of_mem he)

/-- Clearing a handle behind which nothing lies changes nothing. -/
theorem clear_of_not_live (hn : ∀ a, (h, a) ∉ t.live) : t.clear h = t := by
  rw [clear, List.map_congr_left (g := id) fun e he => ?_, List.map_id]
  obtain ⟨h', _ | a⟩ := e
  · split
    · rename_i he
      cases he
      rfl
    · rfl
  · rw [if_neg, id]
    rintro rfl
    exact hn a (mem_live.2 he)

theorem live_clear (h : Handle) (t : Tape α) :
    (t.clear h).live = t.live.filter fun e => e.1 ≠ h := by
  induction t with
  | nil => rfl
  | cons e t ih =>
    obtain ⟨h', o⟩ := e
    change live ((if h' = h then (h, none) else (h', o)) :: clear h t) = _
    by_cases he : h' = h
    · rw [if_pos he]
      subst he
      cases o with
      | none => exact ih
      | some a =>
        change live (clear h' t) = ((h', a) :: live t).filter _
        rw [List.filter_cons_of_neg (by simp), ih]
    · rw [if_neg he]
      cases o with
      | none => exact ih
      | some a =>
        change (h', a) :: live (clear h t) = ((h', a) :: live t).filter _
        rw [List.filter_cons_of_pos (by simpa using he), ih]

theorem live_filter_ne (hn : h ∉ t.handles) : (t.live.filter fun e => e.1 ≠ h) = t.live := by
  rw [← live_clear, clear_of_not_mem hn]

/-- What lies behind a new handle is all that is taken out with it. -/
theorem live_concat_filter_ne (hn : h ∉ t.handles) (a : α) :
    ((t.live ++ [(h, a)]).filter fun e => e.1 ≠ h) = t.live := by
  rw [List.filter_append, live_filter_ne hn, List.filter_cons_of_neg (by simp), List.filter_nil,
    List.append_nil]

/-- The tape with nothing behind some handles. -/
def clearAll (hs : List Handle) (t : Tape α) : Tape α := hs.foldl (fun t h => t.clear h) t

theorem live_clearAll (hs : List Handle) (t : Tape α) :
    (t.clearAll hs).live = t.live.filter fun e => e.1 ∉ hs := by
  induction hs generalizing t with
  | nil => exact (List.filter_eq_self.2 fun _ _ => decide_eq_true List.not_mem_nil).symm
  | cons h hs ih =>
    change ((t.clear h).clearAll hs).live = _
    rw [ih, live_clear, List.filter_filter]
    refine List.filter_congr fun e _ => ?_
    rw [Bool.eq_iff_iff, Bool.and_eq_true, decide_eq_true_iff, decide_eq_true_iff, decide_eq_true_iff,
      List.mem_cons, not_or, and_comm]

theorem handles_clearAll (hs : List Handle) (t : Tape α) : (t.clearAll hs).handles = t.handles := by
  induction hs generalizing t with
  | nil => rfl
  | cons h hs ih => exact (ih (t.clear h)).trans (handles_clear h t)

/-! ## Order -/

theorem ascending_iff_of_handles {t : Tape α} {t' : Tape β} (h : t.handles = t'.handles) :
    t.Ascending ↔ t'.Ascending := by
  rw [Ascending, Ascending, h]

theorem Ascending.live (ht : t.Ascending) : (t.live.map Prod.fst).Pairwise Handle.Before :=
  ht.sublist t.live_sublist

theorem Ascending.nodup_live (ht : t.Ascending) : (t.live.map Prod.fst).Nodup :=
  ht.live.imp fun h => h.ne

/-- What is left when all that meets a condition is cleared is what does not meet it. -/
theorem Ascending.live_clearAll_filter (ht : t.Ascending) (p : Handle × α → Bool) :
    (t.clearAll ((t.live.filter p).map Prod.fst)).live = t.live.filter fun e => !p e := by
  rw [live_clearAll]
  refine List.filter_congr fun e he => ?_
  rw [Bool.eq_iff_iff, decide_eq_true_iff, Bool.not_eq_true', ← Bool.not_eq_true]
  refine not_congr ⟨fun hm => ?_, fun hp => List.mem_map_of_mem (List.mem_filter.2 ⟨he, hp⟩)⟩
  obtain ⟨e', he', h1⟩ := List.mem_map.1 hm
  obtain ⟨he', hp⟩ := List.mem_filter.1 he'
  rwa [← List.inj_on_of_nodup_map ht.nodup_live he' he h1]

/-- What was added is gone when it is cleared. -/
theorem Ascending.live_clearAll_append {t' : Tape α} (ht : (t ++ t').Ascending) {hs : List Handle}
    (hh : ∀ h, h ∈ hs ↔ h ∈ t'.handles) : ((t ++ t').clearAll hs).live = t.live := by
  rw [Ascending, handles_append] at ht
  rw [live_clearAll, live_append, List.filter_append, List.filter_eq_self.2, List.filter_eq_nil_iff.2,
    List.append_nil]
  · intro e he
    rw [decide_eq_true_iff, not_not, hh]
    exact (live_sublist t').subset (List.mem_map_of_mem he)
  · intro e he
    rw [decide_eq_true_iff, hh]
    intro hm
    exact ((List.pairwise_append.1 ht).2.2 e.1 ((live_sublist t).subset (List.mem_map_of_mem he))
      e.1 hm).ne rfl

/-! ## Reading -/

/-- What lies behind a handle. -/
def row? (t : Tape α) (h : Handle) : Option α := t.live.lookup h

theorem lookup_eq_some_iff :
    ∀ {l : List (Handle × α)}, (l.map Prod.fst).Nodup → (l.lookup h = some a ↔ (h, a) ∈ l)
  | [], _ => by simp
  | (h', a') :: l, hn => by
    rw [List.map_cons, List.nodup_cons] at hn
    rw [lookup_cons_ite]
    by_cases he : h = h'
    · subst he
      rw [if_pos rfl, List.mem_cons]
      constructor
      · intro ha
        cases ha
        exact .inl rfl
      · rintro (ha | ha)
        · cases ha
          rfl
        · exact absurd (List.mem_map_of_mem ha) hn.1
    · rw [if_neg he, lookup_eq_some_iff hn.2, List.mem_cons]
      refine ⟨.inr, fun hm => hm.resolve_left fun hc => he ?_⟩
      exact congrArg Prod.fst hc

theorem Ascending.row?_eq_some_iff (ht : t.Ascending) : t.row? h = some a ↔ (h, a) ∈ t.live :=
  lookup_eq_some_iff ht.nodup_live

theorem Ascending.row?_eq_none_iff (ht : t.Ascending) : t.row? h = none ↔ ∀ a, (h, a) ∉ t.live := by
  rw [Option.eq_none_iff_forall_ne_some]
  exact forall_congr' fun a => not_congr ht.row?_eq_some_iff

theorem Ascending.row?_congr {t' : Tape α} (ht : t.Ascending) (ht' : t'.Ascending)
    (hm : ∀ a, (h, a) ∈ t'.live ↔ (h, a) ∈ t.live) : t'.row? h = t.row? h := by
  refine Option.ext fun a => ?_
  rw [ht.row?_eq_some_iff, ht'.row?_eq_some_iff, hm]

/-! ## Images -/

theorem image_append (f : α → β) (t t' : Tape α) : (t ++ t').image f = t.image f ++ t'.image f :=
  List.map_append

theorem handles_image (f : α → β) (t : Tape α) : (t.image f).handles = t.handles := by
  rw [handles, handles, image, List.map_map]
  rfl

theorem image_clear (f : α → β) (h : Handle) (t : Tape α) :
    (t.clear h).image f = (t.image f).clear h := by
  rw [image, clear, clear, image, List.map_map, List.map_map]
  refine List.map_congr_left fun e _ => ?_
  dsimp only [Function.comp]
  split <;> rfl

theorem live_image (f : α → β) (t : Tape α) :
    (t.image f).live = t.live.map fun e => (e.1, f e.2) := by
  rw [live, live, image, List.filterMap_map, List.map_filterMap]
  congr 1
  funext e
  obtain ⟨h, _ | a⟩ := e <;> rfl

end Tape

end Rowbase
