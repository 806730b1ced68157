import Rowbase.Proofs.Session.Agreement

/-! # The entries of indices

An index of a database in order has just the entries that the rows of its table make: so where databases agree on a
table, the entries of its indices are the same, and where a table loses rows, its indices lose their handles. -/
namespace Rowbase

open Database Act

/-! ## Entries without some handles -/

/-- What is left of handles without some others, if anything is. -/
def Handle.remaining (gone hs : List Handle) : Option (List Handle) :=
  let rest := hs.filter (· ∉ gone)
  if rest = [] then none else some rest

/-- Keys and the handles under each, without some handles and without the keys that keep none. -/
def Index.entriesWithout (gone : List Handle) (entries : List (Key × List Handle)) : List (Key × List Handle) :=
  entries.filterMap fun e => (Handle.remaining gone e.2).map (e.1, ·)

namespace Index

variable {ix ix' : Index} {rows : List (Handle × Row)} {gone : List Handle}

/-- An exact index on fewer rows has the entries of the others without the handles that are gone. -/
theorem Exact.entries_without (he : ix.Exact rows) (he' : ix'.Exact (rows.filter fun e => e.1 ∉ gone))
    (hn : ix'.name = ix.name) (hc : ix'.columns = ix.columns) :
    ix'.map.toList = entriesWithout gone ix.map.toList := by
  have hhandles : ∀ k, ix'.handles k = (ix.handles k).filter (· ∉ gone) := by
    intro k
    rw [he'.handles_eq, he.handles_eq, List.filter_map, List.filter_filter, List.filter_filter]
    refine congrArg (List.map Prod.fst) (List.filter_congr fun e _ => ?_)
    rw [hasKey_congr hn hc, Bool.and_comm]
    rfl
  have hequiv : ix'.map.Equiv (ix.map.filterMap fun _ hs => Handle.remaining gone hs) :=
    Std.TreeMap.Equiv.of_forall_constGet?_eq fun k => by
      rw [Std.TreeMap.getElem?_filterMap', Inhabited.getElem?_eq he.inhabited, Inhabited.getElem?_eq he'.inhabited,
        hhandles]
      by_cases hnil : ix.handles k = []
      · rw [hnil]
        rfl
      · rw [if_neg hnil]
        rfl
  rw [hequiv.toList_eq, Std.TreeMap.toList_filterMap]
  rfl

end Index

/-! ## What is read of an index -/

/-- The keys of an index, and the handles under each of them. -/
def Catalog.entriesOf (t i : String) : Act StorageError Catalog (List (Key × List Handle)) :=
  onIndex t i (do Index.load; .look fun ix _ => .ok ix.map.toList)

namespace Models

variable {l : Location} {sites : Sites} {c c' : Catalog} {fs fs' : Files} {d d' : Database} {t i : String}

theorem value_entriesOf (h : Models l sites c fs d) (hd : d.Regular l sites) (t i : String) :
    (Catalog.entriesOf t i).value c fs =
      (d.index t i).elim (.error (.relation (.indexMissing i t))) fun ix => .ok ix.map.toList := by
  cases hx : d.index t i with
  | none =>
    obtain ⟨c', ha, -⟩ := apply_onIndex_none h hd hx (do Index.load; .look fun ix _ => .ok ix.map.toList)
    rw [Catalog.entriesOf, value, ha]
    rfl
  | some ix =>
    obtain ⟨ct, -, hs⟩ := hd.stands t i ix hx
    rw [Catalog.entriesOf, Catalog.value_onIndex, Catalog.index, h.index, hx]
    change (do Index.load; Act.look fun ix _ => .ok ix.map.toList : Act StorageError Index _).value ix fs = _
    rw [Index.value_load_look, Index.contents_of_loaded hs.loaded]
    rfl

/-- Where databases agree on a table, its indices have the same entries. -/
theorem entriesOf_congr (h : Models l sites c fs d) (h' : Models l sites c' fs' d') (hd : d.Sound l sites)
    (hd' : d'.Sound l sites) (hs : d.SameAt d' t) (i : String) :
    (Catalog.entriesOf t i).value c' fs' = (Catalog.entriesOf t i).value c fs := by
  rw [h.value_entriesOf hd.regular, h'.value_entriesOf hd'.regular]
  rcases hs.index i with ⟨h1, h2⟩ | ⟨ix, ix', h1, h2, halike⟩
  · rw [h1, h2]
  · rw [h1, h2]
    exact congrArg Except.ok ((hd.exact t i ix h1).entries_eq (hs.exact hd' h2) halike.name halike.columns)

/-- Where a table loses rows, its indices lose their handles. -/
theorem entriesOf_loses {gone : List Handle} (h : Models l sites c fs d) (h' : Models l sites c' fs' d')
    (hd : d.Sound l sites) (hd' : d'.Sound l sites) (hlike : d.Like d')
    (hlive : d'.live t = (d.live t).filter fun e => e.1 ∉ gone) (i : String) :
    (Catalog.entriesOf t i).value c' fs' =
      Index.entriesWithout gone <$> (Catalog.entriesOf t i).value c fs := by
  rw [h.value_entriesOf hd.regular, h'.value_entriesOf hd'.regular]
  rcases hlike.index t i with ⟨h1, h2⟩ | ⟨ix, ix', h1, h2, halike, -⟩
  · rw [h1, h2]
    rfl
  · have hexact' := hd'.exact t i ix' h2
    dsimp only at hexact'
    rw [hlive] at hexact'
    rw [h1, h2]
    exact congrArg Except.ok ((hd.exact t i ix h1).entries_without hexact' halike.name halike.columns)

end Models

/-! ## Sessions -/

namespace Session

variable {l : Location} {sites : Sites} {s s' : Session} {c c' : Catalog} {fs fs' fs₁ fs₁' : Files}
  {d d' : Database} {t : String}

/-- Whether sessions in two states see the same of a table, and of its indices all entries, those under keys with a
NULL included. -/
structure AgreeWholly (t : String) (state state' : Session × Files) : Prop extends AgreeOn t state state' where
  entries : ∀ i, sees state' (Catalog.entriesOf t i) = sees state (Catalog.entriesOf t i)

/-- Sessions whose databases agree on a table see all the same of it. -/
theorem Opens.agreeWholly (h : Opens l sites d s fs c fs₁) (h' : Opens l sites d' s' fs' c' fs₁')
    (hs : d.SameAt d' t) : AgreeWholly t (s, fs) (s', fs') where
  toAgreeOn := h.agreeOn h' hs
  entries i := by
    rw [sees_of_opened h.opened, sees_of_opened h'.opened]
    exact h.models.entriesOf_congr h'.models h.sound h'.sound hs i

/-- Where no two indices share a file, new sessions that find such databases see all the same, too. -/
theorem Opens.agreeWholly_reopened (h : Opens l sites d s fs c fs₁) (h' : Opens l sites d' s' fs' c' fs₁')
    (hexclusive : sites.exclusive = true) (hs : d.SameAt d' t) :
    AgreeWholly t (⟨l, none⟩, fs) (⟨l, none⟩, fs') where
  toAgreeOn := h.agreeOn_reopened h' hexclusive hs
  entries i := by
    obtain ⟨c₂, hx, hm⟩ := h.reopened
    obtain ⟨c₂', hx', hm'⟩ := h'.reopened
    rw [sees_of_opened hx, sees_of_opened hx']
    exact hm.load_look_dormant_congr hm' (hs.definition i)
      (h.models.read_congr h'.models h.sound h'.sound hexclusive hs) _

end Session

end Rowbase
