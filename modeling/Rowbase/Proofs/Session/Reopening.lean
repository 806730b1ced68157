import Rowbase.Proofs.Session.Opening

/-! # Opening a database again

A session that begins where a database lies already finds it as it is: nothing is made or described anew.
It has not read any index yet. -/
namespace Rowbase

open Database Act Files

/-- The database before any of its indices is read. -/
def Database.dormant (d : Database) : Database := { d with index := fun _ _ => none }

variable {l : Location} {sites : Sites} {c : Catalog} {fs : Files} {d : Database} {name : String}
  {ct : Content}

theorem Database.Described.dormant (hd : d.Described) : d.dormant.Described := ⟨hd.columns, hd.nonempty⟩

theorem Database.Fresh.dormant (hd : d.Fresh) : d.dormant = d := by
  obtain ⟨tables, columns, indices, table, index⟩ := d
  rw [Database.dormant]
  congr 1
  exact funext fun t => funext fun i => (hd.index t i).symm

namespace Models

/-- A model says nothing of the files of indices where these may be shared. -/
theorem shared (h : Models l sites c fs d) : Models l sites.shared c fs d where
  location := h.location
  directory := h.directory
  apart := h.apart.shared
  kept := h.kept
  stored := h.stored
  missing := h.missing
  index := h.index
  filed hexclusive := nomatch hexclusive

/-- A catalog that keeps nothing yet models what lies in the files. -/
theorem blank (h : Models l sites c fs d) : Models l sites.shared (.blank l) fs d.dormant where
  location := rfl
  directory := h.directory
  apart := h.apart.shared
  kept name r hk := by
    by_cases hn : name ∈ Schema.names
    · rw [Catalog.kept_blank hn] at hk
      cases hk
      obtain ⟨r, hkept⟩ := Catalog.exists_kept hn c
      obtain ⟨ct, hc, -⟩ := h.kept name r hkept
      have hcolumns : ct.columns = Schema.columnsOf name := by
        rcases Schema.mem_names.1 hn with rfl | rfl | rfl <;> cases hc <;> rfl
      exact ⟨ct, hc, hcolumns ▸ (h.stored name ct hc).2⟩
    · rw [Catalog.kept_of_not_mem hn] at hk
      cases hk
  stored := h.stored
  missing := h.missing
  index _ _ := rfl
  filed hexclusive := nomatch hexclusive

/-- A describing relation that is there is opened. -/
theorem createIfMissing (h : Models l sites c fs d) (hn : name ∈ Schema.names) :
    ∃ c', (Catalog.onRelation name Relation.createIfMissing).apply c fs = (.ok (), c', fs) ∧
      Models l sites c' fs d := by
  obtain ⟨r, hk⟩ := Catalog.exists_kept hn c
  obtain ⟨ct, hc, hr⟩ := h.kept name r hk
  obtain ⟨r', hx, hr'⟩ := Relation.createIfMissing_of_serves hr
  exact ⟨_, h.act hk hx (h.apart.beside_self _) hr' (becomes_self hc)⟩

/-- Setting up a database that lists a table changes no file. -/
theorem setUp_listed (h : Models l sites c fs d) (hlisted : d.tables.live ≠ []) : ∃ c',
    Catalog.setUp.apply (.blank l) fs = (.ok (), c', fs) ∧ Models l sites.shared c' fs d.dormant := by
  have hdirectory : Catalog.makeDirectory.apply (.blank l) fs = (.ok (), .blank l, fs) := by
    change ((fs.makeDirectories l.directory).1.mapError StorageError.file, Catalog.blank l,
      (fs.makeDirectories l.directory).2) = _
    rw [h.directory]
    rfl
  obtain ⟨c₁, hx₁, h₁⟩ := h.blank.createIfMissing (by decide : Schema.tables ∈ Schema.names)
  obtain ⟨c₂, hx₂, h₂⟩ := h₁.createIfMissing (by decide : Schema.columns ∈ Schema.names)
  obtain ⟨c₃, hx₃, h₃⟩ := h₂.createIfMissing (by decide : Schema.indices ∈ Schema.names)
  obtain ⟨c', hx', h'⟩ := (looks_onTables (Relation.reads_select none)).apply h₃
  rw [show (Catalog.onTables (Relation.select none)).value c₃ fs =
    .ok ((d.tables.image Schema.tableRow).live.map Prod.fst) from h₃.serves_tables.lists.select] at hx'
  have hne : ((d.tables.image Schema.tableRow).live.map Prod.fst).isEmpty = false := by
    rwa [List.isEmpty_eq_false_iff, Tape.live_image, List.map_map, ne_eq, List.map_eq_nil_iff]
  refine ⟨c', ?_, h'⟩
  rw [Catalog.setUp, apply_bind_ok hdirectory, Catalog.onTables_eq, apply_bind_ok hx₁, Catalog.onColumns_eq,
    apply_bind_ok hx₂, Catalog.onIndices_eq, apply_bind_ok hx₃, apply_bind_ok hx', hne]
  rfl

/-- Setting up a database that is there changes no file. -/
theorem setUp_again (h : Models l sites c fs d) (hd : d.Regular l sites) : ∃ c',
    Catalog.setUp.apply (.blank l) fs = (.ok (), c', fs) ∧ Models l sites.shared c' fs d.dormant := by
  -- the describing relations are listed already
  refine h.setUp_listed fun hnil => (hd.listed Schema.tables).2 (.inl (by decide)) ?_
  rw [tableHandles, hnil]
  rfl

/-! ## Indices that are not read yet -/

/-- What is looked up in an index that is not read yet depends on its description and its file alone. -/
theorem load_look_dormant_congr {sites' : Sites} {c' : Catalog} {fs' : Files} {d' : Database} {t i : String} {α : Type}
    (h : Models l sites c fs d.dormant) (h' : Models l sites' c' fs' d'.dormant)
    (hdef : d'.definition t i = d.definition t i) (hread : (d.definition t i).1 ≠ [] →
      fs'.read (l.indexPath t i) = fs.read (l.indexPath t i)) (f : Index → Except StorageError α) :
    (Catalog.onIndex t i (do Index.load; .look fun ix _ => f ix)).value c' fs' =
      (Catalog.onIndex t i (do Index.load; .look fun ix _ => f ix)).value c fs := by
  by_cases hnil : (d.definition t i).1 = []
  · obtain ⟨_, -, hx⟩ := h.onIndex_missing rfl hnil (do Index.load; .look fun ix _ => f ix)
    obtain ⟨_, -, hx'⟩ := h'.onIndex_missing rfl (hdef ▸ hnil) (do Index.load; .look fun ix _ => f ix)
    rw [value, value, hx, hx']
  · obtain ⟨_, -, hx⟩ := h.using_index (t := t) (i := i) (.inr ⟨rfl, hnil, rfl⟩)
    obtain ⟨_, -, hx'⟩ := h'.using_index (t := t) (i := i) (.inr ⟨rfl, hdef ▸ hnil, rfl⟩)
    have hsame : describedIndex l d'.dormant t i = describedIndex l d.dormant t i := by
      rw [describedIndex, describedIndex, show d'.dormant.definition t i = _ from hdef]
      rfl
    have hcontents : (describedIndex l d.dormant t i).contents fs' =
        (describedIndex l d.dormant t i).contents fs := Index.contents_congr rfl (hread hnil)
    rw [value, value, hx, hx', hsame]
    change (do Index.load; .look fun ix _ => f ix : Act StorageError Index α).value _ fs' =
      (do Index.load; .look fun ix _ => f ix : Act StorageError Index α).value (describedIndex l d.dormant t i) fs
    rw [Index.value_load_look, Index.value_load_look, hcontents]

end Models

end Rowbase
