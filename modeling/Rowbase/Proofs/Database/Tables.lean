import Rowbase.Proofs.Database.Entries

/-! # Using tables

A table that is described is found under its name, whether it was used before or not. Its rows can be
added to and cleared, it can be made from its description, and it can be forgotten and dropped. -/
namespace Rowbase

open Files (Apart Beside)

/-- Whether every table has the columns that the catalog says, and at least one. -/
structure Database.Described (d : Database) : Prop where
  columns : ∀ t, t ∉ Schema.names → d.columnsOf t = (d.table t).elim [] Content.columns
  nonempty : ∀ t ct, d.table t = some ct → ct.columns ≠ []

/-- Whether a row makes a record of a table. -/
def Content.Takes (ct : Content) (t : String) (row : Row) : Prop :=
  ∃ data, (Relation.describe t ct.columns "").record row = .ok data

namespace Catalog

variable {c c₀ : Catalog} {fs : Files} {t : String} {r : Relation} {columns : List Column} {α : Type}

theorem not_mem_of_not_kept (hk : c.kept t = none) : t ∉ Schema.names := by
  intro hn
  rcases Schema.mem_names.1 hn with rfl | rfl | rfl <;> cases hk

/-- A relation that is not kept is made from what the catalog says of its columns. -/
theorem apply_remember_of_columnsOf (hk : c.kept t = none)
    (hx : (columnsOf t).apply c fs = (.ok columns, c₀, fs)) : (remember t).apply c fs =
      if columns.isEmpty then (.error (.relation (.relationMissing t)), c₀, fs)
      else (.ok (Relation.describe t columns (c₀.location.relationPath t)),
        c₀.keep t (Relation.describe t columns (c₀.location.relationPath t)), fs) := by
  have hn := not_mem_of_not_kept hk
  rw [kept_of_not_mem hn] at hk
  rw [remember, Act.apply_bind_ok (Act.apply_thing c fs), hk]
  refine (Act.apply_bind_ok hx _).trans ?_
  by_cases he : columns.isEmpty = true
  · rw [if_pos he, if_pos he]
    rfl
  · rw [if_neg he, if_neg he, keep_of_not_mem hn]
    rfl

/-- What is done to a relation that is remembered is done to the one that is kept then. -/
theorem onRelation_of_remember (hn : t ∉ Schema.names) (hx : (remember t).apply c fs = (.ok r, c₀, fs))
    (hk : c₀.kept t = some r) (x : Act StorageError Relation α) :
    (onRelation t x).apply c fs = (onRelation t x).apply c₀ fs := by
  rw [onRelation_of_kept hk, onRelation_of_not_mem hn, Act.apply_bind_ok hx, keep_of_not_mem hn]
  rfl

end Catalog

namespace Models

variable {l : Location} {sites : Sites} {c c' : Catalog} {fs fs' : Files} {d d' : Database}
  {t : String} {r r' : Relation} {ct : Content} {row : Row} {α : Type}

theorem not_kept (h : Models l sites c fs d) (hc : d.content t = none) : c.kept t = none := by
  cases hk : c.kept t with
  | none => rfl
  | some r =>
    obtain ⟨ct, hc', -⟩ := h.kept t r hk
    rw [hc] at hc'
    cases hc'

/-- A relation that is not kept is made from its description, if it has one. -/
theorem remember_of_not_kept (h : Models l sites c fs d) (hk : c.kept t = none) :
    ∃ c₀, Models l sites c₀ fs d ∧ (Catalog.remember t).apply c fs =
      if (d.columnsOf t).isEmpty then (.error (.relation (.relationMissing t)), c₀, fs)
      else (.ok (Relation.describe t (d.columnsOf t) (l.relationPath t)),
        c₀.keep t (Relation.describe t (d.columnsOf t) (l.relationPath t)), fs) := by
  obtain ⟨c₀, hx, h₀⟩ := h.surveying (Catalog.surveys_columnsOf t)
  rw [h.value_columnsOf] at hx
  exact ⟨c₀, h₀, by rw [Catalog.apply_remember_of_columnsOf hk hx, h₀.location]⟩

/-- A table that is there can be kept as it is described. -/
theorem keepDescribed (h : Models l sites c fs d) (hn : t ∉ Schema.names) (hc : d.table t = some ct) :
    Models l sites (c.keep t (Relation.describe t ct.columns (l.relationPath t))) fs d := by
  rw [← Database.content_of_not_mem hn] at hc
  obtain ⟨hs, hstored⟩ := h.stored t ct hc
  refine h.replace hs (h.apart.beside_self _) (Database.becomes_self hc) Catalog.location_keep
    Catalog.indexes_keep (fun other ho => by rw [Catalog.kept_keep, if_neg ho])
    (fun r hr => ⟨ct, rfl, ?_⟩) (fun ct' hct => ?_) (fun hnone => absurd hnone (Option.some_ne_none ct))
  · rw [Catalog.kept_keep, if_pos rfl] at hr
    cases hr
    exact hstored
  · cases hct
    exact hstored

/-- The catalog says which columns a table has, and these are not none. -/
theorem columnsOf_of_table (hd : d.Described) (hn : t ∉ Schema.names) (hc : d.table t = some ct) :
    d.columnsOf t = ct.columns ∧ ¬ ct.columns.isEmpty = true := by
  rw [hd.columns t hn, hc, List.isEmpty_iff]
  exact ⟨rfl, hd.nonempty t ct hc⟩

/-- A table that is there can be used. -/
theorem remember (h : Models l sites c fs d) (hd : d.Described) (hn : t ∉ Schema.names)
    (hc : d.table t = some ct) : ∃ c₁ r, c₁.kept t = some r ∧ Models l sites c₁ fs d ∧
      (Catalog.remember t).apply c fs = (.ok r, c₁, fs) := by
  cases hk : c.kept t with
  | some r => exact ⟨c, r, hk, h, Catalog.apply_remember_of_kept hn hk fs⟩
  | none =>
    obtain ⟨hcols, hne⟩ := columnsOf_of_table hd hn hc
    obtain ⟨c₀, h₀, hx⟩ := h.remember_of_not_kept hk
    rw [hcols, if_neg hne] at hx
    exact ⟨_, _, Catalog.kept_keep.trans (if_pos rfl), h₀.keepDescribed hn hc, hx⟩

/-- A relation is found under its name. -/
theorem using_relation (h : Models l sites c fs d) (hd : d.Described) (hc : d.content t = some ct) :
    ∃ c₁ r, c₁.kept t = some r ∧ Models l sites c₁ fs d ∧
      ∀ {α : Type} (x : Act StorageError Relation α),
        (Catalog.onRelation t x).apply c fs = (Catalog.onRelation t x).apply c₁ fs := by
  by_cases hn : t ∈ Schema.names
  · obtain ⟨r, hk⟩ := Catalog.exists_kept hn c
    exact ⟨c, r, hk, h, fun _ => rfl⟩
  · rw [Database.content_of_not_mem hn] at hc
    obtain ⟨c₁, r, hk, h₁, hx⟩ := h.remember hd hn hc
    exact ⟨c₁, r, hk, h₁, fun x => Catalog.onRelation_of_remember hn hx hk x⟩

/-- What is not described is not found. -/
theorem onRelation_missing (h : Models l sites c fs d) (hd : d.Described) (hc : d.content t = none)
    (x : Act StorageError Relation α) : ∃ c', Models l sites c' fs d ∧
      (Catalog.onRelation t x).apply c fs = (.error (.relation (.relationMissing t)), c', fs) := by
  have hk := h.not_kept hc
  have hn := Catalog.not_mem_of_not_kept hk
  have hcols : d.columnsOf t = [] := by
    rw [hd.columns t hn, ← Database.content_of_not_mem hn, hc]
    rfl
  obtain ⟨c₀, h₀, hx⟩ := h.remember_of_not_kept hk
  rw [hcols] at hx
  refine ⟨c₀, h₀, ?_⟩
  rw [Catalog.onRelation_of_not_mem hn, Act.apply_bind_error hx]

theorem preserves_onRelation (hd : d.Described) {x : Act StorageError Relation α}
    (hx : Act.Reads Relation.view x) :
    Act.Preserves (Models l sites · · d) (Catalog.onRelation t x) := fun c fs h => by
  cases hc : d.content t with
  | none =>
    obtain ⟨c', h', ha⟩ := h.onRelation_missing hd hc x
    rw [ha]
    exact h'
  | some ct =>
    obtain ⟨c₁, r, hk, h₁, ha⟩ := h.using_relation hd hc
    obtain ⟨r', ha', h'⟩ := h₁.read hx hk
    rw [ha, ha']
    exact h'

/-- What an act on a table returns is what it returns on a relation that serves as the table. -/
theorem value_onRelation (h : Models l sites c fs d) (hd : d.Described) (hc : d.content t = some ct) :
    ∃ r, r.Serves l fs t ct.columns ct.rows ∧
      ∀ {α : Type} (x : Act StorageError Relation α),
        (Catalog.onRelation t x).value c fs = x.value r fs := by
  obtain ⟨c₁, r, hk, h₁, ha⟩ := h.using_relation hd hc
  refine ⟨r, h₁.serves hk hc, fun x => ?_⟩
  rw [Act.value, ha, Catalog.onRelation_of_kept hk]
  rfl

/-! ## Rows -/

theorem takes_iff (hr : r.Serves l fs t ct.columns ct.rows) :
    ct.Takes t row ↔ ∃ data, r.record row = .ok data := by
  rw [Content.Takes, ← Relation.record_congr (r := Relation.describe t ct.columns "") hr.name_eq
    hr.columns_eq]

/-- A row that makes a record comes at the end of its table. -/
theorem addRow (h : Models l sites c fs d) (hd : d.Described) (hn : t ∉ Schema.names)
    (hc : d.table t = some ct) (row : Row) :
    (∃ e c', ¬ ct.Takes t row ∧ Models l sites c' fs d ∧
      (Catalog.onRelation t (Relation.insert row)).apply c fs = (.error e, c', fs)) ∨
    ∃ handle c' fs', ct.Takes t row ∧
      (Catalog.onRelation t (Relation.insert row)).apply c fs = (.ok handle, c', fs') ∧
      Models l sites c' fs' (d.setTable t
        (some ⟨ct.columns, ct.rows ++ [(handle, some (Row.filled ct.columns row))]⟩)) := by
  rw [← Database.content_of_not_mem hn] at hc
  obtain ⟨c₁, r, hk, h₁, ha⟩ := h.using_relation hd hc
  have htakes : ct.Takes t row ↔ _ := takes_iff (h₁.serves hk hc)
  rw [ha]
  rcases h₁.insert hk hc row with ⟨e, r', he, hx, h'⟩ | ⟨data, handle, r', fs', hdata, hx, -, h'⟩
  · refine .inl ⟨e, _, fun ht => ?_, h', hx⟩
    obtain ⟨data, hdata⟩ := htakes.1 ht
    rw [he] at hdata
    cases hdata
  · exact .inr ⟨handle, _, fs', htakes.2 ⟨data, hdata⟩, hx, h' _ (Database.becomes_setTable hn _)⟩

theorem clearRow (h : Models l sites c fs d) (hd : d.Described) (hn : t ∉ Schema.names)
    (hc : d.table t = some ct) (handle : Handle) :
    ∃ res c' fs', (Catalog.onRelation t (Relation.delete handle)).apply c fs = (res, c', fs') ∧
      ((∃ row, (handle, row) ∈ ct.rows.live) → res = .ok ()) ∧
      Models l sites c' fs' (d.setTable t (some ⟨ct.columns, ct.rows.clear handle⟩)) := by
  rw [← Database.content_of_not_mem hn] at hc
  obtain ⟨c₁, r, hk, h₁, ha⟩ := h.using_relation hd hc
  obtain ⟨res, r', fs', hx, hres, h'⟩ := h₁.delete hk hc handle
  exact ⟨res, _, fs', by rw [ha, hx], hres, h' _ (Database.becomes_setTable hn _)⟩

/-! ## Making and dropping -/

/-- A table is made if it is described. -/
theorem makeTable {x : Act StorageError Relation Unit}
    (hx : x = Relation.create ∨ x = Relation.createIfMissing) (h : Models l sites c fs d)
    (hs : .relation t ∈ sites) (hc : d.content t = none) :
    (d.columnsOf t = [] ∧ ∃ e c', Models l sites c' fs d ∧
      (Catalog.onRelation t x).apply c fs = (.error e, c', fs)) ∨
    (d.columnsOf t ≠ [] ∧ ∃ c' fs', (Catalog.onRelation t x).apply c fs = (.ok (), c', fs') ∧
      Models l sites c' fs' (d.setTable t (some ⟨d.columnsOf t, []⟩))) := by
  have hk := h.not_kept hc
  have hn := Catalog.not_mem_of_not_kept hk
  obtain ⟨c₀, h₀, hr⟩ := h.remember_of_not_kept hk
  rw [Catalog.onRelation_of_not_mem hn]
  by_cases he : (d.columnsOf t).isEmpty = true
  · rw [if_pos he] at hr
    exact .inl ⟨List.isEmpty_iff.1 he, _, c₀, h₀, Act.apply_bind_error hr _⟩
  · rw [if_neg he] at hr
    have hmade : ∃ r' fs', x.apply (Relation.describe t (d.columnsOf t) (l.relationPath t)) fs =
        (.ok (), r', fs') ∧ Beside l sites (l.relationPath t) fs fs' ∧
          r'.Serves l fs' t (d.columnsOf t) [] := by
      have hf := h₀.missing t hs hc
      rcases hx with rfl | rfl
      · exact Relation.create_serves h₀.apart hs hf rfl rfl rfl rfl
      · exact Relation.createIfMissing_serves h₀.apart hs hf rfl rfl rfl rfl
    obtain ⟨r', fs', hx, hb, hserves⟩ := hmade
    generalize hc₁ : c₀.keep t (Relation.describe t (d.columnsOf t) (l.relationPath t)) = c₁ at hr
    refine .inr ⟨fun hnil => he (by rw [hnil]; rfl), c₁.keep t r', fs', ?_, ?_⟩
    · rw [Act.apply_bind_ok hr, Act.apply_within, hx, Catalog.keep_of_not_mem hn]
    · refine h₀.replace hs hb (Database.becomes_setTable hn _) ?_ ?_ (fun other ho => ?_)
        (fun r hr => ⟨_, rfl, ?_⟩) (fun ct' hct => ?_) nofun
      · rw [Catalog.location_keep, ← hc₁, Catalog.location_keep]
      · rw [Catalog.indexes_keep, ← hc₁, Catalog.indexes_keep]
      · rw [Catalog.kept_keep, if_neg ho, ← hc₁, Catalog.kept_keep, if_neg ho]
      · rw [Catalog.kept_keep, if_pos rfl] at hr
        cases hr
        exact hserves
      · cases hct
        exact hserves.described

theorem forgetTable (h : Models l sites c fs d) (t : String) : ∃ c', Models l sites c' fs d ∧
    (t ∉ Schema.names → c'.kept t = none) ∧ (Catalog.forgetTable t).apply c fs = (.ok (), c', fs) := by
  refine ⟨{ c with relations := c.relations.erase t }, ?_, fun hn => ?_, rfl⟩
  · refine ⟨h.location, h.directory, h.apart, fun name r hk => h.kept name r ?_, h.stored, h.missing,
      h.index, h.filed⟩
    by_cases hn : name ∈ Schema.names
    · rcases Schema.mem_names.1 hn with rfl | rfl | rfl <;> exact hk
    · rw [Catalog.kept_of_not_mem hn] at hk ⊢
      rw [Bindings.get?_erase] at hk
      split at hk
      · cases hk
      · exact hk
  · rw [Catalog.kept_of_not_mem hn, Bindings.get?_erase, if_pos rfl]

/-- A table is taken out of the catalog's hands, which leaves its file. -/
theorem detach (h : Models l sites c fs d) (hd : d.Described) (hn : t ∉ Schema.names)
    (hc : d.table t = some ct) : ∃ r c', r.file.path = l.relationPath t ∧ Models l sites c' fs d ∧
      c'.kept t = none ∧ (Catalog.detach t).apply c fs = (.ok r, c', fs) := by
  obtain ⟨c₁, r, hk, h₁, hx⟩ := h.remember hd hn hc
  rw [← Database.content_of_not_mem hn] at hc
  obtain ⟨c', h', hk', hf⟩ := h₁.forgetTable t
  refine ⟨r, c', (h₁.serves hk hc).path_eq, h', hk' hn, ?_⟩
  rw [Catalog.detach, if_neg hn]
  change (do
    let r ← Catalog.remember t
    Catalog.forgetTable t
    return r : Act StorageError Catalog Relation).apply c fs = _
  rw [Act.apply_bind_ok hx, Act.apply_bind_ok hf]
  rfl

/-- The file of a table that was detached is dropped, and the table with it. -/
theorem dropDetached (h : Models l sites c fs d) (hn : t ∉ Schema.names) (hc : d.table t = some ct)
    (hk : c.kept t = none) (hp : r.file.path = l.relationPath t) :
    ∃ fs', (Relation.drop.within (fun _ => r) fun _ c => c : Act StorageError Catalog Unit).apply c fs =
        (.ok (), c, fs') ∧ Models l sites c fs' (d.setTable t none) := by
  rw [← Database.content_of_not_mem hn] at hc
  obtain ⟨hs, hserves⟩ := h.stored t ct hc
  obtain ⟨id, hh⟩ := hserves.holds
  obtain ⟨r', fs', hx, hb, hf⟩ := Relation.drop_removes h.apart (hserves.find_of hh) hp
  refine ⟨fs', by rw [Act.apply_within, hx], ?_⟩
  refine h.replace hs hb (Database.becomes_setTable hn _) rfl rfl (fun _ _ => rfl) (fun r hr => ?_)
    nofun fun _ => hf
  rw [hk] at hr
  cases hr

end Models

end Rowbase
