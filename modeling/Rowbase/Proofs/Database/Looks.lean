import Rowbase.Proofs.Database.Sound
import Rowbase.Proofs.Query.Optimize

/-! # Looking at a database

An act that only looks returns what the database says and leaves the model. All that a statement does
before it changes anything is of this kind, and so is all that SELECT and SHOW do. -/
namespace Rowbase

open Act

/-- The handles under the key that a row has. -/
def Index.found (ix : Index) (row : Row) : Except StorageError (List Handle) := do
  let key ← ix.keyOf row
  return if key.hasNull then [] else ix.handles key

/-- Whether an act only reads, and leaves every model of a database one. -/
structure Looks (l : Location) (sites : Sites) (d : Database) {ε α : Type} (x : Act ε Catalog α) :
    Prop where
  reads : Reads Catalog.view x
  preserves : Preserves (Models l sites · · d) x

section
variable {l : Location} {sites : Sites} {d : Database} {ε ε' α β : Type} {x : Act ε Catalog α}
  {c : Catalog} {fs : Files} {t i : String} {P : Prop} {Q : Database → Prop}

theorem looks_pure (a : α) : Looks l sites d (pure a : Act ε Catalog α) :=
  ⟨reads_pure a, preserves_pure a⟩

theorem looks_throw (e : ε) : Looks l sites d (throw e : Act ε Catalog α) :=
  ⟨reads_throw e, preserves_throw e⟩

theorem looks_result (r : Except ε α) : Looks l sites d (result r : Act ε Catalog α) :=
  ⟨reads_result r, preserves_result r⟩

theorem Looks.bind {f : α → Act ε Catalog β} (hx : Looks l sites d x) (hf : ∀ a, Looks l sites d (f a)) :
    Looks l sites d (x >>= f) :=
  ⟨hx.reads.bind fun a => (hf a).reads, hx.preserves.bind fun a => (hf a).preserves⟩

theorem Looks.adapt (hx : Looks l sites d x) (g : ε → ε') : Looks l sites d (x.adapt g) :=
  ⟨hx.reads.adapt g, hx.preserves.adapt⟩

theorem Looks.map (hx : Looks l sites d x) (f : α → β) : Looks l sites d (f <$> x) := by
  rw [← bind_pure_comp]
  exact hx.bind fun _ => looks_pure _

theorem looks_mapM {f : α → Act ε Catalog β} (hf : ∀ a, Looks l sites d (f a)) (items : List α) :
    Looks l sites d (items.mapM f) :=
  ⟨reads_mapM (fun a => (hf a).reads) items, preserves_mapM (fun a => (hf a).preserves) items⟩

theorem Looks.apply (hx : Looks l sites d x) (h : Models l sites c fs d) :
    ∃ c', x.apply c fs = (x.value c fs, c', fs) ∧ Models l sites c' fs d :=
  h.reading hx.reads hx.preserves

/-- An act that goes on from what a look is known to return does what it does from there. -/
theorem Looks.known {a : α} (hx : Looks l sites d x) (h : Models l sites c fs d) (hv : x.value c fs = .ok a)
    (g : ε → ε') : ∃ c', Models l sites c' fs d ∧
      ∀ f : α → Act ε' Catalog β, (x.adapt g >>= f).apply c fs = (f a).apply c' fs := by
  obtain ⟨c', ha, h'⟩ := hx.apply h
  rw [hv] at ha
  refine ⟨c', h', fun f => apply_bind_ok ?_ f⟩
  rw [apply_adapt, ha]
  rfl

/-- Whether an act only looks, and what it returns in a state. -/
structure Tells (l : Location) (sites : Sites) (d : Database) (c : Catalog) (fs : Files) {ε α : Type}
    (x : Act ε Catalog α) (v : Except ε α) : Prop where
  looks : Looks l sites d x
  value : x.value c fs = v

theorem Looks.tells (hx : Looks l sites d x) (c : Catalog) (fs : Files) :
    Tells l sites d c fs x (x.value c fs) := ⟨hx, rfl⟩

theorem tells_pure (a : α) : Tells l sites d c fs (pure a : Act ε Catalog α) (.ok a) := ⟨looks_pure a, rfl⟩

theorem Tells.bind {f : α → Act ε Catalog β} {v : Except ε α} {w : α → Except ε β}
    (hx : Tells l sites d c fs x v) (hf : ∀ a, Tells l sites d c fs (f a) (w a)) :
    Tells l sites d c fs (x >>= f) (v >>= w) where
  looks := hx.looks.bind fun a => (hf a).looks
  value := by
    rw [hx.looks.reads.value_bind fun a => (hf a).looks.reads, hx.value]
    exact congrArg _ (funext fun a => (hf a).value)

theorem Tells.adapt {v : Except ε α} (hx : Tells l sites d c fs x v) (g : ε → ε') :
    Tells l sites d c fs (x.adapt g) (v.mapError g) :=
  ⟨hx.looks.adapt g, congrArg (Except.mapError g) hx.value⟩

/-! ## Looking at the entries -/

theorem Catalog.Surveys.looks (hx : Catalog.Surveys x) : Looks l sites d x :=
  ⟨hx.reads Catalog.shows_view, hx.preserves Models.withstands⟩

theorem looks_onTables {y : Act StorageError Relation α} (hy : Reads Relation.view y) :
    Looks l sites d (Catalog.onTables y) := (Catalog.surveys_onTables hy).looks

theorem looks_onColumns {y : Act StorageError Relation α} (hy : Reads Relation.view y) :
    Looks l sites d (Catalog.onColumns y) := (Catalog.surveys_onColumns hy).looks

theorem looks_onIndices {y : Act StorageError Relation α} (hy : Reads Relation.view y) :
    Looks l sites d (Catalog.onIndices y) := (Catalog.surveys_onIndices hy).looks

theorem looks_tableHandles (t : String) : Looks l sites d (Catalog.tableHandles t) :=
  (Catalog.surveys_tableHandles t).looks

theorem looks_indexHandles (t i : String) : Looks l sites d (Catalog.indexHandles t i) :=
  (Catalog.surveys_indexHandles t i).looks

theorem looks_columnsOf (t : String) : Looks l sites d (Catalog.columnsOf t) := (Catalog.surveys_columnsOf t).looks

theorem looks_indexNames (t : String) : Looks l sites d (Catalog.indexNames t) := (Catalog.surveys_indexNames t).looks

theorem looks_indexOutlines (t : String) : Looks l sites d (Catalog.indexOutlines t) :=
  (Catalog.surveys_indexOutlines t).looks

theorem looks_tableExists (t : String) : Looks l sites d (Catalog.tableExists t) :=
  (Catalog.surveys_tableExists t).looks

theorem value_tableExists (h : Models l sites c fs d) (t : String) :
    (Catalog.tableExists t).value c fs = .ok (!(d.tableHandles t).isEmpty) := by
  rw [Catalog.tableExists, (looks_tableHandles t : Looks l sites d _).reads.value_bind
    fun _ => reads_pure _, h.value_tableHandles]
  rfl

/-! ## Looking at tables and indices -/

theorem looks_onRelation (hd : d.Described) {y : Act StorageError Relation α}
    (hy : Reads Relation.view y) : Looks l sites d (Catalog.onRelation t y) :=
  ⟨Catalog.reads_onRelation t hy, Models.preserves_onRelation hd hy⟩

/-- A row that is there is read back as it is stored. -/
theorem Models.readRow (h : Models l sites c fs d) (hd : d.Described) {ct : Content}
    (hc : d.content t = some ct) {handle : Handle} {row : Row} (hm : (handle, row) ∈ ct.rows.live) :
    ∃ c', (Catalog.onRelation t (Relation.project handle [])).apply c fs = (.ok row, c', fs) ∧
      Models l sites c' fs d := by
  obtain ⟨c', hread, h'⟩ := (looks_onRelation (t := t) hd (Relation.reads_project handle [])).apply h
  obtain ⟨r, hr, hv⟩ := h.value_onRelation hd hc
  rw [hv, hr.value_project hm] at hread
  exact ⟨c', hread, h'⟩

/-- What an index finds under the key of a row. -/
theorem apply_lookup (h : Models l sites c fs d) (hd : d.Regular l sites) {ix : Index}
    (hx : d.index t i = some ix) (row : Row) :
    ∃ c', (Catalog.onIndex t i (Index.lookup row)).apply c fs = (ix.found row, c', fs) ∧
      Models l sites c' fs d := by
  obtain ⟨ct, -, hs⟩ := hd.stands t i ix hx
  have hlook : (Index.lookup row).apply ix fs = (ix.found row, ix, fs) := by
    rw [Index.lookup, apply_bind_ok (Index.apply_load_of_loaded hs.loaded), apply_look]
    rfl
  obtain ⟨c', ha, h'⟩ := h.onIndex (.inl hx) hlook (.inr rfl) (h.apart.beside_self _)
    (Models.Usable.filed (.inl hx) h)
  rw [Database.setIndex_self hx] at h'
  exact ⟨c', ha, h'⟩

/-- An index that is not there is not described either. -/
theorem apply_onIndex_none (h : Models l sites c fs d) (hd : d.Regular l sites)
    (hx : d.index t i = none) (y : Act StorageError Index α) :
    ∃ c', (Catalog.onIndex t i y).apply c fs = (.error (.relation (.indexMissing i t)), c', fs) ∧
      Models l sites c' fs d := by
  have hdef : (d.definition t i).1 = [] := by
    rw [Database.definition_eq_nil]
    by_contra hne
    exact (hd.indexed t i).1 hne hx
  obtain ⟨c', h', ha⟩ := h.onIndex_missing hx hdef y
  exact ⟨c', ha, h'⟩

theorem looks_lookup (hd : d.Regular l sites) (row : Row) :
    Looks l sites d (Catalog.onIndex t i (Index.lookup row)) := by
  refine ⟨Catalog.reads_onIndex t i (Index.reads_lookup row), fun c fs h => ?_⟩
  cases hx : d.index t i with
  | none =>
    obtain ⟨c', ha, h'⟩ := apply_onIndex_none h hd hx (Index.lookup row)
    rw [ha]
    exact h'
  | some ix =>
    obtain ⟨c', ha, h'⟩ := apply_lookup h hd hx row
    rw [ha]
    exact h'

theorem looks_find (hd : d.Regular l sites) : ∀ p : Plan, Looks l sites d p.find
  | .scan _ | .filteredScan _ _ => looks_onRelation hd.toDescribed (Relation.reads_select _)
  | .filter condition input => (looks_find hd input).bind fun handles =>
      looks_onRelation hd.toDescribed (Relation.reads_keep condition handles)
  | .project _ input => looks_find hd input
  | .indexLookup t i key residual => by
    refine (looks_onRelation hd.toDescribed (Plan.reads_keyFits key)).bind fun fits => ?_
    split
    · refine (looks_lookup hd key).bind fun handles => ?_
      cases residual with
      | none => exact looks_pure _
      | some residual => exact looks_onRelation hd.toDescribed (Relation.reads_keep residual handles)
    · exact looks_onRelation hd.toDescribed (Relation.reads_select _)

theorem looks_evaluate (hd : d.Regular l sites) (p : Plan) : Looks l sites d p.evaluate :=
  (looks_find hd p).bind fun handles => looks_onRelation hd.toDescribed (Plan.reads_output p handles)

end

end Rowbase
