import Rowbase.Proofs.Twin.Tables

/-! # Making tables, and taking them back

A table that cannot be made is taken back: its entries are cleared, what was known of it is forgotten, and no file but
the own ones has changed. So a CREATE TABLE that fails leaves a catalog that matches the one it was carried out on, and
on catalogs that match it does the same. -/
namespace Rowbase

open Act Database
open Files (SameBut Clear)

/-- The first reason why the entries about a table cannot be recorded. -/
def Schema.announces (t : String) (columns : List Column) : Except StorageError PUnit := do
  discard (record tables (tableRow t))
  columns.forM fun c => discard (record Schema.columns (columnRow t c.name c.domain.kind))

theorem Schema.records_of_announces {t : String} {column : Column} : ∀ {columns : List Column},
    announces t columns = .ok () → column ∈ columns →
      Records Schema.columns (columnRow t column.name column.domain.kind)
  | first :: columns, h, hm => by
    obtain ⟨_, htable, hrest⟩ := bind_eq_ok.1 h
    rw [List.forM_eq_forM, List.forM_cons] at hrest
    obtain ⟨_, hfirst, hrest⟩ := bind_eq_ok.1 hrest
    rcases List.mem_cons.1 hm with rfl | hm
    · obtain ⟨data, hdata, -⟩ := bind_eq_ok.1 hfirst
      exact ⟨data, hdata⟩
    · exact records_of_announces (bind_eq_ok.2 ⟨(), htable, hrest⟩) hm

/-! ## Making files -/

namespace Relation

variable {own : Nat → Prop} {r r' : Relation} {fs fs' g : Files} {id : Nat} {path : String} {error : StorageError}

theorem files_of_create_error (h : create.apply r fs = (.error error, r', g)) : g = fs := by
  rw [create, apply_change] at h
  split at h <;> cases h
  rfl

theorem files_of_opening (r : Relation) (fs : Files) : (opening.apply r fs).2.2 = fs := by
  rw [apply_opening]
  cases r.file.opened fs <;> rfl

/-- Where no file is made no file changes. -/
theorem files_of_make_error {adopt : Bool}
    (h : (if adopt then createIfMissing else create).apply r fs = (.error error, r', g)) : g = fs := by
  cases adopt with
  | false => exact files_of_create_error h
  | true =>
    change createIfMissing.apply r fs = _ at h
    rw [createIfMissing, apply_bind_ok (apply_look _ r fs)] at h
    split at h
    · have hfiles := files_of_opening r fs
      rwa [h] at hfiles
    · exact files_of_create_error h

/-- A file that is there is not made again. -/
theorem make_reads (hf : fs.find r.file.path = .ok id) (adopt : Bool) : ∃ y : Act StorageError Relation Unit,
    Reads view y ∧ (if adopt then createIfMissing else create).apply r fs = y.apply r fs := by
  cases adopt with
  | false =>
    obtain ⟨error, herror⟩ := exists_create_error r .alreadyExists
    exact ⟨throw error, reads_throw error, herror (Files.alreadyExists_of_find hf)⟩
  | true =>
    refine ⟨do opening; .look fun _ _ => .ok (), reads_opening_look _, ?_⟩
    change createIfMissing.apply r fs = _
    rw [createIfMissing_of_find hf, apply_bind, apply_opening]
    cases r.file.opened fs <;> rfl

/-- An own file is not made again, for the same reason in all states that differ in own files alone, and it is taken for
a new one where this is asked for. -/
theorem make_own (adopt : Bool) (h : SameBut own fs fs') (hmade : ∀ id, own id → id < fs.contents.size)
    (hf : fs.find r.file.path = .ok id) : ∃ res r₁ r₁',
      (if adopt then createIfMissing else create).apply r fs = (res, r₁, fs) ∧
      (if adopt then createIfMissing else create).apply r fs' = (res, r₁', fs') := by
  cases adopt with
  | false =>
    have hx := Files.alreadyExists_of_find hf
    have hagree := h.create hmade r.file.path
    rw [hx] at hagree
    generalize hx' : fs'.create r.file.path = x' at hagree
    cases hagree
    obtain ⟨error, herror⟩ := exists_create_error r .alreadyExists
    exact ⟨.error error, r, r, herror hx, herror hx'⟩
  | true =>
    have hopen : ∀ {k : Files}, k.find r.file.path = .ok id → ∃ r₁, createIfMissing.apply r k = (.ok (), r₁, k) := by
      intro k hk
      rw [createIfMissing_of_find hk, apply_opening, Heap.BlockFile.opened]
      split
      · rename_i ho
        split at ho
        · cases ho
        · rw [hk] at ho
          cases ho
      · exact ⟨_, rfl⟩
    obtain ⟨r₁, h₁⟩ := hopen hf
    obtain ⟨r₁', h₁'⟩ := hopen ((h.find r.file.path).trans hf)
    exact ⟨.ok (), r₁, r₁', h₁, h₁'⟩

theorem passesBy_make (adopt : Bool) :
    PassesBy own (Away own path) (if adopt then createIfMissing else create) := by
  cases adopt
  · exact passesBy_create
  · exact passesBy_createIfMissing

end Relation

namespace Catalog

variable {l : Location} {own : Nat → Prop} {L : List String} {K U : String → Prop} {d d' d₁ : Database} {t : String}
  {c c' c₁ : Catalog} {fs fs' fs₁ : Files} {handle : Handle} {added : List (Handle × ColumnEntry)}
  {columns : List Column} {adopt : Bool} {error : StorageError}

/-! ## Taking back -/

/-- The catalog that knows nothing of a table. -/
def without (c : Catalog) (t : String) : Catalog := { c with relations := c.relations.erase t }

theorem SameUse.without (h : SameUse c c') (t : String) : SameUse (c.without t) (c'.without t) := by
  refine ⟨h.location, fun t' => ?_, h.indexes⟩
  rw [Catalog.without, Catalog.without, Bindings.get?_erase, Bindings.get?_erase, h.relations]

/-- To forget a table that is not known changes nothing. -/
theorem sameUse_without (h : c.relations.get? t = none) : SameUse c (c.without t) := by
  refine ⟨rfl, fun t' => ?_, rfl⟩
  rw [Catalog.without, Bindings.get?_erase]
  split
  · rename_i he
    rw [he, h]
  · rfl

theorem Holds.without (h : Holds l own c fs d) (t : String) : Holds l own (c.without t) fs d :=
  ⟨h.models, h.owned, h.sole⟩

theorem Inside.without (h : Inside l own c fs c₁ fs₁ d) (t : String) :
    Inside l own (c.without t) fs (c₁.without t) fs₁ d := ⟨h.holds.without t, h.use.without t, h.files⟩

/-- Whether nothing is left of a table but a catalog that knows nothing of it. -/
def TakenBack (l : Location) (own : Nat → Prop) (t : String) (d : Database) (c : Catalog) (fs : Files) (c₁ : Catalog)
    (fs₁ : Files) : Prop := ∃ d₁, Inside l own (c.without t) fs c₁ fs₁ d₁ ∧ d.SameLists d₁

theorem TakenBack.of_inside {c₂ : Catalog} {fs₂ : Files} (h : TakenBack l own t d c₁ fs₁ c₂ fs₂)
    (hin : Inside l own c fs c₁ fs₁ d₁) : TakenBack l own t d c fs c₂ fs₂ := by
  obtain ⟨d₂, h, hsame⟩ := h
  exact ⟨d₂, (hin.without t).trans h, hsame⟩

/-- A table that is still to be made is taken back without a trace. -/
theorem Holds.unmakeTable (h : Holds l own (c.without t) fs (d.announce t handle added)) :
    ∃ c₁ fs₁, (Catalog.unmakeTable t (announceLog handle added)).apply c fs = (.ok (), c₁, fs₁) ∧
      TakenBack l own t d c fs c₁ fs₁ := by
  obtain ⟨c₁, fs₁, d₁, hx, hin, hsame⟩ := h.rollBack_announced
  exact ⟨c₁, fs₁, (apply_bind_ok (apply_update _ c fs) _).trans hx, d₁, hin, hsame⟩

/-! ## Announcing -/

/-- The entries about the columns come one after the other, or the table is taken back. -/
theorem Holds.recordColumns : ∀ (rest : List Column) (added : List (Handle × ColumnEntry)) (c : Catalog) (fs : Files),
    Holds l own c fs (d.announce t handle added) →
    (∃ e c₁ fs₁,
        (rest.forM fun c => discard (Schema.record Schema.columns (Schema.columnRow t c.name c.domain.kind))) =
          .error e ∧
        (Catalog.recordColumns t (announceLog handle added) rest).apply c fs = (.error e, c₁, fs₁) ∧
        TakenBack l own t d c fs c₁ fs₁) ∨
    ∃ new c₁ fs₁,
      (rest.forM fun c => discard (Schema.record Schema.columns (Schema.columnRow t c.name c.domain.kind))) = .ok () ∧
      (Catalog.recordColumns t (announceLog handle added) rest).apply c fs =
        (.ok (announceLog handle (added ++ new)), c₁, fs₁) ∧
      new.map Prod.snd = rest.map (ColumnEntry.about t) ∧ Inside l own c fs c₁ fs₁ (d.announce t handle (added ++ new))
  | [], added, c, fs, h => by
    refine .inr ⟨[], c, fs, rfl, ?_, rfl, ?_⟩ <;> rw [List.append_nil]
    · rfl
    · exact h.inside
  | column :: rest, added, c, fs, h => by
    rw [List.forM_eq_forM, List.forM_cons, Catalog.recordColumns]
    rcases h.insertEntry shelf_columns (ColumnEntry.about t column) with
      ⟨e, c₁, hrec, hx, hin⟩ | ⟨new, c₁, fs₁, ⟨data, hrec⟩, hx, hin⟩
    · obtain ⟨c₂, fs₂, hunmake, hback⟩ := (hin.holds.without t).unmakeTable
      have hfailed := apply_onFailure_error hx (Catalog.unmakeTable t (announceLog handle added))
      rw [hunmake] at hfailed
      refine .inl ⟨e, c₂, fs₂, ?_, apply_bind_error hfailed _, hback.of_inside hin⟩
      rw [show Schema.record Schema.columns (Schema.columnRow t column.name column.domain.kind) = .error e from hrec]
      rfl
    · have hfirst := apply_onFailure_ok hx (Catalog.unmakeTable t (announceLog handle added))
      have hannounced : Inside l own c fs c₁ fs₁ (d.announce t handle (added ++ [(new, ColumnEntry.about t column)])) := by
        rw [announce, Tape.ofLive_concat, ← List.append_assoc]
        exact hin
      have hgo := apply_bind_ok hfirst fun new =>
        Catalog.recordColumns t (.inserted Schema.columns new :: announceLog handle added) rest
      rw [← announceLog_concat handle added new (ColumnEntry.about t column)] at hgo
      rw [show Schema.record Schema.columns (Schema.columnRow t column.name column.domain.kind) = .ok data from hrec]
      rcases Holds.recordColumns rest _ c₁ fs₁ hannounced.holds with
        ⟨e, c₂, fs₂, hrest, hx₂, hback⟩ | ⟨more, c₂, fs₂, hrest, hx₂, hmore, hin₂⟩
      · exact .inl ⟨e, c₂, fs₂, hrest, hgo.trans hx₂, hback.of_inside hannounced⟩
      · rw [List.append_assoc] at hx₂ hin₂
        refine .inr ⟨(new, ColumnEntry.about t column) :: more, c₂, fs₂, hrest, hgo.trans hx₂, ?_,
          hannounced.trans hin₂⟩
        rw [List.map_cons, List.map_cons, hmore]

/-- Describes a table that is still to be made, and returns the log of this. -/
def announceTable (t : String) (columns : List Column) : Act StorageError Catalog (List Change) := do
  let h ← (onTables (Relation.insert (Schema.tableRow t))).onFailure (Catalog.unmakeTable t [])
  Catalog.recordColumns t [.inserted Schema.tables h] columns

/-- Making a table, step by step. -/
theorem makeTable_eq (t : String) (columns : List Column) (adopt : Bool) : makeTable t columns adopt = (do
    let log ← announceTable t columns
    (onRelation t (if adopt then Relation.createIfMissing else Relation.create)).onFailure
      (Catalog.unmakeTable t log)) := by
  rw [makeTable, announceTable, bind_assoc]

/-- A table is announced just if all entries about it can be recorded, and is taken back otherwise. -/
theorem Holds.announceTable (h : Holds l own c fs d) (t : String) (columns : List Column) :
    (∃ e c₁ fs₁, Schema.announces t columns = .error e ∧
      (Catalog.announceTable t columns).apply c fs = (.error e, c₁, fs₁) ∧ TakenBack l own t d c fs c₁ fs₁) ∨
    ∃ handle added c₁ fs₁, Schema.announces t columns = .ok () ∧
      (Catalog.announceTable t columns).apply c fs = (.ok (announceLog handle added), c₁, fs₁) ∧
      added.map Prod.snd = columns.map (ColumnEntry.about t) ∧ Inside l own c fs c₁ fs₁ (d.announce t handle added) := by
  rw [Catalog.announceTable, Schema.announces]
  rcases h.insertEntry shelf_tables t with ⟨e, c₁, hrec, hx, hin⟩ | ⟨handle, c₁, fs₁, ⟨data, hrec⟩, hx, hin⟩
  · have hfailed := apply_onFailure_error hx (Catalog.unmakeTable t [])
    rw [hrec]
    exact .inl ⟨e, c₁.without t, fs, rfl, apply_bind_error hfailed _, d, hin.without t, .refl d⟩
  · have hannounced : Inside l own c fs c₁ fs₁ (d.announce t handle []) := by
      rw [announce, Tape.append_ofLive_nil]
      exact hin
    have hgo := apply_bind_ok (apply_onFailure_ok hx (Catalog.unmakeTable t [])) fun h =>
      Catalog.recordColumns t [.inserted Schema.tables h] columns
    rw [show Schema.record Schema.tables (Schema.tableRow t) = .ok data from hrec]
    rcases Holds.recordColumns columns [] c₁ fs₁ hannounced.holds with
      ⟨e, c₂, fs₂, hrest, hx₂, hback⟩ | ⟨added, c₂, fs₂, hrest, hx₂, hadded, hin₂⟩
    · exact .inl ⟨e, c₂, fs₂, hrest, hgo.trans hx₂, hback.of_inside hannounced⟩
    · rw [List.nil_append] at hx₂ hin₂
      exact .inr ⟨handle, added, c₂, fs₂, hrest, hgo.trans hx₂, hadded, hannounced.trans hin₂⟩

/-! ## Making -/

/-- Remembering a table changes nothing but what is known of it. -/
theorem Holds.remember (h : Holds l own c fs d) (hn : t ∉ Schema.names) :
    ∃ res c₁, (Catalog.remember t).apply c fs = (res, c₁, fs) ∧ Inside l own (c.without t) fs (c₁.without t) fs d := by
  cases hk : c.kept t with
  | some r => exact ⟨.ok r, c, apply_remember_of_kept hn hk fs, (h.without t).inside⟩
  | none =>
    obtain ⟨c₁, hx, hin⟩ := h.survey (surveys_columnsOf t)
    rw [h.models.value_columnsOf] at hx
    have hremember := apply_remember_of_columnsOf hk hx
    rw [keep_of_not_mem hn] at hremember
    split at hremember
    · exact ⟨_, c₁, hremember, hin.without t⟩
    · refine ⟨_, _, hremember, ⟨hin.holds.models, hin.holds.owned, hin.holds.sole⟩, ⟨hin.use.location, fun t' => ?_,
        hin.use.indexes⟩, hin.files⟩
      rw [Catalog.without, Catalog.without, Bindings.get?_erase, Bindings.get?_erase, Bindings.get?_insert]
      split
      · rfl
      · exact hin.use.relations t'

/-- Where the file of a table cannot be made nothing changes but what is known of the table. -/
theorem Holds.make_error (h : Holds l own c fs d) (hn : t ∉ Schema.names)
    (hx : (onRelation t (if adopt then Relation.createIfMissing else Relation.create)).apply c fs =
      (.error error, c₁, fs₁)) : fs₁ = fs ∧ Inside l own (c.without t) fs (c₁.without t) fs d := by
  obtain ⟨res, k, hr, hin⟩ := h.remember hn
  rw [onRelation_of_not_mem hn] at hx
  cases res with
  | error e =>
    rw [apply_bind_error hr] at hx
    cases hx
    exact ⟨rfl, hin⟩
  | ok r =>
    rw [apply_bind_ok hr, apply_within] at hx
    generalize hmake : (if adopt then Relation.createIfMissing else Relation.create).apply r fs = made at hx
    obtain ⟨res, r', g⟩ := made
    cases hx
    refine ⟨Relation.files_of_make_error hmake, ⟨hin.holds.models, hin.holds.owned, hin.holds.sole⟩,
      ⟨hin.use.location, fun t' => ?_, hin.use.indexes⟩, hin.files⟩
    have hrelations := hin.use.relations t'
    rw [Catalog.without, Catalog.without, Bindings.get?_erase, Bindings.get?_erase] at hrelations ⊢
    rw [Bindings.get?_insert]
    split
    · rfl
    · rename_i hne
      rwa [if_neg hne, if_neg hne] at hrelations

/-- A table whose file cannot be made is taken back. -/
theorem Holds.raise_error (h : Holds l own c fs (d.announce t handle added)) (hn : t ∉ Schema.names)
    (hx : (onRelation t (if adopt then Relation.createIfMissing else Relation.create)).apply c fs =
      (.error error, c₁, fs₁)) :
    ∃ c₂ fs₂, ((onRelation t (if adopt then Relation.createIfMissing else Relation.create)).onFailure
        (Catalog.unmakeTable t (announceLog handle added))).apply c fs = (.error error, c₂, fs₂) ∧
      TakenBack l own t d c fs c₂ fs₂ := by
  obtain ⟨rfl, hin⟩ := h.make_error hn hx
  obtain ⟨c₂, fs₂, hunmake, d₂, hin₂, hsame⟩ := hin.holds.unmakeTable
  have hfailed := apply_onFailure_error hx (Catalog.unmakeTable t (announceLog handle added))
  rw [hunmake] at hfailed
  exact ⟨c₂, fs₂, hfailed, d₂, hin.trans hin₂, hsame⟩

/-- A table that cannot be made is taken back: none of its entries is left, and no file but the own ones has
changed. -/
theorem Holds.makeTable_error (h : Holds l own c fs d) (hn : t ∉ Schema.names)
    (hx : (makeTable t columns adopt).apply c fs = (.error error, c₁, fs₁)) : TakenBack l own t d c fs c₁ fs₁ := by
  rw [makeTable_eq] at hx
  rcases h.announceTable t columns with ⟨e, c₂, fs₂, -, ha, hback⟩ | ⟨handle, added, c₂, fs₂, -, ha, -, hin⟩
  · rw [apply_bind_error ha] at hx
    cases hx
    exact hback
  · rw [apply_bind_ok ha] at hx
    cases hmake : (onRelation t (if adopt then Relation.createIfMissing else Relation.create)).apply c₂ fs₂ with
    | mk res rest =>
      obtain ⟨c₃, fs₃⟩ := rest
      cases res with
      | ok =>
        rw [apply_onFailure_ok hmake] at hx
        cases hx
      | error e =>
        obtain ⟨c₄, fs₄, hfailed, hback⟩ := hin.holds.raise_error hn hmake
        rw [hfailed] at hx
        cases hx
        exact hback.of_inside hin

/-! ## Making in tandem -/

/-- Whether a table that is listed leads to an own file. -/
def Clash (l : Location) (own : Nat → Prop) (c : Catalog) (fs : Files) : Prop :=
  ∃ d t, Holds l own c fs d ∧ t ∈ d.description.tables ∧ t ∉ Schema.names ∧ ¬ Clear own fs (l.relationPath t)

/-- A table that is taken back on both sides leaves twins. -/
theorem Matches.takenBack {c₁' : Catalog} {fs₁' : Files} (h : Matches l own K U d d' c fs c' fs')
    (hback : TakenBack l own t d c fs c₁ fs₁) (hback' : TakenBack l own t d' c' fs' c₁' fs₁') :
    ∃ d₁ d₁', d₁.description = d.description ∧ Matches l own K U d₁ d₁' c₁ fs₁ c₁' fs₁' := by
  obtain ⟨d₁, hin, hsame⟩ := hback
  obtain ⟨d₁', hin', hsame'⟩ := hback'
  have hm := (h.forgotten t).inside hin hin'
    (hsame'.description.trans (h.description.trans hsame.description.symm))
  exact ⟨d₁, d₁', hsame.description, hm.mono hm.clear fun _ => And.left⟩

/-- The file of a table is made on both sides or on none, unless the table leads to an own file. -/
theorem Matches.make (h : Matches l own K U d d' c fs c' fs') (hu : U t) (hU : ∀ t', U t' → K t' ∨ t' = t)
    (hn : t ∉ Schema.names) (adopt : Bool) : ∃ res k g k' g',
      (onRelation t (if adopt then Relation.createIfMissing else Relation.create)).apply c fs = (res, k, g) ∧
      (onRelation t (if adopt then Relation.createIfMissing else Relation.create)).apply c' fs' = (res, k', g') ∧
      (Matches l own U U d d' k g k' g' ∨ Holds l own k g d ∧ ¬ Clear own g (l.relationPath t)) := by
  by_cases hc : Clear own fs (l.relationPath t)
  · have hm : Matches l own U U d d' c fs c' fs' := by
      refine h.mono (fun t' ht' => ?_) fun _ => id
      rcases hU t' ht' with hk | rfl
      · exact h.clear t' hk
      · exact hc
    obtain ⟨res, k, g, k', g', ha, ha', hm'⟩ :=
      abreast_onRelation hu hn hu (Relation.passesBy_make adopt) c fs c' fs' hm
    exact ⟨res, k, g, k', g', ha, ha', .inl hm'⟩
  · obtain ⟨id, -, hf⟩ : ∃ id, own id ∧ fs.find (l.relationPath t) = .ok id := by
      by_contra hnone
      exact hc ⟨h.first.made, fun id hid hf => hnone ⟨id, hid, hf⟩⟩
    obtain ⟨res, k, k', ha, ha', hm, haway⟩ := h.remember hu hn
    rw [onRelation_of_not_mem hn]
    cases res with
    | error e => exact ⟨.error e, k, fs, k', fs', apply_bind_error ha _, apply_bind_error ha' _, .inr ⟨hm.first, hc⟩⟩
    | ok r =>
      rw [← (haway r rfl).path_eq] at hf
      obtain ⟨res, r₁, r₁', hx, hx'⟩ := Relation.make_own adopt h.files h.first.made hf
      refine ⟨res, { k with relations := k.relations.insert t r₁ }, fs,
        { k' with relations := k'.relations.insert t r₁' }, fs', ?_, ?_,
        .inr ⟨⟨hm.first.models, hm.first.owned, hm.first.sole⟩, hc⟩⟩
      · rw [apply_bind_ok ha, apply_within, hx]
      · rw [apply_bind_ok ha', apply_within, hx']

theorem description_announce (hadded : added.map Prod.snd = columns.map (ColumnEntry.about t)) :
    (d.announce t handle added).description = d.description.addTable t columns := by
  rw [← description_withTable hadded]
  rfl

/-- A table is made on both sides or on none, unless one is listed that leads to an own file. -/
theorem abreast_makeTable (ht : t ∉ L) (columns : List Column) (adopt : Bool) :
    Abreast (Twins l own L) (makeTable t columns adopt) (makeTable t columns adopt) fun _ c fs c' fs' =>
      (∃ L, Twins l own L c fs c' fs') ∨ Clash l own c fs := by
  rintro c fs c' fs' ⟨d, d', hd, h⟩
  have hn : t ∉ Schema.names := fun hn => ht (hd.own t hn)
  have htwins : ∀ {c₁ c₁' : Catalog} {fs₁ fs₁' : Files}, TakenBack l own t d c fs c₁ fs₁ →
      TakenBack l own t d' c' fs' c₁' fs₁' → Twins l own L c₁ fs₁ c₁' fs₁' := by
    intro c₁ c₁' fs₁ fs₁' hback hback'
    obtain ⟨d₁, d₁', hdesc, hm⟩ := h.takenBack hback hback'
    exact ⟨d₁, d₁', hdesc.symm ▸ hd, hm⟩
  rw [makeTable_eq]
  rcases h.first.announceTable t columns with ⟨e, c₁, fs₁, hann, ha, hback⟩ |
    ⟨handle, added, c₁, fs₁, hann, ha, hadded, hin⟩ <;>
    rcases h.second.announceTable t columns with
      ⟨e', c₁', fs₁', hann', ha', hback'⟩ | ⟨handle', added', c₁', fs₁', hann', ha', hadded', hin'⟩
  · cases hann.symm.trans hann'
    exact ⟨.error e, c₁, fs₁, c₁', fs₁', apply_bind_error ha _, apply_bind_error ha' _, .inl ⟨L, htwins hback hback'⟩⟩
  · cases hann.symm.trans hann'
  · cases hann.symm.trans hann'
  have hd₁ : (d.announce t handle added).description.Covers (L ++ [t]) := by
    rw [description_announce hadded]
    exact ⟨congrArg (· ++ [t]) hd.tables, fun name hname => List.mem_append_left _ (hd.own name hname), hd.indices⟩
  have h₁ := h.inside hin hin' (by rw [description_announce hadded, description_announce hadded', h.description])
  have hU : ∀ t', Usable (L ++ [t]) t' → Usable L t' ∨ t' = t := by
    rintro t' ⟨hm, hn'⟩
    rcases List.mem_append.1 hm with hm | hm
    · exact .inl ⟨hm, hn'⟩
    · exact .inr (List.mem_singleton.1 hm)
  have hu : Usable (L ++ [t]) t := ⟨List.mem_append_right _ (.head _), hn⟩
  obtain ⟨res, k, g, k', g', hx, hx', hmade⟩ := Matches.make (K := Usable L) (U := Usable (L ++ [t]))
    (h₁.mono h₁.clear fun _ hu => ⟨List.mem_append_left _ hu.1, hu.2⟩) hu hU hn adopt
  rw [apply_bind_ok ha, apply_bind_ok ha']
  cases res with
  | ok =>
    refine ⟨.ok _, k, g, k', g', apply_onFailure_ok hx _, apply_onFailure_ok hx' _, ?_⟩
    rcases hmade with hm | ⟨hholds, hclash⟩
    · exact .inl ⟨L ++ [t], _, _, hd₁, hm⟩
    · exact .inr ⟨_, t, hholds, hd₁.tables ▸ hu.1, hn, hclash⟩
  | error e =>
    obtain ⟨c₂, fs₂, hfailed, hback⟩ := hin.holds.raise_error hn hx
    obtain ⟨c₂', fs₂', hfailed', hback'⟩ := hin'.holds.raise_error hn hx'
    exact ⟨.error e, c₂, fs₂, c₂', fs₂', hfailed, hfailed',
      .inl ⟨L, htwins (hback.of_inside hin) (hback'.of_inside hin')⟩⟩

/-- CREATE TABLE does the same to twins, and leaves twins unless it takes over an own file. -/
theorem abreast_createTable (t : String) (declared : List Language.ColumnDeclaration) (ifNotExists : Bool) :
    Abreast (Twins l own L) (createTable t declared ifNotExists) (createTable t declared ifNotExists)
      fun _ c fs c' fs' => (∃ L, Twins l own L c fs c' fs') ∨ Clash l own c fs := by
  rw [createTable_eq]
  refine (abreast_result _).bind (fun columns => ?_) fun h => .inl ⟨L, h⟩
  refine abreast_twins fun d d' hd hdesc => abreast_known ((surveys_tableExists t).adapt Refusal.storage)
    (fun hm => value_adapt_ok (value_tableExists hm t) _) ?_
  rw [isEmpty_tableHandles_congr hdesc]
  refine Abreast.mono (P := Twins l own L) ?_ (fun hm => ⟨d, d', hd, hm⟩) id
  cases hempty : (d.tableHandles t).isEmpty with
  | false =>
    cases ifNotExists with
    | true => exact (tandem_pure _).mono id fun h => .inl ⟨L, h⟩
    | false => exact (tandem_throw _).mono id fun h => .inl ⟨L, h⟩
  | true =>
    have ht : t ∉ L := by
      intro hm
      rw [← hd.tables] at hm
      exact mem_tables_description.1 hm (List.isEmpty_iff.1 hempty)
    exact ((abreast_makeTable ht columns ifNotExists).adapt_keep _).bind (fun _ => abreast_pure _) id

/-- A CREATE TABLE that fails leaves the entries, and all files but the own ones, as they were. -/
theorem Holds.createTable_error {declared : List Language.ColumnDeclaration} {ifNotExists : Bool} {refusal : Refusal}
    (h : Holds l own c fs d) (hd : d.description.Covers L) (hu : ∀ r, c.relations.get? t = some r → t ∈ L)
    (hx : (createTable t declared ifNotExists).apply c fs = (.error refusal, c₁, fs₁)) :
    ∃ d₁, Inside l own c fs c₁ fs₁ d₁ ∧ d.SameLists d₁ := by
  rw [createTable_eq] at hx
  cases hcols : storableColumns [] declared with
  | error e =>
    rw [hcols] at hx
    cases hx
    exact ⟨d, h.inside, .refl d⟩
  | ok columns =>
    rw [hcols, apply_bind_ok (apply_result _ c fs)] at hx
    obtain ⟨c₂, hlisted, hin⟩ := h.survey ((surveys_tableExists t).adapt Refusal.storage)
    rw [value_adapt_ok (value_tableExists h.models t)] at hlisted
    rw [apply_bind_ok hlisted] at hx
    cases hempty : (d.tableHandles t).isEmpty with
    | false =>
      rw [hempty] at hx
      cases ifNotExists <;> cases hx
      exact ⟨d, hin, .refl d⟩
    | true =>
      have ht : t ∉ L := by
        intro hm
        rw [← hd.tables] at hm
        exact mem_tables_description.1 hm (List.isEmpty_iff.1 hempty)
      have hn : t ∉ Schema.names := fun hn => ht (hd.own t hn)
      rw [hempty, if_neg (by decide)] at hx
      cases hmake : (makeTable t columns ifNotExists).apply c₂ fs with
      | mk res rest =>
        obtain ⟨c₃, fs₃⟩ := rest
        cases res with
        | ok =>
          rw [apply_bind_ok (show ((makeTable t columns ifNotExists).adapt Refusal.storage).apply c₂ fs =
            (.ok (), c₃, fs₃) by rw [apply_adapt, hmake]; rfl)] at hx
          cases hx
        | error e =>
          rw [apply_bind_error (show ((makeTable t columns ifNotExists).adapt Refusal.storage).apply c₂ fs =
            (.error (.storage e), c₃, fs₃) by rw [apply_adapt, hmake]; rfl)] at hx
          cases hx
          -- nothing was known of the table, so that it is forgotten changes nothing
          obtain ⟨d₁, hback, hsame⟩ := (hin.holds.makeTable_error hn hmake).of_inside hin
          have hnone : c.relations.get? t = none := by
            cases hget : c.relations.get? t with
            | none => rfl
            | some r => exact absurd (hu r hget) ht
          exact ⟨d₁, ⟨hback.holds, (sameUse_without hnone).trans hback.use, hback.files⟩, hsame⟩

end Catalog

end Rowbase
