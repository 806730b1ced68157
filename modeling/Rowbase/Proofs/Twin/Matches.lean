import Rowbase.Proofs.Twin.Entries

/-! # Catalogs that say the same

Two catalogs match where their describing relations say the same, though other handles stand for it, and where both have
used the same tables and indices. What reads the describing relations returns the same from both, and what is done to a
table or an index does the same to both. -/
namespace Rowbase.Catalog

open Act Database
open Files (SameBut Spares Clear Alongside)

variable {l : Location} {own : Nat → Prop} {K U : String → Prop} {fs fs' g g' : Files} {d d' e e' : Database}
  {c c' k k' : Catalog} {t i : String} {ε ε' α β : Type}

/-- Whether two catalogs match. Some tables are known to lead to no own file, and no others than some have been used. -/
structure Matches (l : Location) (own : Nat → Prop) (K U : String → Prop) (d d' : Database) (c : Catalog) (fs : Files)
    (c' : Catalog) (fs' : Files) : Prop where
  first : Holds l own c fs d
  second : Holds l own c' fs' d'
  files : SameBut own fs fs'
  description : d'.description = d.description
  clear : ∀ t, K t → Clear own fs (l.relationPath t)
  relations : ∀ t, c'.relations.get? t = c.relations.get? t
  cached : ∀ t r, c.relations.get? t = some r → U t ∧ r.file.Away own (l.relationPath t)
  indexes : c'.indexes = c.indexes
  paths : ∀ t i ix, c.indexes.get? (t, i) = some ix → ix.path = l.indexPath t i

namespace Matches

variable (h : Matches l own K U d d' c fs c' fs')
include h

/-- What the describing relations alone become on both sides may be anything that says the same. -/
theorem inside (h₁ : Inside l own c fs k g e) (h₁' : Inside l own c' fs' k' g' e')
    (he : e'.description = e.description) : Matches l own K U e e' k g k' g' where
  first := h₁.holds
  second := h₁'.holds
  files := by
    have hback : SameBut own g fs := h₁.files.symm
    exact hback.trans (h.files.trans h₁'.files)
  description := he
  clear t ht := (h.clear t ht).sameBut h₁.files
  relations t := by rw [h₁'.use.relations, h₁.use.relations, h.relations]
  cached t r hr := h.cached t r (h₁.use.relations t ▸ hr)
  indexes := by rw [h₁'.use.indexes, h₁.use.indexes, h.indexes]
  paths t i ix hx := h.paths t i ix (h₁.use.indexes ▸ hx)

/-- Other files may change alike on both sides. -/
theorem alongside (hk : Alongside own fs fs' g g') : Matches l own K U d d' c g c' g' where
  first := h.first.spares hk.first
  second := h.second.spares hk.second
  files := hk.same
  description := h.description
  clear t ht := (h.clear t ht).spares hk.first
  relations := h.relations
  cached := h.cached
  indexes := h.indexes
  paths := h.paths

/-- A table may be used on both sides. -/
theorem remembered {r : Relation} (ht : U t) (hr : r.file.Away own (l.relationPath t)) :
    Matches l own K U d d' { c with relations := c.relations.insert t r } fs
      { c' with relations := c'.relations.insert t r } fs' where
  first := ⟨h.first.models, h.first.owned, h.first.sole⟩
  second := ⟨h.second.models, h.second.owned, h.second.sole⟩
  files := h.files
  description := h.description
  clear := h.clear
  relations t' := by rw [Bindings.get?_insert, Bindings.get?_insert, h.relations]
  cached t' r' hr' := by
    rw [Bindings.get?_insert] at hr'
    split at hr'
    · rename_i he
      cases hr'
      exact he ▸ ⟨ht, hr⟩
    · exact h.cached t' r' hr'
  indexes := h.indexes
  paths := h.paths

/-- A table may be forgotten on both sides. -/
theorem forgotten (t : String) : Matches l own K (fun t' => U t' ∧ t' ≠ t) d d'
    { c with relations := c.relations.erase t } fs { c' with relations := c'.relations.erase t } fs' where
  first := ⟨h.first.models, h.first.owned, h.first.sole⟩
  second := ⟨h.second.models, h.second.owned, h.second.sole⟩
  files := h.files
  description := h.description
  clear := h.clear
  relations t' := by rw [Bindings.get?_erase, Bindings.get?_erase, h.relations]
  cached t' r hr := by
    rw [Bindings.get?_erase] at hr
    split at hr
    · cases hr
    · rename_i hne
      obtain ⟨ht, hr⟩ := h.cached t' r hr
      exact ⟨⟨ht, hne⟩, hr⟩
  indexes := h.indexes
  paths := h.paths

theorem rememberedIndex {ix : Index} (hx : ix.path = l.indexPath t i) :
    Matches l own K U d d' { c with indexes := c.indexes.insert (t, i) ix } fs
      { c' with indexes := c'.indexes.insert (t, i) ix } fs' where
  first := ⟨h.first.models, h.first.owned, h.first.sole⟩
  second := ⟨h.second.models, h.second.owned, h.second.sole⟩
  files := h.files
  description := h.description
  clear := h.clear
  relations := h.relations
  cached := h.cached
  indexes := congrArg (·.insert (t, i) ix) h.indexes
  paths t' i' ix' hx' := by
    rw [Bindings.get?_insert] at hx'
    split at hx'
    · rename_i he
      cases he
      cases hx'
      exact hx
    · exact h.paths t' i' ix' hx'

theorem forgottenIndex (t i : String) : Matches l own K U d d' { c with indexes := c.indexes.erase (t, i) } fs
    { c' with indexes := c'.indexes.erase (t, i) } fs' where
  first := ⟨h.first.models, h.first.owned, h.first.sole⟩
  second := ⟨h.second.models, h.second.owned, h.second.sole⟩
  files := h.files
  description := h.description
  clear := h.clear
  relations := h.relations
  cached := h.cached
  indexes := congrArg (·.erase (t, i)) h.indexes
  paths t' i' ix hx := by
    rw [Bindings.get?_erase] at hx
    split at hx
    · cases hx
    · exact h.paths t' i' ix hx

/-- Other tables may be known to lead to no own file, and more may be used. -/
theorem mono {K' U' : String → Prop} (hK : ∀ t, K' t → Clear own fs (l.relationPath t)) (hU : ∀ t, U t → U' t) :
    Matches l own K' U' d d' c fs c' fs' :=
  { h with clear := hK, cached := fun t r hr => (h.cached t r hr).imp_left (hU t) }

end Matches

/-! ## Reading the describing relations -/

section
variable {x : Act ε Catalog α} {Q : Except ε β → Catalog → Files → Catalog → Files → Prop}

/-- Reading the describing relations leaves catalogs that match. -/
theorem Matches.survey (h : Matches l own K U d d' c fs c' fs') (hx : Surveys x) :
    ∃ k k', x.apply c fs = (x.value c.bare fs, k, fs) ∧ x.apply c' fs' = (x.value c'.bare fs', k', fs') ∧
      Matches l own K U d d' k fs k' fs' := by
  obtain ⟨k, ha, hin⟩ := h.first.survey hx
  obtain ⟨k', ha', hin'⟩ := h.second.survey hx
  exact ⟨k, k', ha, ha', h.inside hin hin' h.description⟩

/-- What is read of entries that say the same is the same. -/
theorem abreast_survey (hx : Surveys x) (hv : ∀ {b b' : Catalog} {fs fs' : Files}, Models l Schema.sites b fs d →
    Models l Schema.sites b' fs' d' → x.value b' fs' = x.value b fs) :
    Abreast (Matches l own K U d d') x x fun _ => Matches l own K U d d' := by
  intro c fs c' fs' h
  obtain ⟨k, k', ha, ha', hm⟩ := h.survey hx
  rw [hv h.first.models h.second.models] at ha'
  exact ⟨_, k, fs, k', fs', ha, ha', hm⟩

/-- What the entries say is the same to both sides. -/
theorem abreast_told {v : Database → α} (hx : Surveys x)
    (hv : ∀ {b : Catalog} {fs : Files} {d : Database}, Models l Schema.sites b fs d → x.value b fs = .ok (v d))
    (hd : d'.description = d.description → v d' = v d) :
    Abreast (Matches l own K U d d') x x fun _ => Matches l own K U d d' := by
  intro c fs c' fs' h
  have hsurvey : Abreast (Matches l own K U d d') x x fun _ => Matches l own K U d d' :=
    abreast_survey hx fun hm hm' => by rw [hv hm, hv hm', hd h.description]
  exact hsurvey c fs c' fs' h

/-- Where it is known what is read of both sides, it is known how both go on. -/
theorem abreast_known {v : Database → α} {f f' : α → Act ε Catalog β} (hx : Surveys x)
    (hv : ∀ {b : Catalog} {fs : Files} {d : Database}, Models l Schema.sites b fs d → x.value b fs = .ok (v d))
    (hf : Abreast (Matches l own K U d d') (f (v d)) (f' (v d')) Q) :
    Abreast (Matches l own K U d d') (x >>= f) (x >>= f') Q := by
  intro c fs c' fs' h
  obtain ⟨k, k', ha, ha', hm⟩ := h.survey hx
  rw [hv h.first.models] at ha
  rw [hv h.second.models] at ha'
  rw [apply_bind_ok ha, apply_bind_ok ha']
  exact hf k fs k' fs' hm

end

/-! ## What depends on the description alone -/

section
variable (h : d'.description = d.description)
include h

theorem isEmpty_tableHandles_congr (t : String) : (d'.tableHandles t).isEmpty = (d.tableHandles t).isEmpty := by
  rw [Bool.eq_iff_iff, List.isEmpty_iff, List.isEmpty_iff, ← not_iff_not]
  exact mem_tables_description.symm.trans (h ▸ mem_tables_description)

theorem columnsOf_congr (t : String) : d'.columnsOf t = d.columnsOf t := by
  have hcolumns : ∀ d : Database, d.columnsOf t = (d.description.columnsOf t).map ColumnEntry.column := by
    intro d
    rw [columnsOf_description, List.map_map]
    rfl
  rw [hcolumns, hcolumns, h]

theorem indexNames_congr (t : String) : d'.indexNames t = d.indexNames t := by
  rw [indexNames_description, indexNames_description, h]

theorem isEmpty_indexEntries_congr (t i : String) :
    ((d'.indexEntries t i).map Prod.fst).isEmpty = ((d.indexEntries t i).map Prod.fst).isEmpty := by
  have hlength : ∀ d : Database, (d.indexEntries t i).length = (d.description.partsOf t i).length := by
    intro d
    rw [partsOf_description, List.length_map]
  rw [Bool.eq_iff_iff, List.isEmpty_iff_length_eq_zero, List.isEmpty_iff_length_eq_zero, List.length_map,
    List.length_map, hlength, hlength, h]

theorem definition_congr (t i : String) : d'.definition t i = d.definition t i := by
  have hparts : ∀ d : Database, (d.indexEntries t i).map (fun e => e.2.part) =
      (d.description.partsOf t i).map IndexEntry.part := by
    intro d
    rw [partsOf_description, List.map_map]
    rfl
  rw [definition, definition, hparts, hparts, h]

theorem outlines_congr (t : String) : d'.outlines t = d.outlines t := by
  rw [outlines, outlines, indexNames_congr h]
  simp only [definition_congr h]

end

/-! ## Using tables -/

section
variable (hu : U t) (hn : t ∉ Schema.names)
include hu hn

/-- A table is the same relation to both sides. -/
theorem Matches.remember (h : Matches l own K U d d' c fs c' fs') :
    ∃ res k k', (Catalog.remember t).apply c fs = (res, k, fs) ∧ (Catalog.remember t).apply c' fs' = (res, k', fs') ∧
      Matches l own K U d d' k fs k' fs' ∧ ∀ r, res = .ok r → r.file.Away own (l.relationPath t) := by
  cases hg : c.kept t with
  | some r =>
    have hg' : c'.kept t = some r := by
      rw [kept_of_not_mem hn, h.relations, ← kept_of_not_mem hn, hg]
    refine ⟨.ok r, c, c', apply_remember_of_kept hn hg fs, apply_remember_of_kept hn hg' fs', h, fun r' hr => ?_⟩
    cases hr
    exact (h.cached t r (kept_of_not_mem hn ▸ hg)).2
  | none =>
    have hg' : c'.kept t = none := by
      rw [kept_of_not_mem hn, h.relations, ← kept_of_not_mem hn, hg]
    obtain ⟨k, k', ha, ha', hm⟩ := h.survey (surveys_columnsOf t)
    rw [h.first.models.value_columnsOf] at ha
    rw [h.second.models.value_columnsOf, columnsOf_congr h.description] at ha'
    have hx := apply_remember_of_columnsOf hg ha
    have hx' := apply_remember_of_columnsOf hg' ha'
    rw [hm.first.location] at hx
    rw [hm.second.location] at hx'
    split at hx
    · rename_i he
      rw [if_pos he] at hx'
      exact ⟨_, k, k', hx, hx', hm, nofun⟩
    · rename_i he
      rw [if_neg he] at hx'
      rw [keep_of_not_mem hn] at hx hx'
      have haway : (Relation.describe t (d.columnsOf t) (l.relationPath t)).file.Away own (l.relationPath t) :=
        ⟨rfl, nofun⟩
      refine ⟨_, _, _, hx, hx', hm.remembered hu haway, fun r hr => ?_⟩
      cases hr
      exact haway

/-- What is done to a table that leads to no own file is done alike on both sides. -/
theorem abreast_onRelation (ht : K t) {x : Act StorageError Relation α}
    (hx : PassesBy own (Relation.Away own (l.relationPath t)) x) :
    Abreast (Matches l own K U d d') (onRelation t x) (onRelation t x) fun _ => Matches l own K U d d' := by
  intro c fs c' fs' h
  rw [onRelation_of_not_mem hn]
  obtain ⟨res, k, k', ha, ha', hm, haway⟩ := h.remember hu hn
  cases res with
  | error e => exact ⟨.error e, k, fs, k', fs', apply_bind_error ha _, apply_bind_error ha' _, hm⟩
  | ok r =>
    obtain ⟨res, r', g, g', hr, hr', haway', hk⟩ := hx.apply ⟨haway r rfl, hm.clear t ht⟩ hm.files
    refine ⟨res, _, g, _, g', ?_, ?_, (hm.alongside hk).remembered hu haway'.file⟩
    · rw [apply_bind_ok ha, apply_within, hr]
    · rw [apply_bind_ok ha', apply_within, hr']

end

/-! ## Using indices -/

/-- An index is the same to both sides. -/
theorem Matches.rememberIndex (h : Matches l own K U d d' c fs c' fs') (t i : String) :
    ∃ res k k', (Catalog.rememberIndex t i).apply c fs = (res, k, fs) ∧
      (Catalog.rememberIndex t i).apply c' fs' = (res, k', fs') ∧ Matches l own K U d d' k fs k' fs' ∧
      ∀ ix, res = .ok ix → ix.path = l.indexPath t i := by
  cases hg : c.indexes.get? (t, i) with
  | some ix =>
    refine ⟨.ok ix, c, c', apply_rememberIndex_known hg fs, apply_rememberIndex_known (h.indexes ▸ hg) fs', h,
      fun ix' hx => ?_⟩
    cases hx
    exact h.paths t i ix hg
  | none =>
    obtain ⟨k, k', ha, ha', hm⟩ := h.survey (surveys_indexDefinition t i)
    rw [h.first.models.value_indexDefinition] at ha
    rw [h.second.models.value_indexDefinition, definition_congr h.description] at ha'
    have hx := apply_rememberIndex_described hg ha hm.first.location
    have hx' := apply_rememberIndex_described (h.indexes ▸ hg) ha' hm.second.location
    split at hx
    · rename_i he
      rw [if_pos he] at hx'
      exact ⟨_, k, k', hx, hx', hm, nofun⟩
    · rename_i he
      rw [if_neg he] at hx'
      refine ⟨_, _, _, hx, hx', hm.rememberedIndex rfl, fun ix hix => ?_⟩
      cases hix
      rfl

/-- What is done to an index is done alike on both sides. -/
theorem abreast_onIndex {x : Act StorageError Index α} (hx : PassesBy own (Index.Away own (l.indexPath t i)) x) :
    Abreast (Matches l own K U d d') (onIndex t i x) (onIndex t i x) fun _ => Matches l own K U d d' := by
  intro c fs c' fs' h
  obtain ⟨res, k, k', ha, ha', hm, hpath⟩ := h.rememberIndex t i
  cases res with
  | error e => exact ⟨.error e, k, fs, k', fs', apply_bind_error ha _, apply_bind_error ha' _, hm⟩
  | ok ix =>
    obtain ⟨res, ix', g, g', hr, hr', haway, hk⟩ := hx.apply ⟨hpath ix rfl, hm.first.clear_index t i⟩ hm.files
    refine ⟨res, _, g, _, g', ?_, ?_, (hm.alongside hk).rememberedIndex haway.path_eq⟩
    · rw [onIndex_of_rememberIndex ha, hr]
    · rw [onIndex_of_rememberIndex ha', hr']

/-! ## Changing entries -/

section
variable {name : String} {f : β → Row} {get : Database → Tape β} {set : Database → Tape β → Database}

/-- An entry comes to both sides, or is refused by both for the same reason. -/
theorem Matches.insertEntry (hl : Shelf name f get set) (h : Matches l own K U d d' c fs c' fs') (a : β) :
    (∃ e k k', (onRelation name (Relation.insert (f a))).apply c fs = (.error e, k, fs) ∧
      (onRelation name (Relation.insert (f a))).apply c' fs' = (.error e, k', fs') ∧
      Matches l own K U d d' k fs k' fs') ∨
    ∃ handle handle' k g k' g', (onRelation name (Relation.insert (f a))).apply c fs = (.ok handle, k, g) ∧
      (onRelation name (Relation.insert (f a))).apply c' fs' = (.ok handle', k', g') ∧
      Matches l own K U (set d (get d ++ [(handle, some a)])) (set d' (get d' ++ [(handle', some a)])) k g k' g' := by
  rcases h.first.insertEntry hl a with ⟨e, k, hrec, ha, hin⟩ | ⟨handle, k, g, hrec, ha, hin⟩ <;>
    rcases h.second.insertEntry hl a with ⟨e', k', hrec', ha', hin'⟩ | ⟨handle', k', g', hrec', ha', hin'⟩
  · cases hrec.symm.trans hrec'
    exact .inl ⟨e, k, k', ha, ha', h.inside hin hin' h.description⟩
  · exact absurd hrec' (Schema.not_records hrec)
  · exact absurd hrec (Schema.not_records hrec')
  · refine .inr ⟨handle, handle', k, g, k', g', ha, ha', h.inside hin hin' (hl.description h.description ?_)⟩
    rw [Tape.live_append, Tape.live_append, List.map_append, List.map_append, hl.entries h.description]
    rfl

/-- The entries that meet a condition are cleared on both sides. -/
theorem abreast_clearEntries (hl : Shelf name f get set) (p : β → Bool) (q : StorageError → ε) :
    Abreast (Matches l own K U d d')
      ((((get d).live.filter fun e => p e.2).map Prod.fst).forM fun h => (onRelation name (Relation.delete h)).adapt q)
      ((((get d').live.filter fun e => p e.2).map Prod.fst).forM fun h => (onRelation name (Relation.delete h)).adapt q)
      fun res c fs c' fs' => res = .ok () ∧ ∃ tape tape', tape.live = (get d).live.filter (fun e => !p e.2) ∧
        Matches l own K U (set d tape) (set d' tape') c fs c' fs' := by
  intro c fs c' fs' h
  obtain ⟨k, g, tape, ha, hlive, hin⟩ := h.first.deleteMeeting hl fun e => p e.2
  obtain ⟨k', g', tape', ha', hlive', hin'⟩ := h.second.deleteMeeting hl fun e => p e.2
  refine ⟨.ok (), k, g, k', g', ?_, ?_, rfl, tape, tape', hlive, h.inside hin hin' (hl.description h.description ?_)⟩
  · rw [apply_forM_adapt, apply_adapt, ha]
    rfl
  · rw [apply_forM_adapt, apply_adapt, ha']
    rfl
  · have hfilter : ∀ entries : List (Handle × β), (entries.filter fun e => !p e.2).map Prod.snd =
        (entries.map Prod.snd).filter fun b => !p b := by
      intro entries
      rw [List.filter_map]
      rfl
    rw [hlive, hlive', hfilter, hfilter, hl.entries h.description]

end

end Rowbase.Catalog
