import Rowbase.Proofs.Session.Queries
import Rowbase.Proofs.Twin.Matches

/-! # Acts on twins

Twins are catalogs that match and list the same tables. An act is done in tandem if it returns the same for both and
leaves twins. So do all acts that read entries, and all that are done to a table that is listed. -/
namespace Rowbase

open Act Database

/-- Whether a description lists some tables, its own among them, and no index of its own tables. -/
structure Description.Covers (D : Description) (L : List String) : Prop where
  tables : D.tables = L
  own : ∀ name ∈ Schema.names, name ∈ L
  indices : ∀ e ∈ D.indices, e.table ∉ Schema.names

/-! ## Rows of describing relations -/

/-- The rows that are read of a relation depend on its rows alone, not on where they lie. -/
theorem Relation.Serves.value_rows_live {l : Location} {r : Relation} {fs : Files} {name : String} {columns : List Column}
    {tape : Tape Row} (hr : r.Serves l fs name columns tape) (condition : Option Row) (names : List String) :
    (Relation.rows condition names).value r fs =
      (tape.live.map Prod.snd).filterM (r.picks condition) >>= fun rows =>
        rows.mapM fun row => row.restrict name names := by
  rw [Relation.rows, (Relation.reads_select condition).value_bind fun handles =>
    reads_mapM (fun h => Relation.reads_project h names) handles, hr.value_select, filterM_map]
  cases hf : tape.live.filterM fun e => r.picks condition e.2 with
  | error e => rfl
  | ok found =>
    change value ((found.map Prod.fst).mapM fun h => Relation.project h names) r fs =
      (found.map Prod.snd).mapM fun row => row.restrict name names
    rw [value_mapM fun h => Relation.reads_project h names, mapM_map, mapM_map]
    exact mapM_congr fun e he => hr.value_project ((sublist_of_filterM_eq_ok hf).mem he) names

/-- Two relations of one name read the same where they have the same rows, wherever these lie. -/
theorem Relation.Serves.rows_congr {l : Location} {r r' : Relation} {fs fs' : Files} {name : String}
    {columns columns' : List Column} {tape tape' : Tape Row} (hr : r.Serves l fs name columns tape)
    (hr' : r'.Serves l fs' name columns' tape') (h : tape'.live.map Prod.snd = tape.live.map Prod.snd)
    (condition : Option Row) (names : List String) :
    (Relation.rows condition names).value r' fs' = (Relation.rows condition names).value r fs := by
  have hpicks : r'.picks condition = r.picks condition := by
    funext row
    cases condition with
    | none => rfl
    | some condition => rw [Relation.picks, Relation.picks, hr.name_eq, hr'.name_eq]
  rw [hr.value_rows_live, hr'.value_rows_live, h, hpicks]

namespace Catalog

variable {l : Location} {own : Nat → Prop} {L : List String} {fs fs' : Files} {d d' : Database} {c c' : Catalog}
  {t i name : String} {ε ε' α β : Type}

/-- Whether a table is listed that is not the catalog's own. -/
def Usable (L : List String) (t : String) : Prop := t ∈ L ∧ t ∉ Schema.names

/-- Whether two catalogs match and list some tables. -/
def Twins (l : Location) (own : Nat → Prop) (L : List String) (c : Catalog) (fs : Files) (c' : Catalog) (fs' : Files) :
    Prop := ∃ d d', d.description.Covers L ∧ Matches l own (Usable L) (Usable L) d d' c fs c' fs'

/-- Whether an act returns the same for twins and leaves twins. -/
def Tandem (l : Location) (own : Nat → Prop) (L : List String) (x : Act ε Catalog α) : Prop :=
  Abreast (Twins l own L) x x fun _ => Twins l own L

/-- What is known of twins whatever their databases are is known of them. -/
theorem abreast_twins {x y : Act ε Catalog α} {Q : Except ε α → Catalog → Files → Catalog → Files → Prop}
    (h : ∀ d d', d.description.Covers L → d'.description = d.description →
      Abreast (Matches l own (Usable L) (Usable L) d d') x y Q) : Abreast (Twins l own L) x y Q := by
  rintro c fs c' fs' ⟨d, d', hd, hm⟩
  exact h d d' hd hm.description c fs c' fs' hm

theorem tandem_of {x : Act ε Catalog α} (h : ∀ d d', d.description.Covers L → d'.description = d.description →
    Abreast (Matches l own (Usable L) (Usable L) d d') x x fun _ => Matches l own (Usable L) (Usable L) d d') :
    Tandem l own L x :=
  abreast_twins fun d d' hd he => (h d d' hd he).mono id fun hm => ⟨d, d', hd, hm⟩

/-! ## Acts that are put together -/

theorem tandem_pure (a : α) : Tandem l own L (pure a : Act ε Catalog α) := abreast_pure a

theorem tandem_throw (e : ε) : Tandem l own L (throw e : Act ε Catalog α) := abreast_throw e

theorem tandem_result (r : Except ε α) : Tandem l own L (result r : Act ε Catalog α) := abreast_result r

namespace Tandem

variable {x : Act ε Catalog α}

theorem bind {f : α → Act ε Catalog β} (hx : Tandem l own L x) (hf : ∀ a, Tandem l own L (f a)) :
    Tandem l own L (x >>= f) := Abreast.bind hx hf id

theorem adapt (hx : Tandem l own L x) (g : ε → ε') : Tandem l own L (x.adapt g) := Abreast.adapt hx id

theorem discard (hx : Tandem l own L x) : Tandem l own L (discard x) := Abreast.discard hx

theorem caught (hx : Tandem l own L x) : Tandem l own L x.caught := Abreast.caught hx

theorem onFailure {cleanup : Act ε Catalog Unit} (hx : Tandem l own L x) (hc : Tandem l own L cleanup) :
    Tandem l own L (x.onFailure cleanup) := Abreast.onFailure hx (fun _ => hc) id

end Tandem

/-! ## Reading entries -/

/-- What is read of entries that say the same is done in tandem. -/
theorem tandem_told {x : Act ε Catalog α} {v : Database → α} (hx : Surveys x)
    (hv : ∀ {b : Catalog} {fs : Files} {d : Database}, Models l Schema.sites b fs d → x.value b fs = .ok (v d))
    (hd : ∀ {d d' : Database}, d'.description = d.description → v d' = v d) : Tandem l own L x :=
  tandem_of fun _ _ _ _ => abreast_told hx hv hd

theorem tandem_columnsOf (t : String) : Tandem l own L (columnsOf t) :=
  tandem_told (surveys_columnsOf t) (fun hm => hm.value_columnsOf t) fun h => columnsOf_congr h t

theorem tandem_indexNames (t : String) : Tandem l own L (indexNames t) :=
  tandem_told (surveys_indexNames t) (fun hm => hm.value_indexNames t) fun h => indexNames_congr h t

theorem tandem_indexOutlines (t : String) : Tandem l own L (indexOutlines t) :=
  tandem_told (surveys_indexOutlines t) (fun hm => hm.value_indexOutlines t) fun h => outlines_congr h t

/-- What is done after a table was found to be listed may take it to be. -/
theorem abreast_listed {x y : Act Refusal Catalog α} {Q : Except Refusal α → Catalog → Files → Catalog → Files → Prop}
    (hx : t ∈ L → Abreast (Twins l own L) x y Q)
    (he : ∀ {c fs c' fs'}, Twins l own L c fs c' fs' → Q (.error (.unknownTable t)) c fs c' fs') :
    Abreast (Twins l own L) (checkListed t >>= fun _ => x) (checkListed t >>= fun _ => y) Q := by
  refine abreast_twins fun d d' hd hdesc => ?_
  rw [checkListed, bind_assoc, bind_assoc]
  refine abreast_known (x := (tableExists t).adapt Refusal.storage) ((surveys_tableExists t).adapt Refusal.storage)
    (fun hm => value_adapt_ok (value_tableExists hm t) _) ?_
  rw [isEmpty_tableHandles_congr hdesc]
  cases hempty : (d.tableHandles t).isEmpty with
  | true =>
    intro c fs c' fs' hm
    exact ⟨_, c, fs, c', fs', rfl, rfl, he ⟨d, d', hd, hm⟩⟩
  | false =>
    have hlisted : t ∈ L := hd.tables ▸ mem_tables_description.2 (List.isEmpty_eq_false_iff.1 hempty)
    exact (hx hlisted).mono (fun hm => ⟨d, d', hd, hm⟩) id

/-! ### The rows of describing relations -/

/-- Acts on a describing relation are one act on it. -/
theorem onRelation_bind (hn : name ∈ Schema.names) (x : Act StorageError Relation α)
    (f : α → Act StorageError Relation β) :
    (onRelation name x >>= fun a => onRelation name (f a)) = onRelation name (x >>= f) := by
  rcases Schema.mem_names.1 hn with rfl | rfl | rfl
  · exact within_bind tables (fun r c => { c with tables := r }) (fun _ _ => rfl) (fun _ _ _ => rfl) x f
  · exact within_bind columns (fun r c => { c with columns := r }) (fun _ _ => rfl) (fun _ _ _ => rfl) x f
  · exact within_bind indices (fun r c => { c with indices := r }) (fun _ _ => rfl) (fun _ _ _ => rfl) x f

theorem surveys_own (hn : name ∈ Schema.names) {x : Act StorageError Relation α} (hx : Reads Relation.view x) :
    Surveys (onRelation name x) := by
  rcases Schema.mem_names.1 hn with rfl | rfl | rfl
  · exact surveys_onTables hx
  · exact surveys_onColumns hx
  · exact surveys_onIndices hx

/-- A describing relation has rows in every database, and in all that say the same the same rows. -/
theorem exists_rows (hn : name ∈ Schema.names) (h : d'.description = d.description) : ∃ tape tape',
    d.content name = some ⟨Schema.columnsOf name, tape⟩ ∧ d'.content name = some ⟨Schema.columnsOf name, tape'⟩ ∧
      tape'.live.map Prod.snd = tape.live.map Prod.snd := by
  have himage : ∀ {β : Type} {f : β → Row} {entries entries' : Tape β},
      entries'.live.map Prod.snd = entries.live.map Prod.snd →
        (entries'.image f).live.map Prod.snd = (entries.image f).live.map Prod.snd := by
    intro β f entries entries' he
    have hrows : ∀ entries : Tape β, (entries.image f).live.map Prod.snd = (entries.live.map Prod.snd).map f := by
      intro entries
      rw [Tape.live_image, List.map_map, List.map_map]
      rfl
    rw [hrows, hrows, he]
  rcases Schema.mem_names.1 hn with rfl | rfl | rfl
  · exact ⟨_, _, rfl, rfl, himage (congrArg Description.tables h)⟩
  · exact ⟨_, _, rfl, rfl, himage (congrArg Description.columns h)⟩
  · exact ⟨_, _, rfl, rfl, himage (congrArg Description.indices h)⟩

/-- What depends on the rows of a describing relation alone, not on where they lie, is done in tandem. -/
theorem tandem_own (hn : name ∈ Schema.names) {x : Act StorageError Relation α} (hx : Reads Relation.view x)
    (hv : ∀ {r r' : Relation} {fs fs' : Files} {rows rows' : Tape Row},
      r.Serves l fs name (Schema.columnsOf name) rows → r'.Serves l fs' name (Schema.columnsOf name) rows' →
      rows'.live.map Prod.snd = rows.live.map Prod.snd → x.value r' fs' = x.value r fs) :
    Tandem l own L (onRelation name x) := by
  refine tandem_of fun d d' _ hdesc => abreast_survey (surveys_own hn hx) fun {b b' fs fs'} hm hm' => ?_
  obtain ⟨r, hk⟩ := exists_kept hn b
  obtain ⟨r', hk'⟩ := exists_kept hn b'
  obtain ⟨tape, tape', hc, hc', hrows⟩ := exists_rows hn hdesc
  rw [value, value, onRelation_of_kept hk, onRelation_of_kept hk']
  exact hv (hm.serves hk hc) (hm'.serves hk' hc') hrows

/-- What depends on the name and the columns of a describing relation alone is done in tandem. -/
theorem tandem_ownLook (hn : name ∈ Schema.names) (f : String → List Column → Except StorageError α) :
    Tandem l own L (onRelation name (.look fun r _ => f r.name r.columns)) := by
  refine tandem_own hn (Relation.reads_look_description f) fun {r r' _ _ _ _} hr hr' _ => ?_
  change f r'.name r'.columns = f r.name r.columns
  rw [hr.name_eq, hr'.name_eq, hr.columns_eq, hr'.columns_eq]

/-! ## Using tables and indices -/

theorem tandem_onRelation (ht : Usable L t) {x : Act StorageError Relation α}
    (hx : PassesBy own (Relation.Away own (l.relationPath t)) x) : Tandem l own L (onRelation t x) :=
  tandem_of fun _ _ _ _ => abreast_onRelation ht ht.2 ht hx

theorem tandem_onIndex {x : Act StorageError Index α} (hx : PassesBy own (Index.Away own (l.indexPath t i)) x) :
    Tandem l own L (onIndex t i x) := tandem_of fun _ _ _ _ => abreast_onIndex hx

end Catalog

end Rowbase
