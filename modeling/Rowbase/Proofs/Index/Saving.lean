import Rowbase.Proofs.Database.Following
import Rowbase.Proofs.Json.RoundTrip

/-! # Saved indices are loaded again

An index that was saved is read back from its file as it was: every document is what its bytes are read as, and a map
is the same when it is made again of its entries. So an index that is described anew answers like the one that was
saved. -/
namespace Rowbase.Index

open Act

variable {h : Handle}

/-! ## Documents -/

theorem mapM_map_some {α β : Type} {write : α → β} {read : β → Option α} {l : List α}
    (h : ∀ a ∈ l, read (write a) = some a) : (l.map write).mapM read = some l := by
  induction l with
  | nil => rfl
  | cons a l ih =>
    rw [List.map_cons, List.mapM_cons, h a (.head _), ih fun b hb => h b (.tail _ hb)]
    rfl

theorem value?_valueJson (v : Value) : value? (valueJson v) = some v := by
  cases v with
  | integer n =>
    have hn : Int32.minValue.toInt ≤ n.toInt ∧ n.toInt ≤ Int32.maxValue.toInt :=
      ⟨n.le_toInt, Int.lt_add_one_iff.1 n.toInt_lt⟩
    refine (if_pos hn).trans ?_
    rw [Int32.ofInt_toInt]
  | _ => rfl

/-- Whether the numbers of a handle stay below their bounds. -/
def Fits (h : Handle) : Prop := h.block < blockBound ∧ h.record < recordBound

theorem handle?_handleJson (hf : Fits h) : handle? (handleJson h) = some h := by
  have hblock : nat? blockBound (.integer h.block) = some h.block := if_pos hf.1
  have hrecord : nat? recordBound (.integer h.record) = some h.record := if_pos hf.2
  have hfields : fields? ["block_id", "record_id"] (handleJson h) = some [.integer h.block, .integer h.record] := rfl
  rw [handle?, hfields]
  dsimp only [Option.bind_eq_bind, Option.bind_some]
  rw [hblock, hrecord]
  rfl

theorem entry?_entryJson {entry : Key × List Handle} (hf : ∀ h ∈ entry.2, Fits h) :
    entry? (entryJson entry) = some entry := by
  have hkey : list? value? (.list (entry.1.map valueJson)) = some entry.1 :=
    mapM_map_some fun v _ => value?_valueJson v
  have hhandles : list? handle? (.list (entry.2.map handleJson)) = some entry.2 :=
    mapM_map_some fun h hm => handle?_handleJson (hf h hm)
  rw [entryJson, entry?, hkey, hhandles]
  rfl

theorem Document.ofJson?_json {d : Document} (hf : ∀ entry ∈ d.entries, ∀ h ∈ entry.2, Fits h) :
    Document.ofJson? d.json = some d := by
  have hfields : fields? ["unique", "columns", "entries"] d.json =
      some [.boolean d.unique, .list (d.columns.map namedText), .list (d.entries.map entryJson)] := rfl
  have hcolumns : list? text? (.list (d.columns.map namedText)) = some d.columns := mapM_map_some fun _ _ => rfl
  have hentries : list? entry? (.list (d.entries.map entryJson)) = some d.entries :=
    mapM_map_some fun entry hm => entry?_entryJson (hf entry hm)
  rw [ofJson?, hfields]
  dsimp only [Option.bind_eq_bind, Option.bind_some]
  rw [hcolumns, hentries]
  rfl

theorem plain_valueJson (v : Value) : (valueJson v).Plain := by
  cases v with
  | null => exact .text _
  | boolean b => exact .named [("Boolean", .boolean b)] (List.forall_mem_singleton.2 (.boolean b))
  | integer n => exact .named [("Integer", .integer n.toInt)] (List.forall_mem_singleton.2 (.integer _))
  | text s => exact .named [("Text", namedText s)] (List.forall_mem_singleton.2 (.text s))

theorem plain_handleJson (h : Handle) : (handleJson h).Plain := by
  refine .named [("block_id", .integer h.block), ("record_id", .integer h.record)] ?_
  rw [List.forall_mem_cons, List.forall_mem_singleton]
  exact ⟨.integer _, .integer _⟩

theorem plain_entryJson (entry : Key × List Handle) : (entryJson entry).Plain := by
  refine .list ?_
  rw [List.forall_mem_cons, List.forall_mem_singleton]
  exact ⟨.map fun v _ => plain_valueJson v, .map fun h _ => plain_handleJson h⟩

theorem Document.plain_json (d : Document) : d.json.Plain := by
  refine .named [("unique", .boolean d.unique), ("columns", .list (d.columns.map namedText)),
    ("entries", .list (d.entries.map entryJson))] ?_
  rw [List.forall_mem_cons, List.forall_mem_cons, List.forall_mem_singleton]
  exact ⟨.boolean _, .map fun _ _ => .text _, .map fun entry _ => plain_entryJson entry⟩

/-- A document is read back from its bytes. -/
theorem Document.ofBytes?_bytes {d : Document} (hf : ∀ entry ∈ d.entries, ∀ h ∈ entry.2, Fits h) :
    Document.ofBytes? d.bytes = some d := by
  rw [Document.ofBytes?, Document.bytes, Json.read_write d.plain_json]
  exact Document.ofJson?_json hf

/-! ## Loading what was saved -/

variable {ix ix' : Index} {fs fs' : Files}

/-- The index as it is described anew, with nothing loaded. -/
def afresh (ix : Index) : Index where
  table := ix.table
  name := ix.name
  columns := ix.columns
  unique := ix.unique
  path := ix.path

/-- An index of handles that stay below their bounds is read back. -/
theorem readsBack_of_fits (hf : ∀ entry ∈ ix.map.toList, ∀ h ∈ entry.2, Fits h) : ix.ReadsBack :=
  Document.ofBytes?_bytes hf

theorem write_of_save (h : save.apply ix fs = (.ok (), ix', fs')) :
    fs.write ix.path ix.document.bytes = .ok fs' := by
  cases hw : fs.write ix.path ix.document.bytes with
  | error fault => cases (apply_save_error hw).symm.trans h
  | ok fs₁ =>
    cases (apply_save hw).symm.trans h
    rfl

theorem apply_load_afresh (hb : ix.ReadsBack) (hr : fs.read ix.path = .ok ix.document.bytes) :
    load.apply ix.afresh fs = (.ok (), ix.afresh.withMap (.ofList ix.map.toList _), fs) := by
  have hb : Document.ofBytes? ix.document.bytes = some ix.document := hb
  rw [apply_load, contents_of_unloaded rfl, show ix.afresh.path = ix.path from rfl, hr]
  dsimp only
  rw [hb]
  rfl

/-- What was saved is loaded again. An index that is described anew has the map of the one that was saved once it is
loaded; each look-up finds the same in both, and both are saved as the same bytes. -/
theorem load_afresh_of_save (hf : ∀ entry ∈ ix.map.toList, ∀ h ∈ entry.2, Fits h)
    (hstored : ∀ id, fs.find ix.path = .ok id → id < fs.contents.size)
    (hsave : save.apply ix fs = (.ok (), ix', fs')) :
    ∃ loaded, load.apply ix.afresh fs' = (.ok (), loaded, fs') ∧ loaded.map.Equiv ix.map ∧
      (∀ row g, (lookup row).value loaded g = (lookup row).value { ix with loaded := true } g) ∧
      loaded.document.bytes = ix.document.bytes ∧
      ∀ g, (save.apply loaded g).1 = (save.apply ix g).1 ∧ (save.apply loaded g).2.2 = (save.apply ix g).2.2 := by
  have hread := Files.read_write hstored (write_of_save hsave)
  have ht : Twins { ix with loaded := true } (ix.afresh.withMap (.ofList ix.map.toList _)) :=
    ⟨⟨rfl, rfl, rfl, rfl, rfl⟩, rfl, equiv_ofList_toList ix.map⟩
  have hdocument : (ix.afresh.withMap (.ofList ix.map.toList _)).document = ix.document := ht.document
  refine ⟨_, apply_load_afresh (readsBack_of_fits hf) hread, ht.map, fun row g => ?_, congrArg Document.bytes hdocument,
    fun g => ?_⟩
  · obtain ⟨answer, _, _, _, hx, hx', -⟩ := lockstep_lookup row _ _ g (ht.peers.resembles g)
    rw [value, value, hx, hx']
  · cases hw : g.write ix.path ix.document.bytes with
    | error fault =>
      rw [apply_save_error hw, apply_save_error (by rw [hdocument]; exact hw)]
      exact ⟨rfl, rfl⟩
    | ok g' =>
      rw [apply_save hw, apply_save (by rw [hdocument]; exact hw)]
      exact ⟨rfl, rfl⟩

/-- An index with a key of an escaped text and a NULL, and one of an integer. -/
def scribbled : Index where
  table := "t"
  name := "i"
  columns := ["x", "y"]
  unique := false
  path := "t.idx"
  map := .ofList [([.text "a\"\\\n\u0001é", .null], [⟨1, 2⟩, ⟨7, 1⟩]), ([.integer (-3), .boolean true], [⟨1, 1⟩])] _
  loaded := true

/-- The index is saved in new files, and loaded again from there. -/
theorem load_afresh_of_save_scribbled : ∃ fs', save.apply scribbled (.fresh []) = (.ok (), scribbled, fs') ∧
    ∃ loaded, load.apply scribbled.afresh fs' = (.ok (), loaded, fs') ∧ loaded.map.Equiv scribbled.map ∧
      loaded.document.bytes = scribbled.document.bytes := by
  have hmissing : (Files.fresh []).find "t.idx" = .error .notFound := by decide +kernel
  have hsave : save.apply scribbled (.fresh []) = (.ok (), scribbled, _) := apply_save (write_fresh _)
  have hfits : ∀ entry ∈ scribbled.map.toList, ∀ h ∈ entry.2, Fits h := by
    unfold Fits
    decide +kernel
  obtain ⟨loaded, hload, hmap, -, hbytes, -⟩ :=
    load_afresh_of_save hfits (fun id hf => by cases hmissing.symm.trans hf) hsave
  exact ⟨_, hsave, loaded, hload, hmap, hbytes⟩

end Rowbase.Index
