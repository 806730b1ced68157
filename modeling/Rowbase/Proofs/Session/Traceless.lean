import Rowbase.Proofs.Session.Reachable

/-! # Tables that are not made

A CREATE TABLE that is refused leaves no trace. The catalog has the rows that it had, behind the handles that they had,
and no other file is changed. So whatever follows is answered as if the statement had never been given: by the session
that it was given to and by those that begin later. -/
namespace Rowbase.Session

open Act Database
open Catalog (Holds Twins Matches Usable)
open Rowbase.Language (ColumnDeclaration)

variable {l : Location} {own : Nat → Prop} {L : List String} {s s' : Session} {fs fs' g : Files}
  {c : Catalog} {t : String}
  {declared : List ColumnDeclaration} {ifNotExists : Bool} {e : Refusal}

/-! ## Sessions that open twins -/

/-- Whether two sessions open catalogs that are twins. -/
def Alike (l : Location) (state state' : Session × Files) : Prop :=
  ∃ own L c g c' g', state.1.location = l ∧
    opened.apply state.1 state.2 = (.ok c, { state.1 with catalog := some c }, g) ∧
    opened.apply state'.1 state'.2 = (.ok c', { state'.1 with catalog := some c' }, g') ∧ Twins l own L c g c' g'

/-- A statement is answered alike, and the sessions still open twins, unless a table has a file in common with the
catalog then. -/
theorem Alike.execute (h : Alike l (s, fs) (s', fs')) (statement : Language.Statement) :
    ((execute statement).apply s' fs').1 = ((execute statement).apply s fs).1 ∧
      (Distinct ((execute statement).apply s fs).2 →
        Alike l ((execute statement).apply s fs).2 ((execute statement).apply s' fs').2) := by
  obtain ⟨own, L, c, g, c', g', hl, hx, hx', htwins⟩ := h
  obtain ⟨res, c₁, fs₁, c₁', fs₁', ha, ha', hends⟩ := Catalog.abreast_carryOut statement c g c' g' htwins
  have hdo := apply_execute hx statement
  have hdo' := apply_execute hx' statement
  rw [ha] at hdo
  rw [ha'] at hdo'
  rw [hdo, hdo']
  refine ⟨rfl, fun hd => ?_⟩
  rcases hends with ⟨L, htwins⟩ | hclash
  · exact ⟨own, L, c₁, fs₁, c₁', fs₁', hl, opened_some s c₁ fs₁, opened_some s' c₁' fs₁', htwins⟩
  · exact absurd hd (not_distinct_of_clash hl hclash)

/-- Any number of statements is answered alike. -/
theorem Alike.answers : ∀ (more : List Language.Statement) {s s' : Session} {fs fs' : Files},
    Alike l (s, fs) (s', fs') → (∀ k < more.length, Distinct (run (more.take k) (s, fs))) →
    answers more (s', fs') = answers more (s, fs)
  | [], _, _, _, _, _, _ => rfl
  | statement :: rest, s, s', fs, fs', h, hd => by
    obtain ⟨hanswer, hnext⟩ := h.execute statement
    rw [Session.answers, Session.answers, hanswer]
    refine congrArg _ ?_
    cases rest with
    | nil => rfl
    | cons next rest =>
      have hdistinct : ∀ k < (next :: rest).length,
          Distinct (run ((next :: rest).take k) ((Session.execute statement).apply s fs).2) := fun k hk =>
        hd (k + 1) (Nat.succ_lt_succ hk)
      exact Alike.answers (next :: rest) (hnext (hdistinct 0 (Nat.succ_pos _))) hdistinct

/-! ## CREATE TABLE -/

/-- A CREATE TABLE that is refused leaves the entries as they were, and all files but those of the catalog. -/
theorem Stands.createTable_refused (h : Stands l own L s fs c g) {d d' : Database}
    (hm : Matches l own (Usable L) (Usable L) d d' c g c g) (hd : d.description.Covers L)
    (hx : (execute (.createTable t declared ifNotExists)).apply s fs = (.error e, s', fs')) :
    ∃ c₁ d₁, s' = { s with catalog := some c₁ } ∧ Catalog.Inside l own c g c₁ fs' d₁ ∧ d.SameLists d₁ := by
  have happly := apply_execute h.opened (.createTable t declared ifNotExists)
  rw [hx] at happly
  obtain ⟨hres, hleft⟩ := Prod.mk.inj happly
  obtain ⟨hs', rfl⟩ := Prod.mk.inj hleft
  obtain ⟨d₁, hin, hsame⟩ := hm.first.createTable_error hd (fun r hr => (hm.cached t r hr).1.1)
    (Prod.ext hres.symm rfl)
  exact ⟨_, d₁, hs', hin, hsame⟩

/-! ## Column names that do not fit into a record -/

theorem le_maxRecordSize_of_records {kind : Kind} {column : String}
    (h : Schema.Records Schema.columns (Schema.columnRow t column kind)) :
    column.utf8ByteSize ≤ Heap.maxRecordSize := by
  obtain ⟨-, hsize⟩ := (Relation.exists_record_iff (by decide)).1 h
  have hcolumn := Heap.storedSize_le_of_mem (Schema.columnRow t column kind)
    (by decide : (⟨"column_name", { kind := .text }⟩ : Column) ∈ Schema.columnsOf Schema.columns)
  have htext : ((Schema.columnRow t column kind).get? "column_name").getD .null = .text column := rfl
  rw [htext, Value.storedSize] at hcolumn
  exact Nat.le_trans (Nat.le_add_left _ 3) (Nat.le_trans hcolumn hsize)

/-- A CREATE TABLE for a column with a long name is refused. -/
theorem createTable_long {d : Database} {columns : List Column} {column : Column} (h : Holds l own c fs d)
    (hempty : (d.tableHandles t).isEmpty = true)
    (hcolumns : Catalog.storableColumns [] declared = .ok columns) (hm : column ∈ columns)
    (hlong : Heap.maxRecordSize < column.name.utf8ByteSize) : ∃ e c₁ fs₁,
      (Catalog.createTable t declared ifNotExists).apply c fs = (.error e, c₁, fs₁) := by
  obtain ⟨c₁, hlisted, hin⟩ := h.survey ((Catalog.surveys_tableExists t).adapt Refusal.storage)
  rw [value_adapt_ok (value_tableExists h.models t), hempty] at hlisted
  rw [Catalog.createTable_eq, hcolumns, apply_bind_ok (apply_result _ c fs), apply_bind_ok hlisted, if_neg (by decide),
    Catalog.makeTable_eq]
  rcases hin.holds.announceTable t columns with ⟨e, c₂, fs₂, -, ha, -⟩ | ⟨_, _, _, _, hannounces, -⟩
  · refine ⟨.storage e, c₂, fs₂, apply_bind_error ?_ _⟩
    rw [apply_adapt, apply_bind_error ha]
    rfl
  · exact absurd (le_maxRecordSize_of_records (Schema.records_of_announces hannounces hm)) (Nat.not_le_of_lt hlong)

/-- A name of as many letters as said. -/
def lengthy (n : Nat) : String := String.ofList (List.replicate n 'b')

theorem utf8ByteSize_lengthy : ∀ n, (lengthy n).utf8ByteSize = n
  | 0 => rfl
  | n + 1 => by
    rw [lengthy, List.replicate_succ, ← List.singleton_append, String.ofList_append, String.utf8ByteSize_append,
      show (String.ofList (List.replicate n 'b')).utf8ByteSize = n from utf8ByteSize_lengthy n]
    exact Nat.add_comm 1 n

/-- Two columns, of which the second has too long a name. -/
def longNamed : List ColumnDeclaration := [⟨"a", .integer, false⟩, ⟨lengthy 5000, .integer, false⟩]

theorem storableColumns_longNamed : Catalog.storableColumns [] longNamed =
    .ok [⟨"a", { kind := .int }⟩, ⟨lengthy 5000, { kind := .int }⟩] := by
  have hne : ("a" == lengthy 5000) = false := beq_false_of_ne fun he => by
    have hsize := congrArg String.utf8ByteSize he
    rw [utf8ByteSize_lengthy] at hsize
    exact absurd hsize (by decide)
  simp [longNamed, Catalog.storableColumns, Language.DeclaredType.kind?, hne]

/-! ## Refusals after anything -/

/-- After whatever may become of a database, a CREATE TABLE that is refused leaves no trace: the catalog has the same
rows, all files but its own are what they were, and what follows is answered as if the statement had not been given, as
long as no table has a file in common with the catalog. -/
theorem createTable_refused_reached (h : Reaches l (s, fs))
    (hx : (execute (.createTable t declared ifNotExists)).apply s fs = (.error e, s', fs')) :
    (∀ name ∈ Schema.names, sees (s', fs') (Catalog.rowsOf name) = sees (s, fs) (Catalog.rowsOf name)) ∧
      (∀ names, ¬ l.Own fs' names → fs'.fileAt? names = fs.fileAt? names) ∧
      (∀ more : List Language.Statement, (∀ k < more.length, Distinct (run (more.take k) (s, fs))) →
        answers more (s', fs') = answers more (s, fs)) ∧
      ∀ more : List Language.Statement, (∀ k < more.length, Distinct (run (more.take k) (⟨l, none⟩, fs))) →
        answers more (⟨l, none⟩, fs') = answers more (⟨l, none⟩, fs) := by
  obtain ⟨own, L, c, g, hstands⟩ := h.stands
  obtain ⟨d, _, hd, hm⟩ := hstands.twins
  obtain ⟨c₁, d₁, rfl, hin, hsame⟩ := hstands.createTable_refused hm hd hx
  have hopened := opened_some s c₁ fs'
  refine ⟨fun name hn => ?_, fun names hnot => ?_, fun more => Alike.answers (l := l) more ?_,
    fun more => Alike.answers (l := l) more ?_⟩
  · rw [sees_of_opened hstands.opened, sees_of_opened hopened]
    exact hm.first.sees_rows hin.holds hsame hn
  · have hlocate : ∀ path, fs'.locate path = g.locate path := hin.files.locate
    rw [← hstands.files names fun ⟨name, hn, hl⟩ => hnot ⟨name, hn, (hlocate _).trans hl⟩, Files.fileAt?,
      Files.fileAt?, hin.files.node?]
    split
    · rename_i id hnode
      refine congrArg some (hin.files.bytes id fun hid => hnot ?_)
      obtain ⟨name, hn, hf⟩ := (hm.first.owned id).1 hid
      obtain ⟨names', hl, hnode'⟩ := Files.find_eq_ok.1 hf
      rw [hm.first.sole id hid names names' hnode hnode']
      exact ⟨name, hn, (hlocate _).trans hl⟩
    · rfl
  · exact ⟨own, L, c, g, c₁, fs', hstands.location, hstands.opened, hopened, d, d₁, hd,
      hm.inside hm.first.inside hin hsame.description⟩
  · obtain ⟨c₀, d₀, hx₀, h₀, hu₀, hdesc⟩ := hstands.renewed hm hd
    obtain ⟨c₀', hx₀', h₀', hu₀'⟩ := hin.holds.reopened (hsame.description ▸ hd)
    refine ⟨own, L, c₀, g, c₀', fs', rfl, hx₀, opened_of_setUp hx₀', ?_⟩
    exact Catalog.twins_of_unused h₀ h₀' hu₀ hu₀' hin.files (hsame.description.trans hdesc.symm) (hdesc ▸ hd) hm.clear

/-- A table is described up to the column whose name is too long, and then taken back. -/
theorem createTable_refused_reached_lengthy : ∃ e s' fs', Reaches {} (⟨{}, none⟩, .fresh ["home"]) ∧
    (execute (.createTable "t" longNamed false)).apply ⟨{}, none⟩ (.fresh ["home"]) = (.error e, s', fs') ∧
    ∀ more : List Language.Statement,
      (∀ k < more.length, Distinct (run (more.take k) (⟨{}, none⟩, .fresh ["home"]))) →
        answers more (s', fs') = answers more (⟨{}, none⟩, .fresh ["home"]) := by
  have hsuits : Location.Suits {} Schema.sites (.fresh ["home"]) := by decide +kernel
  have hreaches := Reaches.begun (Files.linkless_fresh ["home"]) hsuits
  obtain ⟨own, c, g, hstands⟩ := stands_of_suits (Files.linkless_fresh ["home"]) hsuits
  obtain ⟨d, _, hd, hm⟩ := hstands.twins
  have hempty : (d.tableHandles "t").isEmpty = true := by
    by_contra hne
    have ht : "t" ∈ Schema.names :=
      hd.tables ▸ mem_tables_description.2 fun hnil => hne (List.isEmpty_iff.2 hnil)
    exact absurd ht (by decide)
  obtain ⟨e, c₁, fs₁, hx⟩ : ∃ e c₁ fs₁,
      (Catalog.createTable "t" longNamed false).apply c g = (.error e, c₁, fs₁) :=
    createTable_long hm.first hempty storableColumns_longNamed (.tail _ (.head _))
      (by rw [utf8ByteSize_lengthy]; decide)
  have hexecute := apply_execute hstands.opened (.createTable "t" longNamed false)
  rw [carryOut, hx] at hexecute
  obtain ⟨-, -, hanswers, -⟩ := createTable_refused_reached hreaches hexecute
  exact ⟨e, _, fs₁, hreaches, hexecute, hanswers⟩

end Rowbase.Session
