import Rowbase.Proofs.Session.Run

/-! # Statements that succeed

A statement succeeds just if what it needs is there, so it is enough to look at the database before it. In a
database that has just begun tables can be made, in empty tables indices, and rows go in where all indices take
them. -/
namespace Rowbase

open Act Database

theorem Settles.succeeds_iff {l : Location} {sites : Sites} {d : Database} {ε α : Type} {x : Act ε Catalog α}
    {c : Catalog} {fs : Files} {P : Prop} {Q : Database → Prop} (h : Settles l sites d x c fs P Q) :
    x.Succeeds c fs ↔ P := by
  cases h with
  | refused hp ha _ _ _ =>
    refine iff_of_false ?_ hp
    rintro ⟨a, c', fs', hok⟩
    rw [ha] at hok
    cases hok
  | done hp ha _ _ _ => exact iff_of_true ⟨_, _, _, ha⟩ hp

/-- Columns and values make one row at most. -/
theorem Database.Takes.row_eq {d : Database} {t : String} {names : Option (List String)}
    {values : List Language.Expr} {row row' : Row} (h : d.Takes t names values row)
    (h' : d.Takes t names values row') : row' = row := by
  obtain ⟨ct, hc, hg, -⟩ := h
  obtain ⟨ct', hc', hg', -⟩ := h'
  rw [hc] at hc'
  cases hc'
  exact Except.ok.inj (hg'.symm.trans hg)

/-- An index without rows takes every row. -/
theorem Index.Exact.admits_of_nil {ix : Index} (he : ix.Exact []) (row : Row) : ix.Admits row :=
  fun key _ hfull => hfull.2.2 (he.handles_eq key)

namespace Session

variable {l : Location} {sites : Sites} {s : Session} {c : Catalog} {fs fs' : Files} {d : Database}
  {t i : String} {ct : Content} {statement : Language.Statement}

/-- A statement succeeds in a session just if what it needs is in its database. -/
theorem Opens.succeeds_iff {P : Prop} {Q : Database → Prop} (h : Opens l sites d s fs c fs')
    (statement : Language.Statement) (hx : Settles l sites d (carryOut statement) c fs' P Q) :
    (Session.execute statement).Succeeds s fs ↔ P := by
  rw [← hx.succeeds_iff, Act.Succeeds, Act.Succeeds, apply_execute h.opened]
  simp only [Prod.ext_iff]
  exact ⟨fun ⟨a, _, _, ha, _⟩ => ⟨a, _, _, ha, rfl, rfl⟩, fun ⟨a, _, _, ha, _⟩ => ⟨a, _, _, ha, rfl, rfl⟩⟩

/-- A statement that succeeds does what it is for. -/
theorem Opens.succeeds (h : Opens l sites d s fs c fs') (hs : ∀ site ∈ statement.sites, site ∈ sites)
    (hok : (carryOut statement).Succeeds c fs') : ∃ s₁ fs₁ c₁ d₁,
      ((Session.execute statement).apply s fs).2 = (s₁, fs₁) ∧ Opens l sites d₁ s₁ fs₁ c₁ fs₁ ∧
      d.Changes statement d₁ := by
  obtain ⟨a, c₂, fs₂, hok⟩ := hok
  obtain ⟨res, c₁, fs₁, d₁, hx, h₁, ⟨⟨e, rfl⟩, -⟩ | ⟨-, hchanges⟩⟩ := h.execute hs
  · rw [apply_execute h.opened, hok] at hx
    cases hx
  · exact ⟨_, fs₁, c₁, d₁, congrArg Prod.snd hx, h₁, hchanges⟩

/-- A table that is not there is made if it can be described. -/
theorem Opens.createTable {declared : List Language.ColumnDeclaration} {columns : List Column}
    (h : Opens l sites d s fs c fs') (hs : .relation t ∈ sites) (hnil : d.tableHandles t = [])
    (hcols : Catalog.storableColumns [] declared = .ok columns) (hdesc : Schema.Describes t columns)
    (ifNotExists : Bool) : ∃ s₁ fs₁ c₁ d₁,
      ((Session.execute (.createTable t declared ifNotExists)).apply s fs).2 = (s₁, fs₁) ∧
      Opens l sites d₁ s₁ fs₁ c₁ fs₁ ∧ d.Adds t columns d₁ := by
  have hcreates : d.Creates t declared ifNotExists := ⟨columns, hcols, by rwa [if_pos hnil]⟩
  have hsites : ∀ site ∈ (Language.Statement.createTable t declared ifNotExists).sites, site ∈ sites :=
    fun _ hm => List.mem_singleton.1 hm ▸ hs
  obtain ⟨s₁, fs₁, c₁, d₁, hx, h₁, ⟨hne, -⟩ | ⟨-, columns', hok, hadds⟩⟩ :=
    h.succeeds hsites ((settles_createTable h.models h.sound hs declared ifNotExists).succeeds_iff.2 hcreates)
  · exact absurd hnil hne
  · rw [hcols] at hok
    cases hok
    exact ⟨s₁, fs₁, c₁, d₁, hx, h₁, hadds⟩

/-- A session whose first statement makes a table has no other one, and no index. -/
theorem createTable_first {fs : Files} {declared : List Language.ColumnDeclaration} {columns : List Column}
    (h : l.Suits sites fs) (hown : ∀ name ∈ Schema.names, .relation name ∈ sites) (hs : .relation t ∈ sites)
    (hn : t ∉ Schema.names) (hcols : Catalog.storableColumns [] declared = .ok columns)
    (hdesc : Schema.Describes t columns) (ifNotExists : Bool) : ∃ s₁ fs₁ c₁ d₁,
      ((Session.execute (.createTable t declared ifNotExists)).apply ⟨l, none⟩ fs).2 = (s₁, fs₁) ∧
      Opens l sites d₁ s₁ fs₁ c₁ fs₁ ∧ d₁.table t = some ⟨columns, []⟩ ∧ d₁.indices.live = [] ∧
      ∀ t i, d₁.index t i = none := by
  obtain ⟨d₀, c₀, fs₀, h₀, hfresh⟩ := opens_of_suits h hown
  have hnil : d₀.tableHandles t = [] := not_ne_iff.1 (mt (hfresh.tableHandles_ne_nil t).1 hn)
  obtain ⟨s₁, fs₁, c₁, d₁, hx₁, h₁, -, handle, added, -, hd₁⟩ := h₀.createTable hs hnil hcols hdesc ifNotExists
  refine ⟨s₁, fs₁, c₁, d₁, hx₁, h₁, ?_, ?_, fun t i => ?_⟩ <;> rw [hd₁]
  · rw [table_withTable, if_pos rfl]
  · exact hfresh.indices
  · exact hfresh.index t i

/-- Where no two indices share a file, an index that is not there is made for a table without rows. -/
theorem Opens.createIndex (h : Opens l sites d s fs c fs') (columns : List String) (kind : Language.IndexKind)
    (hexclusive : sites.exclusive = true) (hs : .index t i ∈ sites) (hc : d.table t = some ct)
    (hrows : ct.rows.live = []) (hnil : d.indexEntries t i = []) (hne : columns ≠ [])
    (hcheck : Catalog.checkIndexColumns i t (ct.columns.map Column.name) [] columns = .ok ())
    (hrec : ∀ b ∈ columns.zipIdx 1, Schema.Records Schema.indices (IndexEntry.atPlace t i kind b).row) :
    ∃ s₁ fs₁ c₁ d₁, ((Session.execute (.createIndex i t columns kind)).apply s fs).2 = (s₁, fs₁) ∧
      Opens l sites d₁ s₁ fs₁ c₁ fs₁ ∧ d.Gets t i columns kind d₁ := by
  have hfirst : ∃ column ∈ columns.head?,
      Schema.Records Schema.indices (Schema.indexRow t i 1 column kind) := by
    cases columns with
    | nil => exact absurd rfl hne
    | cons column rest => exact ⟨column, rfl, hrec (column, 1) (.head _)⟩
  have hbegins : d.Begins i t columns kind := ⟨⟨ct, hc, hcheck⟩, hnil, hfirst⟩
  have hfree : fs'.exists? (l.indexPath t i) = false := by
    have hf := h.models.filed hexclusive t i hs
    rw [h.sound.regular.index_eq_none hnil, Index.Filed.none_iff] at hf
    exact Bool.eq_false_iff.2 fun he => (h.models.exists?_iff hs).1 he hf
  have hok := createIndex_succeeds h.models h.sound hs hc hbegins
    (not_hindered hs hne hrec hfree hrows)
  have hsites : ∀ site ∈ (Language.Statement.createIndex i t columns kind).sites, site ∈ sites :=
    fun _ hm => List.mem_singleton.1 hm ▸ hs
  obtain ⟨s₁, fs₁, c₁, d₁, hx, h₁, -, hgets⟩ := h.succeeds hsites hok
  exact ⟨s₁, fs₁, c₁, d₁, hx, h₁, hgets⟩

/-- A row that a table takes is inserted. -/
theorem Opens.insert {names : Option (List String)} {values : List Language.Expr} {row : Row}
    (h : Opens l sites d s fs c fs') (ht : d.Takes t names values row) :
    ∃ s₁ fs₁ c₁ d₁, ((Session.execute (.insert t names values)).apply s fs).2 = (s₁, fs₁) ∧
      Opens l sites d₁ s₁ fs₁ c₁ fs₁ ∧ d.Gains t row d₁ := by
  have hsites : ∀ site ∈ (Language.Statement.insert t names values).sites, site ∈ sites := nofun
  obtain ⟨s₁, fs₁, c₁, d₁, hx, h₁, row', ht', hgains⟩ :=
    h.succeeds hsites ((settles_insert h.models h.sound).succeeds_iff.2 ⟨row, ht⟩)
  rw [ht.row_eq ht'] at hgains
  exact ⟨s₁, fs₁, c₁, d₁, hx, h₁, hgains⟩

/-! ## A table with two indices and a row -/

/-- The columns of a table of numbers with names. -/
def takenColumns : List Column := [⟨"a", { kind := .int }⟩, ⟨"b", { kind := .text }⟩]

/-- The row of that table for 1 and x. -/
def takenRow : Row := .ofList [("a", .integer 1), ("b", .text "x")]

/-- Statements that make the table with two indices, of which the second is unique, and insert the row. -/
def taken : List Language.Statement :=
  [.createTable "t" [⟨"a", .integer, false⟩, ⟨"b", .text, false⟩] false, .createIndex "i" "t" ["b"] .hash,
    .createIndex "j" "t" ["a"] .btree, .insert "t" none [.literal (.integer 1), .literal (.text "x")]]

theorem fits_taken : Location.Fits {} (.of taken) (.fresh ["home"]) taken := by decide +kernel

theorem opens_taken_listed : ∃ d s fs c ct handle, run taken (⟨{}, none⟩, .fresh ["home"]) = (s, fs) ∧
    Opens {} (.of taken) d s fs c fs ∧ d.table "t" = some ct ∧ ct.columns = takenColumns ∧
    ct.rows.live = [(handle, takenRow)] ∧ d.definition "t" "i" = (["b"], false) ∧
    d.definition "t" "j" = (["a"], true) ∧ ∀ i, i ∈ d.indexNames "t" ↔ i ∈ ["i", "j"] := by
  have hdesc : Schema.Describes "t" takenColumns := ⟨by decide +kernel, by decide +kernel, List.cons_ne_nil _ _⟩
  have hstorable : Catalog.storableColumns [] [⟨"a", .integer, false⟩, ⟨"b", .text, false⟩] =
      .ok takenColumns := rfl
  obtain ⟨s₁, fs₁, c₁, d₁, hx₁, h₁, hc₁, hindices₁, -⟩ := createTable_first fits_taken.suits fits_taken.own
    (by decide +kernel) (by decide) hstorable hdesc false
  have hnil₁ : ∀ i, d₁.indexEntries "t" i = [] := by
    intro i
    rw [indexEntries, hindices₁]
    rfl
  obtain ⟨s₂, fs₂, c₂, d₂, hx₂, h₂, new₂, ix₂, rfl, -, hnew₂⟩ := h₁.createIndex ["b"] .hash rfl
    (by decide +kernel) hc₁ rfl (hnil₁ "i") (List.cons_ne_nil _ _) rfl (by decide +kernel)
  have hnil₂ : (d₁.withIndex "t" "i" new₂ (some ix₂)).indexEntries "t" "j" = [] := by
    rw [indexEntries_withIndex (about_of_atPlace hnew₂), if_neg (by decide), hnil₁]
  obtain ⟨s₃, fs₃, c₃, d₃, hx₃, h₃, new₃, ix₃, hd₃, -, hnew₃⟩ := h₂.createIndex ["a"] .btree rfl
    (by decide +kernel) hc₁ rfl hnil₂ (List.cons_ne_nil _ _) rfl (by decide +kernel)
  have hc₃ : d₃.table "t" = some ⟨takenColumns, []⟩ := by
    rw [hd₃]
    exact hc₁
  have hdef₂ : d₃.definition "t" "i" = (["b"], false) := by
    rw [hd₃, definition, indexEntries_withIndex (about_of_atPlace hnew₃), if_neg (by decide)]
    exact definition_withIndex (hnil₁ "i") (List.cons_ne_nil "b" []) (by decide) hnew₂ (some ix₂)
  have hdef₃ : d₃.definition "t" "j" = (["a"], true) := by
    rw [hd₃]
    exact definition_withIndex hnil₂ (List.cons_ne_nil "a" []) (by decide) hnew₃ (some ix₃)
  have hnames₃ : ∀ i, i ∈ d₃.indexNames "t" ↔ i ∈ ["i", "j"] := by
    intro i
    have hentries : d₃.description.indices =
        [.atPlace "t" "i" .hash ("b", 1), .atPlace "t" "j" .btree ("a", 1)] := by
      rw [hd₃, description_withIndex hnew₃, description_withIndex hnew₂, description, hindices₁]
      rfl
    rw [indexNames_description, List.mem_mergeSort, List.mem_eraseDups, hentries]
    exact .rfl
  -- no index has a row yet
  have htakes : d₃.Takes "t" none [.literal (.integer 1), .literal (.text "x")] takenRow := by
    refine ⟨_, hc₃, rfl, ⟨_, rfl⟩, fun i _ ix hx => ?_⟩
    exact Index.Exact.admits_of_nil (h₃.sound.exact_of_table hc₃ hx) _
  obtain ⟨s₄, fs₄, c₄, d₄, hx₄, h₄, ct₀, handle, hct₀, hlike, hlive⟩ := h₃.insert htakes
  rw [hc₃] at hct₀
  cases hct₀
  obtain ⟨ct, hc₄, hcols⟩ := hlike.table_some hc₃
  refine ⟨d₄, s₄, fs₄, c₄, ct, handle, ?_, h₄, hc₄, hcols, ?_, (hlike.definition _ _).trans hdef₂,
    (hlike.definition _ _).trans hdef₃, fun i => hlike.indexNames "t" ▸ hnames₃ i⟩
  · rw [taken, run, hx₁, run, hx₂, run, hx₃, run, hx₄, run]
  · rw [← live_of_table hc₄, hlive, if_pos rfl, live_of_table hc₃]
    rfl

theorem opens_taken : ∃ d s fs c ct handle, run taken (⟨{}, none⟩, .fresh ["home"]) = (s, fs) ∧
    Opens {} (.of taken) d s fs c fs ∧ d.table "t" = some ct ∧ ct.columns = takenColumns ∧
    ct.rows.live = [(handle, takenRow)] ∧ d.definition "t" "i" = (["b"], false) ∧
    d.definition "t" "j" = (["a"], true) := by
  obtain ⟨d, s, fs, c, ct, handle, hrun, hopens, hc, hcols, hrows, hi, hj, -⟩ := opens_taken_listed
  exact ⟨d, s, fs, c, ct, handle, hrun, hopens, hc, hcols, hrows, hi, hj⟩

end Session

end Rowbase
