import Rowbase.Proofs.Language.Grammar
import Rowbase.Proofs.Language.Spelling

/-! # The grammar of statements

Every statement that is read has no empty list, canonical expressions and integers of 64 bits, and a statement that
has them is read from its own tokens. -/
namespace Rowbase.Language

/-! ## Tokens -/

/-- The tokens of a type; of those with two names it is the first. -/
def DeclaredType.tokens : DeclaredType → List Token
  | boolean => [.keyword .BOOLEAN]
  | smallInt => [.keyword .SMALLINT]
  | integer => [.keyword .INT]
  | bigInt => [.keyword .BIGINT]
  | float => [.keyword .FLOAT]
  | double => [.keyword .DOUBLE]
  | char size => [.keyword .CHAR, .leftParen, .integer size, .rightParen]
  | varchar size => [.keyword .VARCHAR, .leftParen, .integer size, .rightParen]
  | text => [.keyword .TEXT]
  | date => [.keyword .DATE]
  | timestamp => [.keyword .TIMESTAMP]

def ColumnDeclaration.tokens (c : ColumnDeclaration) : List Token :=
  .name c.name :: (c.type.tokens ++ if c.notNull then [.keyword .NOT, .keyword .NULL] else [])

/-- The tokens of names with commas between them. -/
def nameTokens (names : List String) : List Token := Reader.commaTokens (names.map fun name => [.name name])

def Selection.tokens : Selection → List Token
  | all => [.asterisk]
  | columns names => nameTokens names

/-- The tokens of a condition, behind the word that starts it. -/
def conditionTokens : Option Expr → List Token
  | some e => .keyword .WHERE :: e.tokens
  | none => []

/-- The tokens of an assignment. -/
def assignmentTokens (a : String × Expr) : List Token := .name a.1 :: .comparison .eq :: a.2.tokens

/-- The tokens of a statement. -/
def Statement.tokens : Statement → List Token
  | select what table condition =>
    .keyword .SELECT :: (what.tokens ++ .keyword .FROM :: .name table :: conditionTokens condition)
  | insert table columns values =>
    .keyword .INSERT :: .keyword .INTO :: .name table ::
      ((match columns with
        | some names => .leftParen :: (nameTokens names ++ [.rightParen])
        | none => []) ++
      .keyword .VALUES :: .leftParen :: (Reader.commaTokens (values.map Expr.tokens) ++ [.rightParen]))
  | update table assignments condition =>
    .keyword .UPDATE :: .name table :: .keyword .SET ::
      (Reader.commaTokens (assignments.map assignmentTokens) ++ conditionTokens condition)
  | delete table condition => .keyword .DELETE :: .keyword .FROM :: .name table :: conditionTokens condition
  | createTable table columns ifNotExists =>
    .keyword .CREATE :: .keyword .TABLE ::
      ((if ifNotExists then [.keyword .IF, .keyword .NOT, .keyword .EXISTS] else []) ++
      .name table :: .leftParen :: (Reader.commaTokens (columns.map ColumnDeclaration.tokens) ++ [.rightParen]))
  | dropTable table => [.keyword .DROP, .keyword .TABLE, .name table]
  | createIndex index table columns kind =>
    .keyword .CREATE :: .keyword .INDEX :: .name index :: .keyword .ON :: .name table :: .keyword .USING ::
      .name kind.name :: .leftParen :: (nameTokens columns ++ [.rightParen])
  | dropIndex index table => [.keyword .DROP, .keyword .INDEX, .name index, .keyword .FROM, .name table]
  | showTables => [.keyword .SHOW, .keyword .TABLES]
  | showColumns (some table) => [.keyword .SHOW, .keyword .COLUMNS, .keyword .FROM, .name table]
  | showColumns none => [.keyword .SHOW, .keyword .COLUMNS]
  | showIndex table => [.keyword .SHOW, .keyword .INDEX, .keyword .FROM, .name table]

/-! ## Canonical statements -/

/-- Whether an expression is canonical and its integers have 64 bits. -/
def Expr.Readable (e : Expr) : Prop := e.Canonical .alternatives ∧ ∀ t ∈ e.tokens, t.Bounded

/-- Whether the size of a character type has 64 bits. -/
def DeclaredType.Readable : DeclaredType → Prop
  | char size | varchar size => size < integerBound
  | _ => True

/-- Whether a statement has no empty list, and only such expressions and types. -/
def Statement.Readable : Statement → Prop
  | select what _ condition => (∀ names, what = .columns names → names ≠ []) ∧ ∀ e ∈ condition, e.Readable
  | insert _ columns values => (∀ names ∈ columns, names ≠ []) ∧ values ≠ [] ∧ ∀ e ∈ values, e.Readable
  | update _ assignments condition =>
    (assignments ≠ [] ∧ ∀ a ∈ assignments, a.2.Readable) ∧ ∀ e ∈ condition, e.Readable
  | delete _ condition => ∀ e ∈ condition, e.Readable
  | createTable _ columns _ => columns ≠ [] ∧ ∀ c ∈ columns, c.type.Readable
  | createIndex _ _ columns _ => columns ≠ []
  | _ => True

namespace Reader

variable {rest : List Token}

/-! ## What is read is canonical -/

theorem gives_readable : Gives Token.Bounded expr Expr.Readable := gives_expr Token.Bounded

theorem gives_names : Gives Token.Bounded names fun names => names ≠ [] :=
  (Gives.separated gives_name).mono fun _ h => h.1

theorem gives_condition : Gives Token.Bounded condition fun condition => ∀ e ∈ condition, e.Readable := by
  refine (gives_accept _).bind fun found _ => ?_
  cases found with
  | true => exact gives_readable.map fun e he e' h => Option.some.inj h ▸ he
  | false => exact gives_pure fun e h => by cases h

theorem gives_selection :
    Gives Token.Bounded selection fun what => ∀ names, what = .columns names → names ≠ [] := by
  refine (gives_accept _).bind fun found _ => ?_
  cases found with
  | true => exact gives_pure fun names h => by cases h
  | false => exact gives_names.map fun names h names' he => Selection.columns.inj he ▸ h

theorem gives_select : Gives Token.Bounded select Statement.Readable :=
  (gives_expect _).bind fun _ _ => gives_selection.bind fun _ hwhat => (gives_expect _).bind fun _ _ =>
    gives_name.bind fun _ _ => gives_condition.bind fun _ hcondition => gives_pure ⟨hwhat, hcondition⟩

theorem gives_insert : Gives Token.Bounded insert Statement.Readable := by
  refine (gives_expect _).bind fun _ _ => (gives_expect _).bind fun _ _ => gives_name.bind fun table _ => ?_
  have hvalues : ∀ columns : Option (List String), (∀ names ∈ columns, names ≠ []) →
      Gives Token.Bounded (do
        keyword .VALUES
        let values ← parenthesized (separated expr)
        pure (Statement.insert table columns values)) Statement.Readable := fun columns hcolumns =>
    (gives_expect _).bind fun _ _ => (Gives.separated gives_readable).parenthesized.bind fun _ h =>
      gives_pure ⟨hcolumns, h⟩
  refine (gives_accept _).bind fun found _ => ?_
  cases found with
  | true =>
    refine gives_names.bind fun names hnames => (gives_expect _).bind fun _ _ => (gives_pure ?_).bind hvalues
    exact fun names' h => Option.some.inj h ▸ hnames
  | false =>
    refine (gives_pure ?_).bind hvalues
    exact fun names h => by cases h

theorem gives_assignment : Gives Token.Bounded assignment fun a => a.2.Readable :=
  gives_name.bind fun _ _ => (gives_expect _).bind fun _ _ => gives_readable.bind fun _ h => gives_pure h

theorem gives_update : Gives Token.Bounded update Statement.Readable :=
  (gives_expect _).bind fun _ _ => gives_name.bind fun _ _ => (gives_expect _).bind fun _ _ =>
    (Gives.separated gives_assignment).bind fun _ h => gives_condition.bind fun _ hcondition =>
      gives_pure ⟨h, hcondition⟩

theorem gives_delete : Gives Token.Bounded delete Statement.Readable :=
  (gives_expect _).bind fun _ _ => (gives_expect _).bind fun _ _ => gives_name.bind fun _ _ =>
    gives_condition.bind fun _ hcondition => gives_pure hcondition

theorem gives_size : Gives Token.Bounded size fun n => n < integerBound := by
  refine gives_integer.parenthesized.bind fun n hn => ?_
  cases n with
  | ofNat n => exact gives_pure hn
  | negSucc n => exact fun ts a rest _ h => by cases h

theorem gives_declaredType : Gives Token.Bounded declaredType DeclaredType.Readable := by
  refine gives_peek.bind fun next _ => ?_
  split
  case h_12 | h_13 => exact gives_skip.bind fun _ _ => gives_size.map fun _ h => h
  case h_14 => exact gives_fail _
  all_goals exact gives_skip.bind fun _ _ => gives_pure trivial

theorem run_nullability_notNull (notNull : Bool) (ts : List Token) :
    run (nullability notNull) (.keyword .NOT :: .keyword .NULL :: ts) = run (nullability true) ts := by
  change Except.map _ (nullability notNull (.keyword .NOT :: .keyword .NULL :: ts)) = Except.map _ (nullability true ts)
  rw [nullability]
  cases nullability true ts <;> rfl

theorem run_nullability_null (notNull : Bool) (ts : List Token) :
    run (nullability notNull) (.keyword .NULL :: ts) = run (nullability false) ts := by
  change Except.map _ (nullability notNull (.keyword .NULL :: ts)) = Except.map _ (nullability false ts)
  rw [nullability]
  cases nullability false ts <;> rfl

theorem run_nullability_not (notNull : Bool) {ts : List Token} (h : ∀ ts', ts ≠ .keyword .NULL :: ts') :
    run (nullability notNull) (.keyword .NOT :: ts) = .error (unexpected Keyword.NULL.text ts) := by
  change Except.map _ (nullability notNull (.keyword .NOT :: ts)) = _
  rw [nullability]
  · rfl
  · exact h

theorem run_nullability (notNull : Bool) {ts : List Token} (hnot : ∀ ts', ts ≠ .keyword .NOT :: ts')
    (hnull : ∀ ts', ts ≠ .keyword .NULL :: ts') : run (nullability notNull) ts = .ok (notNull, ts) := by
  change Except.map _ (nullability notNull ts) = _
  rw [nullability]
  · rfl
  · exact fun ts' => hnot _
  · exact hnot
  · exact hnull

theorem gives_nullability (notNull : Bool) : Gives Token.Bounded (nullability notNull) fun _ => True := by
  intro ts b rest hts h
  induction notNull, ts using nullability.induct with
  | case1 notNull ts ih =>
    rw [run_nullability_notNull] at h
    exact ih (fun t ht => hts t (.tail _ (.tail _ ht))) h
  | case2 notNull ts hnull =>
    rw [run_nullability_not notNull hnull] at h
    cases h
  | case3 notNull ts ih =>
    rw [run_nullability_null] at h
    exact ih (fun t ht => hts t (.tail _ ht)) h
  | case4 notNull ts hnotNull hnot hnull =>
    rw [run_nullability notNull hnot hnull] at h
    cases h
    exact ⟨trivial, hts⟩

theorem gives_columnDeclaration : Gives Token.Bounded columnDeclaration fun c => c.type.Readable :=
  gives_name.bind fun _ _ => gives_declaredType.bind fun _ h => (gives_nullability false).bind fun _ _ => gives_pure h

theorem gives_createTable : Gives Token.Bounded createTable Statement.Readable := by
  refine (gives_expect _).bind fun _ _ => ?_
  have hcolumns : ∀ ifNotExists : Bool, True → Gives Token.Bounded (do
        let table ← name
        let columns ← parenthesized (separated columnDeclaration)
        pure (Statement.createTable table columns ifNotExists)) Statement.Readable := fun _ _ =>
    gives_name.bind fun _ _ => (Gives.separated gives_columnDeclaration).parenthesized.bind fun _ h => gives_pure h
  refine (gives_accept _).bind fun found _ => ?_
  cases found with
  | true => exact (gives_expect _).bind fun _ _ => (gives_expect _).bind fun _ _ => (gives_pure trivial).bind hcolumns
  | false => exact (gives_pure trivial).bind hcolumns

theorem gives_indexKind : Gives Token.Bounded indexKind fun _ => True := by
  refine (gives_accept _).bind fun found _ => ?_
  cases found with
  | true =>
    refine gives_name.bind fun word _ => ?_
    split
    · exact gives_pure trivial
    · exact fun ts a rest _ h => by cases h
  | false => exact gives_pure trivial

theorem gives_createIndex : Gives Token.Bounded createIndex Statement.Readable := by
  refine (gives_accept _).bind fun unique _ => (gives_expect _).bind fun _ _ => gives_name.bind fun _ _ =>
    (gives_expect _).bind fun _ _ => gives_name.bind fun _ _ => gives_indexKind.bind fun kind _ => ?_
  cases unique && !kind.isUnique with
  | true => exact fun ts a rest _ h => by cases h
  | false => exact gives_names.parenthesized.bind fun _ h => gives_pure h

theorem gives_create : Gives Token.Bounded create Statement.Readable := by
  refine (gives_expect _).bind fun _ _ => gives_peek.bind fun next _ => ?_
  split
  · exact gives_createTable
  · exact gives_createIndex
  · exact gives_createIndex
  · exact gives_fail _

theorem gives_dropIndex : Gives Token.Bounded dropIndex Statement.Readable := by
  refine (gives_expect _).bind fun _ _ => gives_name.bind fun _ _ => (gives_accept _).bind fun found _ => ?_
  split
  · exact gives_name.bind fun _ _ => gives_pure trivial
  · refine (gives_accept _).bind fun found _ => ?_
    split
    · exact gives_name.bind fun _ _ => gives_pure trivial
    · exact gives_fail _

theorem gives_drop : Gives Token.Bounded drop Statement.Readable := by
  refine (gives_expect _).bind fun _ _ => gives_peek.bind fun next _ => ?_
  split
  · exact gives_skip.bind fun _ _ => gives_name.map fun _ _ => trivial
  · exact gives_dropIndex
  · exact gives_fail _

theorem gives_showing : Gives Token.Bounded showing Statement.Readable := by
  refine (gives_expect _).bind fun _ _ => gives_peek.bind fun next _ => ?_
  split
  · exact gives_skip.bind fun _ _ => gives_pure trivial
  · refine gives_skip.bind fun _ _ => (gives_accept _).bind fun found _ => ?_
    split
    · exact gives_name.map fun _ _ => trivial
    · exact gives_pure trivial
  · exact gives_skip.bind fun _ _ => (gives_expect _).bind fun _ _ => gives_name.map fun _ _ => trivial
  · exact gives_fail _

/-- Every statement that is read is readable again. -/
theorem gives_statement : Gives Token.Bounded statement Statement.Readable := by
  refine gives_peek.bind fun next _ => ?_
  split
  · exact gives_select
  · exact gives_insert
  · exact gives_update
  · exact gives_delete
  · exact gives_create
  · exact gives_drop
  · exact gives_showing
  · exact gives_fail _

/-! ## Readable statements are read from their tokens -/

theorem run_accept_of_ne {t : Token} (h : rest.head? ≠ some t) : (accept t).run rest = .ok (false, rest) := by
  cases rest with
  | nil => rfl
  | cons t' rest =>
    have ht : t' ≠ t := by simpa using h
    simp [ht]

/-- Whether a statement ends where these tokens follow. -/
def Closes (rest : List Token) : Prop := ∀ t ∈ rest.head?, t = .semicolon

theorem Closes.head?_ne {t : Token} (h : Closes rest) (ht : t ≠ .semicolon) : rest.head? ≠ some t :=
  fun hhead => ht (h t hhead)

theorem Closes.ends (h : Closes rest) : Level.alternatives.Ends rest := by
  cases rest with
  | nil => simp [Level.Ends]
  | cons t rest =>
    cases h t rfl
    simp [Level.Ends]

theorem run_names {as : List String} (h : as ≠ []) (t : Token) (rest : List Token) (ht : t ≠ .comma) :
    run names (nameTokens as ++ t :: rest) = .ok (as, t :: rest) :=
  run_separated_tokens (fun _ => True) (fun _ => trivial) trivial (by simpa using ht) h
    fun s _ ts _ => run_name s ts

theorem run_condition {e? : Option Expr} (h : ∀ e ∈ e?, e.Readable) (hrest : Closes rest) :
    run condition (conditionTokens e? ++ rest) = .ok (e?, rest) := by
  cases e? with
  | none => simp [condition, conditionTokens, run_accept_of_ne (hrest.head?_ne _)]
  | some e => simp [condition, conditionTokens, run_expr_tokens (h e rfl).1 hrest.ends]

theorem run_accept_nameTokens {t : Token} {as : List String} (h : as ≠ []) (ht : ∀ s, t ≠ .name s) :
    (accept t).run (nameTokens as ++ rest) = .ok (false, nameTokens as ++ rest) := by
  apply run_accept_of_ne
  cases as with
  | nil => exact absurd rfl h
  | cons a as => cases as <;> simp [nameTokens, commaTokens, (ht a).symm]

theorem run_values {es : List Expr} (hne : es ≠ []) (h : ∀ e ∈ es, e.Readable) (rest : List Token) :
    run (separated expr) (commaTokens (es.map Expr.tokens) ++ .rightParen :: rest) = .ok (es, .rightParen :: rest) :=
  run_separated_tokens Level.alternatives.Ends (by simp [Level.Ends]) (by simp [Level.Ends]) (by simp) hne
    fun e he _ hends => run_expr_tokens (h e he).1 hends

theorem run_assignments {as : List (String × Expr)} (hne : as ≠ []) (h : ∀ a ∈ as, a.2.Readable)
    (hends : Level.alternatives.Ends rest) (hrest : rest.head? ≠ some .comma) :
    run (separated assignment) (commaTokens (as.map assignmentTokens) ++ rest) = .ok (as, rest) := by
  refine run_separated_tokens Level.alternatives.Ends (by simp [Level.Ends]) hends hrest hne fun a ha rest hends => ?_
  simp [assignment, assignmentTokens, run_expr_tokens (h a ha).1 hends]

theorem run_declaredType {type : DeclaredType} (rest : List Token) :
    run declaredType (type.tokens ++ rest) = .ok (type, rest) := by
  cases type with
  | char n | varchar n => simp [declaredType, DeclaredType.tokens, size]
  | _ => simp [declaredType, DeclaredType.tokens]

/-- Whether no NOT and no NULL follow. -/
def Declared (rest : List Token) : Prop :=
  (∀ ts, rest ≠ .keyword .NOT :: ts) ∧ ∀ ts, rest ≠ .keyword .NULL :: ts

theorem run_columnDeclaration (c : ColumnDeclaration) (hrest : Declared rest) :
    run columnDeclaration (c.tokens ++ rest) = .ok (c, rest) := by
  obtain ⟨name, type, notNull⟩ := c
  cases notNull <;>
    simp [columnDeclaration, ColumnDeclaration.tokens, run_declaredType, run_nullability_notNull,
      run_nullability _ hrest.1 hrest.2]

theorem run_columns {cs : List ColumnDeclaration} (hne : cs ≠ []) (rest : List Token) :
    run (separated columnDeclaration) (commaTokens (cs.map ColumnDeclaration.tokens) ++ .rightParen :: rest) =
      .ok (cs, .rightParen :: rest) :=
  run_separated_tokens Declared (by simp [Declared]) (by simp [Declared]) (by simp) hne
    fun c _ _ hrest => run_columnDeclaration c hrest

theorem run_select {what : Selection} {table : String} {e? : Option Expr}
    (h : (Statement.select what table e?).Readable) (hrest : Closes rest) :
    run statement ((Statement.select what table e?).tokens ++ rest) = .ok (.select what table e?, rest) := by
  cases what with
  | all => simp [statement, select, selection, Statement.tokens, Selection.tokens, run_condition h.2 hrest]
  | columns as =>
    have hne := h.1 as rfl
    simp [statement, select, selection, Statement.tokens, Selection.tokens, run_accept_nameTokens hne, run_names hne,
      run_condition h.2 hrest]

theorem run_insert {table : String} {columns : Option (List String)} {es : List Expr}
    (h : (Statement.insert table columns es).Readable) :
    run statement ((Statement.insert table columns es).tokens ++ rest) = .ok (.insert table columns es, rest) := by
  obtain ⟨hcolumns, hne, hes⟩ := h
  cases columns with
  | none => simp [statement, insert, Statement.tokens, run_values hne hes]
  | some as => simp [statement, insert, Statement.tokens, run_names (hcolumns as rfl), run_values hne hes]

theorem run_update {table : String} {as : List (String × Expr)} {e? : Option Expr}
    (h : (Statement.update table as e?).Readable) (hrest : Closes rest) :
    run statement ((Statement.update table as e?).tokens ++ rest) = .ok (.update table as e?, rest) := by
  obtain ⟨⟨hne, has⟩, he⟩ := h
  have hends : Level.alternatives.Ends (conditionTokens e? ++ rest) ∧
      (conditionTokens e? ++ rest).head? ≠ some .comma := by
    cases e? with
    | none => exact ⟨hrest.ends, hrest.head?_ne fun h => by cases h⟩
    | some e => simp [conditionTokens, Level.Ends]
  simp [statement, update, Statement.tokens, run_assignments hne has hends.1 hends.2, run_condition he hrest]

theorem run_delete {table : String} {e? : Option Expr} (h : (Statement.delete table e?).Readable)
    (hrest : Closes rest) : run statement ((Statement.delete table e?).tokens ++ rest) =
      .ok (.delete table e?, rest) := by
  simp [statement, delete, Statement.tokens, run_condition h hrest]

theorem run_createTable {table : String} {cs : List ColumnDeclaration} {ifNotExists : Bool}
    (h : (Statement.createTable table cs ifNotExists).Readable) :
    run statement ((Statement.createTable table cs ifNotExists).tokens ++ rest) =
      .ok (.createTable table cs ifNotExists, rest) := by
  cases ifNotExists <;> simp [statement, create, createTable, Statement.tokens, run_columns h.1]

theorem run_createIndex {index table : String} {as : List String} {kind : IndexKind}
    (h : (Statement.createIndex index table as kind).Readable) :
    run statement ((Statement.createIndex index table as kind).tokens ++ rest) =
      .ok (.createIndex index table as kind, rest) := by
  have hkind : IndexKind.ofName? kind.name = some kind := by cases kind <;> rfl
  simp [statement, create, createIndex, indexKind, Statement.tokens, hkind, run_names h]

/-- Every readable statement is read from its tokens. -/
theorem run_statement {s : Statement} (h : s.Readable) (hrest : Closes rest) :
    run statement (s.tokens ++ rest) = .ok (s, rest) := by
  cases s with
  | select what table e? => exact run_select h hrest
  | insert table columns es => exact run_insert h
  | update table as e? => exact run_update h hrest
  | delete table e? => exact run_delete h hrest
  | createTable table cs ifNotExists => exact run_createTable h
  | createIndex index table as kind => exact run_createIndex h
  | showColumns table? =>
    cases table? with
    | none => simp [statement, showing, Statement.tokens, run_accept_of_ne (hrest.head?_ne _)]
    | some table => simp [statement, showing, Statement.tokens]
  | _ => simp [statement, drop, dropIndex, showing, Statement.tokens]

end Reader

/-- The tokens of a statement are all but a last semicolon. -/
theorem Statement.ofTokens_eq (ts : List Token) : ofTokens ts = Reader.run Reader.statement ts >>= fun p =>
    if (if p.2.head? = some .semicolon then p.2.tail else p.2).isEmpty then .ok p.1
    else .error (Reader.unexpected "end of statement" (if p.2.head? = some .semicolon then p.2.tail else p.2)) := by
  rw [ofTokens, Reader.run]
  cases Reader.statement ts <;> rfl

end Rowbase.Language
