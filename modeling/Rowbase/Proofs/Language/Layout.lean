import Mathlib.Algebra.Ring.Nat
import Rowbase.Proofs.Language.Statement

/-! # How statements are laid out

The text of a statement is its tokens, each as it is written, with blanks between them. That holds of every statement,
whether or not its text can be read again: what becomes of the text depends on the single tokens. -/
namespace Rowbase.Language

/-- A token as it is written. -/
def Token.written : Token → String
  | keyword k => k.text
  | integer n => toString n
  | float x => x.text
  | text s => quoted s
  | name s => s
  | comparison op => op.text
  | asterisk => "*"
  | leftParen => "("
  | rightParen => ")"
  | comma => ","
  | semicolon => ";"

/-- Whether a text is tokens as they are written. A blank, a comma or a parenthesis follows each of them but parentheses
and commas, and the last one. -/
inductive Layout : String → List Token → Prop
  | empty : Layout "" []
  | blank {s : String} {ts : List Token} (h : Layout s ts) : Layout (" " ++ s) ts
  | leftParen {s : String} {ts : List Token} (h : Layout s ts) : Layout ("(" ++ s) (.leftParen :: ts)
  | comma {s : String} {ts : List Token} (h : Layout s ts) : Layout ("," ++ s) (.comma :: ts)
  | token {s : String} {ts : List Token} (t : Token) (h : Layout s ts) (hs : Breaks s.toList) :
      Layout (t.written ++ s) (t :: ts)

variable {s s' : String} {t : Token} {ts ts' : List Token}

namespace Layout

theorem of_eq (h : Layout s ts) (hs : s' = s) (hts : ts' = ts) : Layout s' ts' := hs ▸ hts ▸ h

/-! ## Putting texts together -/

theorem append (h : Layout s ts) (h' : Layout s' ts') (hs' : Breaks s'.toList) : Layout (s ++ s') (ts ++ ts') := by
  induction h with
  | empty => exact h'.of_eq (by simp) rfl
  | blank h ih => exact ih.blank.of_eq (String.append_assoc ..) rfl
  | leftParen h ih => exact ih.leftParen.of_eq (String.append_assoc ..) rfl
  | comma h ih => exact ih.comma.of_eq (String.append_assoc ..) rfl
  | token t h hs ih =>
    refine (ih.token t ?_).of_eq (String.append_assoc ..) rfl
    rw [String.toList_append]
    exact hs.append hs'

theorem single (t : Token) : Layout t.written [t] :=
  (token t .empty trivial).of_eq (by simp) rfl

/-- Two texts with a blank between them. -/
theorem spaced (h : Layout s ts) (h' : Layout s' ts') : Layout (s ++ " " ++ s') (ts ++ ts') := by
  rw [String.append_assoc]
  refine h.append h'.blank ?_
  rw [String.toList_append]
  exact .head _

/-- A keyword and a blank before a text. -/
theorem behind (k : Keyword) (h : Layout s ts) : Layout (k.text ++ " " ++ s) (.keyword k :: ts) :=
  (single (.keyword k)).spaced h

theorem parenthesized (h : Layout s ts) : Layout ("(" ++ s ++ ")") (.leftParen :: (ts ++ [.rightParen])) := by
  have hparen : Breaks ")".toList := by
    change ')' ∈ breaks
    decide
  rw [String.append_assoc]
  exact (h.append (single .rightParen) hparen).leftParen

/-- Texts with commas between them. -/
theorem commaSeparated {α : Type} {text : α → String} {tokens : α → List Token}
    (h : ∀ a, Layout (text a) (tokens a)) :
    ∀ as : List α, Layout (commaSeparated (as.map text)) (Reader.commaTokens (as.map tokens))
  | [] => empty
  | [a] => h a
  | a :: b :: as => by
    have hothers := commaSeparated h (b :: as)
    have htext : Language.commaSeparated ((a :: b :: as).map text) =
        text a ++ ("," ++ (" " ++ Language.commaSeparated ((b :: as).map text))) := by
      simp [Language.commaSeparated, ← String.append_assoc]
    have hcomma : Breaks ("," ++ (" " ++ Language.commaSeparated ((b :: as).map text))).toList := by
      rw [String.toList_append]
      exact .tail _ (.head _)
    rw [htext]
    exact (h a).append hothers.blank.comma hcomma

/-! ## What a text does follows from what its tokens do -/

/-- A text spells its tokens if each of them is spelled as it is written. -/
theorem spells (h : Layout s ts) (hts : ∀ t ∈ ts, Spells t.written [t]) : Spells s ts := by
  induction h with
  | empty => exact spells_empty
  | blank h ih => exact (ih hts).blank
  | leftParen h ih => exact (ih fun t ht => hts t (.tail _ ht)).leftParen
  | comma h ih => exact (ih fun t ht => hts t (.tail _ ht)).comma
  | token t h hs ih => exact (hts t (.head _)).append (ih fun t ht => hts t (.tail _ ht)) hs

/-- Every character but the blank stands in a text as often as in its tokens. -/
theorem count_eq {c : Char} (hc : c ≠ ' ') (h : Layout s ts) :
    s.toList.count c = (ts.map fun t => t.written.toList.count c).sum := by
  induction h with
  | empty => rfl
  | blank h ih => simpa [String.toList_append, hc.symm] using ih
  | leftParen h ih | comma h ih | token t h hs ih =>
    rw [String.toList_append, List.count_append, ih]
    rfl

end Layout

/-! ## The parts of statements -/

-- texts are compared by their characters, each keyword and each token as it is written
attribute [local simp] Keyword.text Token.written

theorem Literal.written_token (l : Literal) : l.token.written = l.written := by
  cases l with
  | boolean b => cases b <;> rfl
  | _ => rfl

theorem Operator.written_token (op : Operator) : op.token.written = op.written := by
  cases op <;> rfl

theorem layout_literal (l : Literal) : Layout l.written [l.token] := l.written_token ▸ .single l.token

theorem layout_operator (op : Operator) : Layout op.written [op.token] := op.written_token ▸ .single op.token

/-- By induction on the expression: its text has its parts in the order of its tokens. -/
theorem layout_expr (e : Expr) : Layout e.written e.tokens := by
  induction e with
  | column name => exact .single (.name name)
  | literal l => exact layout_literal l
  | binary op left right ihl ihr =>
    exact ((ihl.spaced (layout_operator op)).spaced ihr).of_eq rfl (by simp [Expr.tokens])
  | not e ih => exact ih.behind .NOT
  | nested e ih => exact ih.parenthesized

theorem layout_condition (e? : Option Expr) : Layout (writtenCondition e?) (conditionTokens e?) := by
  cases e? with
  | none => exact .empty
  | some e => exact ((layout_expr e).behind .WHERE).blank

theorem breaks_writtenCondition (e? : Option Expr) : Breaks (writtenCondition e?).toList := by
  cases e? <;> simp [writtenCondition, Breaks, breaks]

theorem layout_names (names : List String) : Layout (commaSeparated names) (nameTokens names) := by
  have hnames : Layout (commaSeparated (names.map id)) (nameTokens names) :=
    .commaSeparated (fun name => .single (.name name)) names
  rwa [List.map_id] at hnames

theorem layout_selection (what : Selection) : Layout what.written what.tokens := by
  cases what with
  | all => exact .single .asterisk
  | columns names => exact layout_names names

theorem layout_values (es : List Expr) :
    Layout (commaSeparated (es.map Expr.written)) (Reader.commaTokens (es.map Expr.tokens)) :=
  .commaSeparated layout_expr es

theorem layout_assignment (a : String × Expr) : Layout (a.1 ++ " = " ++ a.2.written) (assignmentTokens a) := by
  refine ((Layout.single (.name a.1)).spaced ((Layout.single (.comparison .eq)).spaced (layout_expr a.2))).of_eq ?_ rfl
  simp [← String.toList_inj, Comparison.text]

theorem layout_sized (k : Keyword) (n : Nat) :
    Layout (k.text ++ ("(" ++ toString n ++ ")")) (.keyword k :: .leftParen :: .integer n :: [.rightParen]) := by
  have hn : Layout (toString n) [.integer n] := .single (.integer n)
  refine (Layout.single (.keyword k)).append hn.parenthesized ?_
  simp [Breaks, breaks]

theorem layout_declaredType (type : DeclaredType) : Layout type.written type.tokens := by
  cases type with
  | char n =>
    refine (layout_sized .CHAR n).of_eq ?_ rfl
    change "CHAR(" ++ toString n ++ ")" = _
    simp [← String.toList_inj]
  | varchar n =>
    refine (layout_sized .VARCHAR n).of_eq ?_ rfl
    change "VARCHAR(" ++ toString n ++ ")" = _
    simp [← String.toList_inj]
  | boolean => exact .single (.keyword .BOOLEAN)
  | smallInt => exact .single (.keyword .SMALLINT)
  | integer => exact .single (.keyword .INT)
  | bigInt => exact .single (.keyword .BIGINT)
  | float => exact .single (.keyword .FLOAT)
  | double => exact .single (.keyword .DOUBLE)
  | text => exact .single (.keyword .TEXT)
  | date => exact .single (.keyword .DATE)
  | timestamp => exact .single (.keyword .TIMESTAMP)

theorem layout_columnDeclaration (c : ColumnDeclaration) : Layout c.written c.tokens := by
  obtain ⟨name, type, notNull⟩ := c
  have hc := (Layout.single (.name name)).spaced (layout_declaredType type)
  cases notNull with
  | false => exact hc.of_eq (by simp [ColumnDeclaration.written]) (by simp [ColumnDeclaration.tokens])
  | true =>
    refine (hc.spaced ((Layout.single (.keyword .NULL)).behind .NOT)).of_eq ?_ ?_
    · simp [ColumnDeclaration.written, ← String.toList_inj]
    · simp [ColumnDeclaration.tokens]

/-- Two keywords before a name. -/
theorem layout_phrase (k k' : Keyword) (name : String) :
    Layout (k.text ++ " " ++ (k'.text ++ " " ++ name)) [.keyword k, .keyword k', .name name] :=
  ((Layout.single (.name name)).behind k').behind k

/-! ## Statements -/

theorem layout_select (what : Selection) (table : String) (e? : Option Expr) :
    Layout (Statement.select what table e?).written (Statement.select what table e?).tokens := by
  have htable := (Layout.single (.name table)).append (layout_condition e?) (breaks_writtenCondition e?)
  refine (((layout_selection what).spaced (htable.behind .FROM)).behind .SELECT).of_eq ?_ ?_
  · change "SELECT " ++ what.written ++ " FROM " ++ table ++ writtenCondition e? = _
    simp [← String.toList_inj]
  · simp [Statement.tokens]

theorem layout_insert (table : String) (columns : Option (List String)) (es : List Expr) :
    Layout (Statement.insert table columns es).written (Statement.insert table columns es).tokens := by
  have htable := Layout.single (.name table)
  have hvalues := (layout_values es).parenthesized.behind .VALUES
  cases columns with
  | none =>
    refine (((htable.spaced hvalues).behind .INTO).behind .INSERT).of_eq ?_ ?_
    · change "INSERT INTO " ++ table ++ " " ++ "" ++ "VALUES (" ++ commaSeparated (es.map Expr.written) ++ ")" = _
      simp [← String.toList_inj]
    · simp [Statement.tokens]
  | some as =>
    refine (((htable.spaced ((layout_names as).parenthesized.spaced hvalues)).behind .INTO).behind .INSERT).of_eq ?_ ?_
    · change "INSERT INTO " ++ table ++ " " ++ ("(" ++ commaSeparated as ++ ") ") ++ "VALUES (" ++
        commaSeparated (es.map Expr.written) ++ ")" = _
      simp [← String.toList_inj]
    · simp [Statement.tokens]

theorem layout_update (table : String) (as : List (String × Expr)) (e? : Option Expr) :
    Layout (Statement.update table as e?).written (Statement.update table as e?).tokens := by
  have hset := (Layout.commaSeparated layout_assignment as).append (layout_condition e?) (breaks_writtenCondition e?)
  refine (((Layout.single (.name table)).spaced (hset.behind .SET)).behind .UPDATE).of_eq ?_ ?_
  · change "UPDATE " ++ table ++ " SET " ++ commaSeparated (as.map fun a => a.1 ++ " = " ++ a.2.written) ++
      writtenCondition e? = _
    simp [← String.toList_inj]
  · simp [Statement.tokens]

theorem layout_delete (table : String) (e? : Option Expr) :
    Layout (Statement.delete table e?).written (Statement.delete table e?).tokens := by
  have htable := (Layout.single (.name table)).append (layout_condition e?) (breaks_writtenCondition e?)
  refine ((htable.behind .FROM).behind .DELETE).of_eq ?_ rfl
  change "DELETE FROM " ++ table ++ writtenCondition e? = _
  simp [← String.toList_inj]

theorem layout_createTable (table : String) (cs : List ColumnDeclaration) (ifNotExists : Bool) :
    Layout (Statement.createTable table cs ifNotExists).written
      (Statement.createTable table cs ifNotExists).tokens := by
  have hcolumns := (Layout.commaSeparated layout_columnDeclaration cs).parenthesized
  have htable := (Layout.single (.name table)).spaced hcolumns
  cases ifNotExists with
  | false =>
    refine ((htable.behind .TABLE).behind .CREATE).of_eq ?_ ?_
    · change "CREATE TABLE " ++ "" ++ table ++ " (" ++ commaSeparated (cs.map ColumnDeclaration.written) ++ ")" = _
      simp [← String.toList_inj]
    · simp [Statement.tokens]
  | true =>
    refine (((((htable.behind .EXISTS).behind .NOT).behind .IF).behind .TABLE).behind .CREATE).of_eq ?_ ?_
    · change "CREATE TABLE " ++ "IF NOT EXISTS " ++ table ++ " (" ++
        commaSeparated (cs.map ColumnDeclaration.written) ++ ")" = _
      simp [← String.toList_inj]
    · simp [Statement.tokens]

theorem layout_createIndex (index table : String) (as : List String) (kind : IndexKind) :
    Layout (Statement.createIndex index table as kind).written
      (Statement.createIndex index table as kind).tokens := by
  have husing := ((Layout.single (.name kind.name)).spaced (layout_names as).parenthesized).behind .USING
  have htable := ((Layout.single (.name table)).spaced husing).behind .ON
  refine ((((Layout.single (.name index)).spaced htable).behind .INDEX).behind .CREATE).of_eq ?_ ?_
  · change "CREATE INDEX " ++ index ++ " ON " ++ table ++ " USING " ++ kind.name ++ " (" ++ commaSeparated as ++
      ")" = _
    simp [← String.toList_inj]
  · simp [Statement.tokens]

theorem layout_dropIndex (index table : String) :
    Layout (Statement.dropIndex index table).written (Statement.dropIndex index table).tokens := by
  have hfrom := (Layout.single (.name index)).spaced ((Layout.single (.name table)).behind .FROM)
  refine ((hfrom.behind .INDEX).behind .DROP).of_eq ?_ rfl
  change "DROP INDEX " ++ index ++ " FROM " ++ table = _
  simp [← String.toList_inj]

/-- The text of a statement is its tokens as they are written. -/
theorem layout_statement (s : Statement) : Layout s.written s.tokens := by
  cases s with
  | select what table e? => exact layout_select what table e?
  | insert table columns es => exact layout_insert table columns es
  | update table as e? => exact layout_update table as e?
  | delete table e? => exact layout_delete table e?
  | createTable table cs ifNotExists => exact layout_createTable table cs ifNotExists
  | createIndex index table as kind => exact layout_createIndex index table as kind
  | dropIndex index table => exact layout_dropIndex index table
  | dropTable table =>
    refine (layout_phrase .DROP .TABLE table).of_eq ?_ rfl
    change "DROP TABLE " ++ table = _
    simp [← String.toList_inj]
  | showTables => exact (Layout.single (.keyword .TABLES)).behind .SHOW
  | showColumns table? =>
    cases table? with
    | none => exact (Layout.single (.keyword .COLUMNS)).behind .SHOW
    | some table =>
      refine ((layout_phrase .COLUMNS .FROM table).behind .SHOW).of_eq ?_ rfl
      change "SHOW COLUMNS FROM " ++ table = _
      simp [← String.toList_inj]
  | showIndex table =>
    refine ((layout_phrase .INDEX .FROM table).behind .SHOW).of_eq ?_ rfl
    change "SHOW INDEX FROM " ++ table = _
    simp [← String.toList_inj]

end Rowbase.Language
