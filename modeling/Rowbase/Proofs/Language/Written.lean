import Rowbase.Proofs.Language.Layout

/-! # Statements are read as they are written

The text of a statement that was read spells the tokens that the statement is read from, if it has no float and none of
its names needs quotes. So writing and reading again gives the same statement. -/
namespace Rowbase.Language

/-! ## Plain statements -/

/-- The names in an expression. -/
def Expr.names : Expr → List String
  | column name => [name]
  | literal _ => []
  | binary _ left right => left.names ++ right.names
  | not e | nested e => e.names

/-- The literals of an expression. -/
def Expr.literals : Expr → List Literal
  | column _ => []
  | literal l => [l]
  | binary _ left right => left.literals ++ right.literals
  | not e | nested e => e.literals

/-- Whether all names in an expression are bare and no literal is a float. -/
def Expr.Plain (e : Expr) : Prop := (∀ name ∈ e.names, Bare name) ∧ ∀ x, .float x ∉ e.literals

def Selection.names : Selection → List String
  | all => []
  | columns names => names

namespace Statement

/-- The expressions of a statement. -/
def expressions : Statement → List Expr
  | select _ _ condition | delete _ condition => condition.toList
  | insert _ _ values => values
  | update _ assignments condition => assignments.map (·.2) ++ condition.toList
  | _ => []

/-- The names in a statement, those in its expressions aside. -/
def names : Statement → List String
  | select what table _ => what.names ++ [table]
  | insert table columns _ => table :: columns.getD []
  | update table assignments _ => table :: assignments.map (·.1)
  | createTable table columns _ => table :: columns.map (·.name)
  | createIndex index table columns _ => index :: table :: columns
  | dropIndex index table => [index, table]
  | showTables | showColumns none => []
  | delete table _ | dropTable table | showColumns (some table) | showIndex table => [table]

/-- Whether all names in a statement are bare and no literal is a float. -/
def Plain (s : Statement) : Prop := (∀ name ∈ s.names, Bare name) ∧ ∀ e ∈ s.expressions, e.Plain

end Statement

/-! ## The tokens of a statement -/

/-- Whether a token is a keyword or a sign. -/
def Token.Fixed : Token → Prop
  | integer _ | float _ | text _ | name _ => False
  | _ => True

/-- What holds of commas and of all tokens of some lists holds of those of the lists with commas between them. -/
theorem forall_mem_commaTokens {P : Token → Prop} (hcomma : P .comma) :
    ∀ {tss : List (List Token)}, (∀ ts ∈ tss, ∀ t ∈ ts, P t) → ∀ t ∈ Reader.commaTokens tss, P t
  | [], _ => List.forall_mem_nil _
  | [_], h => h _ (.head _)
  | ts :: ts' :: tss, h => by
    have hothers := forall_mem_commaTokens hcomma fun us hm => h us (.tail _ hm)
    rw [Reader.commaTokens]
    · exact List.forall_mem_append.2 ⟨h ts (.head _), List.forall_mem_cons.2 ⟨hcomma, hothers⟩⟩
    · exact List.cons_ne_nil _ _

section
variable {P : Token → Prop} (hfixed : ∀ t : Token, t.Fixed → P t)
include hfixed

/-- The tokens of an expression are its names and literals, and fixed ones. -/
theorem Expr.forall_mem_tokens {e : Expr} (hnames : ∀ name ∈ e.names, P (.name name))
    (hliterals : ∀ l ∈ e.literals, P l.token) : ∀ t ∈ e.tokens, P t := by
  induction e with
  | column name => simpa [tokens, names] using hnames
  | literal l => simpa [tokens, literals] using hliterals
  | binary op left right ihl ihr =>
    simp only [names, literals, List.forall_mem_append] at hnames hliterals
    rw [tokens, List.forall_mem_append, List.forall_mem_cons]
    refine ⟨ihl hnames.1 hliterals.1, hfixed _ ?_, ihr hnames.2 hliterals.2⟩
    cases op <;> trivial
  | not e ih => exact List.forall_mem_cons.2 ⟨hfixed _ trivial, ih hnames hliterals⟩
  | nested e ih =>
    rw [tokens, List.forall_mem_cons, List.forall_mem_append, List.forall_mem_singleton]
    exact ⟨hfixed _ trivial, ih hnames hliterals, hfixed _ trivial⟩

variable (hkinds : ∀ kind : IndexKind, P (.name kind.name)) (hsizes : ∀ n : Nat, n < integerBound → P (.integer n))

theorem forall_mem_conditionTokens {e? : Option Expr} (h : ∀ e ∈ e?, ∀ t ∈ e.tokens, P t) :
    ∀ t ∈ conditionTokens e?, P t := by
  cases e? with
  | none => exact List.forall_mem_nil _
  | some e => exact List.forall_mem_cons.2 ⟨hfixed _ trivial, h e rfl⟩

theorem forall_mem_nameTokens {names : List String} (h : ∀ name ∈ names, P (.name name)) :
    ∀ t ∈ nameTokens names, P t := by
  refine forall_mem_commaTokens (hfixed _ trivial) fun ts hm => ?_
  obtain ⟨name, hname, rfl⟩ := List.mem_map.1 hm
  exact List.forall_mem_singleton.2 (h name hname)

include hsizes in
theorem forall_mem_typeTokens {type : DeclaredType} (h : type.Readable) : ∀ t ∈ type.tokens, P t := by
  cases type with
  | char n | varchar n =>
    simp only [DeclaredType.tokens, List.forall_mem_cons]
    exact ⟨hfixed _ trivial, hfixed _ trivial, hsizes n h, hfixed _ trivial, List.forall_mem_nil _⟩
  | _ => exact List.forall_mem_singleton.2 (hfixed _ trivial)

include hsizes in
theorem forall_mem_declarationTokens {c : ColumnDeclaration} (hname : P (.name c.name)) (htype : c.type.Readable) :
    ∀ t ∈ c.tokens, P t := by
  obtain ⟨name, type, notNull⟩ := c
  rw [ColumnDeclaration.tokens, List.forall_mem_cons, List.forall_mem_append]
  refine ⟨hname, forall_mem_typeTokens hfixed hsizes htype, ?_⟩
  cases notNull with
  | false => exact List.forall_mem_nil _
  | true => exact List.forall_mem_cons.2 ⟨hfixed _ trivial, List.forall_mem_singleton.2 (hfixed _ trivial)⟩

include hkinds hsizes in
/-- The tokens of a statement are its names and those of its expressions, sizes, kinds of indices, and fixed ones. -/
theorem Statement.forall_mem_tokens {s : Statement} (hs : s.Readable) (hnames : ∀ name ∈ s.names, P (.name name))
    (hexpressions : ∀ e ∈ s.expressions, ∀ t ∈ e.tokens, P t) : ∀ t ∈ s.tokens, P t := by
  have hkeyword : ∀ k, P (.keyword k) := fun k => hfixed _ trivial
  have hleft : P .leftParen := hfixed _ trivial
  have hright : P .rightParen := hfixed _ trivial
  have hlist : ∀ {tss : List (List Token)}, (∀ ts ∈ tss, ∀ t ∈ ts, P t) → ∀ t ∈ Reader.commaTokens tss, P t :=
    forall_mem_commaTokens (hfixed _ trivial)
  cases s with
  | select what table e? =>
    simp only [names, expressions, List.forall_mem_append, Option.mem_toList] at hnames hexpressions
    have hwhat : ∀ t ∈ what.tokens, P t := by
      cases what with
      | all => exact List.forall_mem_singleton.2 (hfixed _ trivial)
      | columns as => exact forall_mem_nameTokens hfixed hnames.1
    simp only [tokens, List.forall_mem_cons, List.forall_mem_append]
    exact ⟨hkeyword _, hwhat, hkeyword _, hnames.2 _ (.head _), forall_mem_conditionTokens hfixed hexpressions⟩
  | insert table columns es =>
    simp only [names, List.forall_mem_cons] at hnames
    have hvalues : ∀ ts ∈ es.map Expr.tokens, ∀ t ∈ ts, P t := List.forall_mem_map.2 hexpressions
    simp only [tokens, List.forall_mem_cons, List.forall_mem_append]
    refine ⟨hkeyword _, hkeyword _, hnames.1, ?_, hkeyword _, hleft, hlist hvalues, hright, List.forall_mem_nil _⟩
    cases columns with
    | none => exact List.forall_mem_nil _
    | some as =>
      simp only [List.forall_mem_cons, List.forall_mem_append]
      exact ⟨hleft, forall_mem_nameTokens hfixed hnames.2, hright, List.forall_mem_nil _⟩
  | update table as e? =>
    simp only [names, expressions, List.forall_mem_cons, List.forall_mem_append, List.forall_mem_map,
      Option.mem_toList] at hnames hexpressions
    have hassignments : ∀ ts ∈ as.map assignmentTokens, ∀ t ∈ ts, P t := List.forall_mem_map.2 fun a ha =>
      List.forall_mem_cons.2 ⟨hnames.2 a ha, List.forall_mem_cons.2 ⟨hfixed _ trivial, hexpressions.1 a ha⟩⟩
    simp only [tokens, List.forall_mem_cons, List.forall_mem_append]
    exact ⟨hkeyword _, hnames.1, hkeyword _, hlist hassignments, forall_mem_conditionTokens hfixed hexpressions.2⟩
  | delete table e? =>
    simp only [expressions, Option.mem_toList] at hexpressions
    simp only [tokens, List.forall_mem_cons]
    exact ⟨hkeyword _, hkeyword _, hnames _ (.head _), forall_mem_conditionTokens hfixed hexpressions⟩
  | createTable table cs ifNotExists =>
    simp only [names, List.forall_mem_cons, List.forall_mem_map] at hnames
    have hcolumns : ∀ ts ∈ cs.map ColumnDeclaration.tokens, ∀ t ∈ ts, P t := List.forall_mem_map.2 fun c hc =>
      forall_mem_declarationTokens hfixed hsizes (hnames.2 c hc) (hs.2 c hc)
    have hexists : ∀ t ∈ if ifNotExists then [.keyword .IF, .keyword .NOT, .keyword .EXISTS] else [], P t := by
      cases ifNotExists <;> simp [hkeyword]
    simp only [tokens, List.forall_mem_cons, List.forall_mem_append]
    exact ⟨hkeyword _, hkeyword _, hexists, hnames.1, hleft, hlist hcolumns, hright,
      List.forall_mem_nil _⟩
  | createIndex index table as kind =>
    simp only [names, List.forall_mem_cons] at hnames
    simp only [tokens, List.forall_mem_cons, List.forall_mem_append]
    exact ⟨hkeyword _, hkeyword _, hnames.1, hkeyword _, hnames.2.1, hkeyword _, hkinds kind, hleft,
      forall_mem_nameTokens hfixed hnames.2.2, hright, List.forall_mem_nil _⟩
  | showColumns table? =>
    cases table? with
    | none => simp [tokens, hkeyword]
    | some table => simpa [tokens, names, hkeyword] using hnames
  | showTables => simp [tokens, hkeyword]
  | dropTable table | showIndex table | dropIndex index table => simpa [tokens, names, hkeyword] using hnames

end

/-! ## What is written spells the tokens -/

theorem spells_kind (kind : IndexKind) : Spells kind.name [.name kind.name] := by
  refine spells_name ?_
  cases kind with
  | btree => exact ⟨'B', ['T', 'R', 'E', 'E'], rfl, by decide, by decide, by decide⟩
  | hash => exact ⟨'H', ['A', 'S', 'H'], rfl, by decide, by decide, by decide⟩

/-- Keywords and signs are spelled as they are written. -/
theorem Token.Fixed.spells {t : Token} (h : t.Fixed) : Spells t.written [t] := by
  cases t with
  | keyword k => exact spells_keyword k
  | comparison op => exact spells_comparison op
  | asterisk => exact spells_asterisk
  | leftParen => exact spells_empty.leftParen
  | rightParen => exact spells_rightParen
  | comma => exact spells_empty.comma
  | semicolon => exact spells_token rfl (by decide) (by decide) fun _ _ => rfl
  | _ => cases h

/-- Literals are spelled as they are written, floats aside. -/
theorem spells_literal {l : Literal} (hbounded : l.token.Bounded)
    (hfloat : ∀ x, l = .float x → Spells x.text [.float x]) : Spells l.token.written [l.token] := by
  cases l with
  | null => exact spells_keyword .NULL
  | boolean b => cases b <;> exact spells_keyword _
  | integer n => exact spells_integer hbounded
  | float x => exact hfloat x rfl
  | text t => exact spells_quoted t

theorem literal_mem_tokens {e : Expr} {l : Literal} (h : l ∈ e.literals) : l.token ∈ e.tokens := by
  induction e with
  | column name => cases h
  | literal l' =>
    cases List.mem_singleton.1 h
    exact .head _
  | binary op left right ihl ihr =>
    rw [Expr.tokens, List.mem_append, List.mem_cons]
    exact (List.mem_append.1 h).imp ihl fun h => .inr (ihr h)
  | not e ih => exact .tail _ (ih h)
  | nested e ih => exact .tail _ (List.mem_append_left _ (ih h))

/-- The text of an expression spells its tokens if its names are bare and its floats are spelled. -/
theorem spells_expr {e : Expr} (hbounded : ∀ t ∈ e.tokens, t.Bounded) (hnames : ∀ name ∈ e.names, Bare name)
    (hfloats : ∀ x, .float x ∈ e.literals → Spells x.text [.float x]) : ∀ t ∈ e.tokens, Spells t.written [t] :=
  Expr.forall_mem_tokens (fun _ ht => ht.spells) (fun name hm => spells_name (hnames name hm))
    fun _ hm => spells_literal (hbounded _ (literal_mem_tokens hm)) fun x hx => hfloats x (hx ▸ hm)

theorem Statement.Readable.expressions {s : Statement} (hs : s.Readable) : ∀ e ∈ s.expressions, e.Readable := by
  cases s with
  | select what table e? => simpa [Statement.expressions] using hs.2
  | insert table columns es => exact hs.2.2
  | update table as e? =>
    rw [Statement.expressions, List.forall_mem_append, List.forall_mem_map]
    exact ⟨hs.1.2, by simpa using hs.2⟩
  | delete table e? => simpa [Statement.expressions] using (show ∀ e ∈ e?, e.Readable from hs)
  | _ => exact List.forall_mem_nil _

/-- The text of a statement spells its tokens if its names are bare and its floats are spelled. -/
theorem spells_written {s : Statement} (hs : s.Readable) (hnames : ∀ name ∈ s.names, Bare name)
    (hexpressions : ∀ e ∈ s.expressions, (∀ name ∈ e.names, Bare name) ∧
      ∀ x, .float x ∈ e.literals → Spells x.text [.float x]) : Spells s.written s.tokens := by
  refine (layout_statement s).spells (Statement.forall_mem_tokens (fun _ ht => ht.spells) spells_kind
    (fun n hn => spells_integer (n := n) hn) hs (fun name hm => spells_name (hnames name hm)) fun e he => ?_)
  exact spells_expr (hs.expressions e he).2 (hexpressions e he).1 (hexpressions e he).2

/-- The text of a plain statement spells its tokens. -/
theorem spells_statement {s : Statement} (hs : s.Readable) (hplain : s.Plain) : Spells s.written s.tokens :=
  spells_written hs hplain.1 fun e he =>
    ⟨(hplain.2 e he).1, fun x hx => absurd hx ((hplain.2 e he).2 x)⟩

/-! ## Writing and reading -/

namespace Statement

theorem run_of_ofTokens {s : Statement} {ts : List Token} (h : ofTokens ts = .ok s) :
    ∃ rest, Reader.run Reader.statement ts = .ok (s, rest) := by
  rw [ofTokens_eq] at h
  obtain ⟨⟨s', rest⟩, hs, h⟩ := bind_eq_ok.1 h
  dsimp only at h
  generalize (if rest.head? = some .semicolon then rest.tail else rest) = last at h
  split at h
  · cases h
    exact ⟨rest, hs⟩
  · cases h

/-- A statement that was read is readable again. -/
theorem readable_of_ofText {text : String} {s : Statement} (h : ofText text = .ok s) : s.Readable := by
  obtain ⟨ts, hts, hs⟩ := bind_eq_ok.1 h
  obtain ⟨rest, hrun⟩ := run_of_ofTokens hs
  have hbounded : ∀ t ∈ ts, t.Bounded := ofText_eq_ok hts ▸ bounded_scan text.toList
  exact (Reader.gives_statement hbounded hrun).1

/-- Writing a plain statement and reading it gives the statement again. -/
theorem ofText_written {text : String} {s : Statement} (h : ofText text = .ok s) (hplain : s.Plain) :
    ofText s.written = .ok s := by
  have hreadable := readable_of_ofText h
  have hrun : Reader.run Reader.statement (s.tokens ++ []) = _ :=
    Reader.run_statement hreadable fun t ht => by cases ht
  rw [List.append_nil] at hrun
  rw [ofText, (spells_statement hreadable hplain).ofText]
  exact (ofTokens_eq s.tokens).trans (hrun ▸ rfl)

theorem ofText_written_nested :
    ofText "select id from t where not (a = 'it''s' or b < -1)" =
        .ok (.select (.columns ["id"]) "t" (some (.not (.nested (.binary .or
          (.binary (.comparison .eq) (.column "a") (.literal (.text "it's")))
          (.binary (.comparison .lt) (.column "b") (.literal (.integer (-1))))))))) ∧
      ofText "SELECT id FROM t WHERE NOT (a = 'it''s' OR b < -1)" =
        .ok (.select (.columns ["id"]) "t" (some (.not (.nested (.binary .or
          (.binary (.comparison .eq) (.column "a") (.literal (.text "it's")))
          (.binary (.comparison .lt) (.column "b") (.literal (.integer (-1))))))))) := by
  have hoption : (ofText "select id from t where not (a = 'it''s' or b < -1)").toOption =
      some (.select (.columns ["id"]) "t" (some (.not (.nested (.binary .or
        (.binary (.comparison .eq) (.column "a") (.literal (.text "it's")))
        (.binary (.comparison .lt) (.column "b") (.literal (.integer (-1))))))))) := by decide +kernel
  have htext := ok_of_toOption hoption
  have hid : Bare "id" := ⟨'i', ['d'], rfl, by decide, by decide, by decide⟩
  have ht : Bare "t" := ⟨'t', [], rfl, by decide, by decide, by decide⟩
  have ha : Bare "a" := ⟨'a', [], rfl, by decide, by decide, by decide⟩
  have hb : Bare "b" := ⟨'b', [], rfl, by decide, by decide, by decide⟩
  refine ⟨htext, ofText_written htext ⟨?_, ?_⟩⟩
  · simp [names, Selection.names, hid, ht]
  · simp [expressions, Expr.Plain, Expr.names, Expr.literals, ha, hb]

end Statement

end Rowbase.Language
