import Rowbase.Proofs.Language.Reader

/-! # The grammar of expressions

Reading makes just the canonical expressions: alternatives and conjunctions that lean to the left, negations,
comparisons of at most two primaries, and columns, literals or whole expressions in parentheses as primaries. Each
takes just its own tokens, and is made again of these tokens wherever nothing follows that would go on with it. -/
namespace Rowbase.Language

/-! ## Tokens -/

/-- The token that a literal is. -/
def Literal.token : Literal → Token
  | null => .keyword .NULL
  | boolean b => .keyword (if b then .TRUE else .FALSE)
  | integer n => .integer n
  | float x => .float x
  | text s => .text s

def Operator.token : Operator → Token
  | comparison op => .comparison op
  | and => .keyword .AND
  | or => .keyword .OR

/-- The tokens of an expression. -/
def Expr.tokens : Expr → List Token
  | column name => [.name name]
  | literal l => [l.token]
  | binary op left right => left.tokens ++ op.token :: right.tokens
  | not e => .keyword .NOT :: e.tokens
  | nested e => .leftParen :: (e.tokens ++ [.rightParen])

/-! ## Canonical expressions -/

/-- The levels of expressions, from the tightest to the loosest. -/
inductive Level where
  | primary
  | comparison
  | negation
  | conjunction
  | alternatives

/-- Whether an expression is one of a level. -/
inductive Expr.Canonical : Level → Expr → Prop
  | column (name : String) : Canonical .primary (.column name)
  | literal (l : Literal) : Canonical .primary (.literal l)
  | nested {e : Expr} (h : Canonical .alternatives e) : Canonical .primary (.nested e)
  | ofPrimary {e : Expr} (h : Canonical .primary e) : Canonical .comparison e
  | comparison {left right : Expr} (op : Comparison) (hl : Canonical .primary left)
      (hr : Canonical .primary right) : Canonical .comparison (.binary (.comparison op) left right)
  | ofComparison {e : Expr} (h : Canonical .comparison e) : Canonical .negation e
  | not {e : Expr} (h : Canonical .negation e) : Canonical .negation (.not e)
  | ofNegation {e : Expr} (h : Canonical .negation e) : Canonical .conjunction e
  | and {left right : Expr} (hl : Canonical .conjunction left) (hr : Canonical .negation right) :
      Canonical .conjunction (.binary .and left right)
  | ofConjunction {e : Expr} (h : Canonical .conjunction e) : Canonical .alternatives e
  | or {left right : Expr} (hl : Canonical .alternatives left) (hr : Canonical .conjunction right) :
      Canonical .alternatives (.binary .or left right)

/-- Whether these tokens do not go on with an expression of a level. -/
def Level.Ends : Level → List Token → Prop
  | primary, _ => True
  | comparison, ts | negation, ts => ∀ op ts', ts ≠ .comparison op :: ts'
  | conjunction, ts => (∀ op ts', ts ≠ .comparison op :: ts') ∧ ∀ ts', ts ≠ .keyword .AND :: ts'
  | alternatives, ts =>
    ((∀ op ts', ts ≠ .comparison op :: ts') ∧ ∀ ts', ts ≠ .keyword .AND :: ts') ∧ ∀ ts', ts ≠ .keyword .OR :: ts'

namespace Reader

variable {ts rest : List Token} {e left : Expr}

/-! ## What each level does -/

theorem token_of_literal? {t : Token} {l : Literal} (h : literal? t = some l) : t = l.token := by
  cases t with
  | keyword k => cases k <;> cases h <;> rfl
  | integer n | float x | text s =>
    cases h
    rfl
  | _ => cases h

theorem run_alternatives (ts : List Token) : run alternatives ts =
    run conjunction ts >>= fun p => run (moreAlternatives p.1) p.2 := by
  change Except.map _ (alternatives ts) = Except.map _ (conjunction ts) >>= _
  rw [alternatives]
  cases conjunction ts with
  | error e => rfl
  | ok p =>
    change Except.map _ (moreAlternatives p.1 p.2.1 >>= _) = Except.map _ (moreAlternatives p.1 p.2.1)
    cases moreAlternatives p.1 p.2.1 <;> rfl

theorem run_conjunction (ts : List Token) : run conjunction ts =
    run negation ts >>= fun p => run (moreConjuncts p.1) p.2 := by
  change Except.map _ (conjunction ts) = Except.map _ (negation ts) >>= _
  rw [conjunction]
  cases negation ts with
  | error e => rfl
  | ok p =>
    change Except.map _ (moreConjuncts p.1 p.2.1 >>= _) = Except.map _ (moreConjuncts p.1 p.2.1)
    cases moreConjuncts p.1 p.2.1 <;> rfl

theorem run_moreAlternatives_or (left : Expr) (ts : List Token) :
    run (moreAlternatives left) (.keyword .OR :: ts) =
      run conjunction ts >>= fun p => run (moreAlternatives (.binary .or left p.1)) p.2 := by
  change Except.map _ (moreAlternatives left (.keyword .OR :: ts)) = Except.map _ (conjunction ts) >>= _
  rw [moreAlternatives]
  cases conjunction ts with
  | error e => rfl
  | ok p =>
    change Except.map _ (moreAlternatives (.binary .or left p.1) p.2.1 >>= _) =
      Except.map _ (moreAlternatives (.binary .or left p.1) p.2.1)
    cases moreAlternatives (.binary .or left p.1) p.2.1 <;> rfl

theorem run_moreConjuncts_and (left : Expr) (ts : List Token) :
    run (moreConjuncts left) (.keyword .AND :: ts) =
      run negation ts >>= fun p => run (moreConjuncts (.binary .and left p.1)) p.2 := by
  change Except.map _ (moreConjuncts left (.keyword .AND :: ts)) = Except.map _ (negation ts) >>= _
  rw [moreConjuncts]
  cases negation ts with
  | error e => rfl
  | ok p =>
    change Except.map _ (moreConjuncts (.binary .and left p.1) p.2.1 >>= _) =
      Except.map _ (moreConjuncts (.binary .and left p.1) p.2.1)
    cases moreConjuncts (.binary .and left p.1) p.2.1 <;> rfl

theorem run_moreAlternatives (left : Expr) (h : ∀ ts', ts ≠ .keyword .OR :: ts') :
    run (moreAlternatives left) ts = .ok (left, ts) := by
  change Except.map _ (moreAlternatives left ts) = _
  rw [moreAlternatives]
  · rfl
  · exact h

theorem run_moreConjuncts (left : Expr) (h : ∀ ts', ts ≠ .keyword .AND :: ts') :
    run (moreConjuncts left) ts = .ok (left, ts) := by
  change Except.map _ (moreConjuncts left ts) = _
  rw [moreConjuncts]
  · rfl
  · exact h

theorem run_negation_not (ts : List Token) : run negation (.keyword .NOT :: ts) =
    run negation ts >>= fun p => .ok (.not p.1, p.2) := by
  change Except.map _ (negation (.keyword .NOT :: ts)) = Except.map _ (negation ts) >>= _
  rw [negation]
  cases negation ts <;> rfl

theorem run_negation (h : ∀ ts', ts ≠ .keyword .NOT :: ts') : run negation ts = run comparison ts := by
  change Except.map _ (negation ts) = Except.map _ (comparison ts)
  rw [negation]
  exact h

theorem run_comparison (ts : List Token) : run comparison ts = run primary ts >>= fun p =>
    match p.2 with
    | .comparison op :: rest => run primary rest >>= fun q => .ok (.binary (.comparison op) p.1 q.1, q.2)
    | rest => .ok (p.1, rest) := by
  change Except.map _ (comparison ts) = Except.map _ (primary ts) >>= _
  rw [comparison]
  cases primary ts with
  | error e => rfl
  | ok p =>
    obtain ⟨e, rest, h⟩ := p
    cases rest with
    | nil => rfl
    | cons t rest =>
      cases t with
      | comparison op =>
        change Except.map _ (primary rest >>= _) = Except.map _ (primary rest) >>= _
        cases primary rest <;> rfl
      | _ => rfl

theorem run_primary_name (s : String) (ts : List Token) :
    run primary (.name s :: ts) = .ok (.column s, ts) := by
  change Except.map _ (primary (.name s :: ts)) = _
  rw [primary]
  rfl

theorem run_primary_nested (ts : List Token) : run primary (.leftParen :: ts) =
    run alternatives ts >>= fun p => run (expect .rightParen) p.2 >>= fun q => .ok (.nested p.1, q.2) := by
  change Except.map _ (primary (.leftParen :: ts)) = Except.map _ (alternatives ts) >>= _
  rw [primary]
  cases alternatives ts with
  | error e => rfl
  | ok p =>
    change Except.map _ (expect .rightParen p.2.1 >>= _) = Except.map _ (expect .rightParen p.2.1) >>= _
    cases expect .rightParen p.2.1 <;> rfl

theorem run_primary_literal (l : Literal) (ts : List Token) :
    run primary (l.token :: ts) = .ok (.literal l, ts) := by
  change Except.map _ (primary (l.token :: ts)) = _
  cases l with
  | boolean b =>
    cases b <;>
    · rw [Literal.token, primary]
      · rfl
      · exact fun s h => by cases h
      · exact fun h => by cases h
  | _ =>
    rw [Literal.token, primary]
    · rfl
    · exact fun s h => by cases h
    · exact fun h => by cases h

theorem run_primary_nil : run primary [] = .error (unexpected "expression" []) := by
  change Except.map _ (primary []) = _
  rw [primary]
  rfl

/-- No expression starts with any other token. -/
theorem run_primary_other {t : Token} (hname : ∀ s, t ≠ .name s) (hparen : t ≠ .leftParen) (hliteral : literal? t = none)
    (ts : List Token) : run primary (t :: ts) = .error (unexpected "expression" (t :: ts)) := by
  change Except.map _ (primary (t :: ts)) = _
  rw [primary, hliteral]
  · rfl
  · exact hname
  · exact hparen

/-! ## Only canonical expressions are made -/

/-- Whether a reader takes from these tokens just those of an expression of a level. -/
def Makes (r : Reader Expr) (l : Level) (ts : List Token) : Prop :=
  ∀ ⦃e rest⦄, run r ts = .ok (e, rest) → e.Canonical l ∧ ts = e.tokens ++ rest

/-- Whether a reader goes on with an expression of a level to one that takes these tokens too. -/
def GoesOn (r : Expr → Reader Expr) (l : Level) (left : Expr) (ts : List Token) : Prop :=
  left.Canonical l → ∀ ⦃e rest⦄, run (r left) ts = .ok (e, rest) →
    e.Canonical l ∧ left.tokens ++ ts = e.tokens ++ rest

theorem makes_alternatives (hfirst : Makes conjunction .conjunction ts)
    (hmore : ∀ left rest, rest.length ≤ ts.length → GoesOn moreAlternatives .alternatives left rest) :
    Makes alternatives .alternatives ts := by
  intro e rest h
  rw [run_alternatives] at h
  obtain ⟨⟨left, mid⟩, hleft, hlast⟩ := bind_eq_ok.1 h
  obtain ⟨hcanonical, rfl⟩ := hfirst hleft
  exact hmore left mid (length_of_run hleft) hcanonical.ofConjunction hlast

theorem makes_conjunction (hfirst : Makes negation .negation ts)
    (hmore : ∀ left rest, rest.length ≤ ts.length → GoesOn moreConjuncts .conjunction left rest) :
    Makes conjunction .conjunction ts := by
  intro e rest h
  rw [run_conjunction] at h
  obtain ⟨⟨left, mid⟩, hleft, hlast⟩ := bind_eq_ok.1 h
  obtain ⟨hcanonical, rfl⟩ := hfirst hleft
  exact hmore left mid (length_of_run hleft) hcanonical.ofNegation hlast

theorem goesOn_or (hnext : Makes conjunction .conjunction ts)
    (hmore : ∀ right rest, rest.length ≤ ts.length →
      GoesOn moreAlternatives .alternatives (.binary .or left right) rest) :
    GoesOn moreAlternatives .alternatives left (.keyword .OR :: ts) := by
  intro hleft e rest h
  rw [run_moreAlternatives_or] at h
  obtain ⟨⟨right, mid⟩, hright, hlast⟩ := bind_eq_ok.1 h
  obtain ⟨hcanonical, rfl⟩ := hnext hright
  obtain ⟨he, htokens⟩ := hmore right mid (length_of_run hright) (.or hleft hcanonical) hlast
  exact ⟨he, by simpa [Expr.tokens, Operator.token] using htokens⟩

theorem goesOn_and (hnext : Makes negation .negation ts)
    (hmore : ∀ right rest, rest.length ≤ ts.length →
      GoesOn moreConjuncts .conjunction (.binary .and left right) rest) :
    GoesOn moreConjuncts .conjunction left (.keyword .AND :: ts) := by
  intro hleft e rest h
  rw [run_moreConjuncts_and] at h
  obtain ⟨⟨right, mid⟩, hright, hlast⟩ := bind_eq_ok.1 h
  obtain ⟨hcanonical, rfl⟩ := hnext hright
  obtain ⟨he, htokens⟩ := hmore right mid (length_of_run hright) (.and hleft hcanonical) hlast
  exact ⟨he, by simpa [Expr.tokens, Operator.token] using htokens⟩

theorem makes_not (hrest : Makes negation .negation ts) : Makes negation .negation (.keyword .NOT :: ts) := by
  intro e rest h
  rw [run_negation_not] at h
  obtain ⟨⟨inner, mid⟩, hinner, h⟩ := bind_eq_ok.1 h
  cases h
  obtain ⟨hcanonical, rfl⟩ := hrest hinner
  exact ⟨.not hcanonical, rfl⟩

theorem makes_comparison (hfirst : Makes primary .primary ts)
    (hsecond : ∀ rest : List Token, rest.length ≤ ts.length →
      ∀ rest' : List Token, rest'.length < rest.length → Makes primary .primary rest') : Makes comparison .comparison ts := by
  intro e rest h
  rw [run_comparison] at h
  obtain ⟨⟨left, mid⟩, hleft, h⟩ := bind_eq_ok.1 h
  obtain ⟨hcanonical, htokens⟩ := hfirst hleft
  have hsingle : (.ok (left, mid) : Except SyntaxError (Expr × List Token)) = .ok (e, rest) →
      e.Canonical .comparison ∧ ts = e.tokens ++ rest := by
    intro he
    cases he
    exact ⟨hcanonical.ofPrimary, htokens⟩
  cases mid with
  | nil => exact hsingle h
  | cons t mid =>
    cases t with
    | comparison op =>
      obtain ⟨⟨right, last⟩, hright, h⟩ := bind_eq_ok.1 h
      cases h
      obtain ⟨hr, rfl⟩ := hsecond _ (length_of_run hleft) mid (Nat.lt_succ_self _) hright
      exact ⟨.comparison op hcanonical hr, by simp [htokens, Expr.tokens, Operator.token]⟩
    | _ => exact hsingle h

theorem makes_nested (hinner : Makes alternatives .alternatives ts) :
    Makes primary .primary (.leftParen :: ts) := by
  intro e rest h
  rw [run_primary_nested] at h
  obtain ⟨⟨inner, mid⟩, hinside, h⟩ := bind_eq_ok.1 h
  obtain ⟨⟨u, last⟩, hclose, h⟩ := bind_eq_ok.1 h
  cases h
  cases run_expect_eq_ok.1 hclose
  obtain ⟨hcanonical, rfl⟩ := hinner hinside
  exact ⟨.nested hcanonical, by simp [Expr.tokens]⟩

/-- Every expression that is read is canonical, and takes just its own tokens. By induction on the calls of the
readers; each of their branches is one of the steps above. -/
theorem makes_expr (ts : List Token) : Makes expr .alternatives ts := by
  refine (alternatives.mutual_induct (Makes alternatives .alternatives) (GoesOn moreAlternatives .alternatives)
    (Makes conjunction .conjunction) (GoesOn moreConjuncts .conjunction) (Makes negation .negation)
    (Makes comparison .comparison) (Makes primary .primary) ?_ ?_ ?_ ?_ ?_ ?_ ?_ ?_ ?_ ?_ ?_ ?_ ?_ ?_).1 ts
  case refine_1 => exact fun ts => makes_alternatives
  case refine_2 => exact fun left ts => goesOn_or
  case refine_3 =>
    intro left ts hend hleft e rest h
    cases (run_moreAlternatives left hend).symm.trans h
    exact ⟨hleft, rfl⟩
  case refine_4 => exact fun ts => makes_conjunction
  case refine_5 => exact fun left ts => goesOn_and
  case refine_6 =>
    intro left ts hend hleft e rest h
    cases (run_moreConjuncts left hend).symm.trans h
    exact ⟨hleft, rfl⟩
  case refine_7 => exact fun ts => makes_not
  case refine_8 =>
    intro ts hnot hcomparison e rest h
    obtain ⟨he, htokens⟩ := hcomparison (run_negation hnot ▸ h)
    exact ⟨he.ofComparison, htokens⟩
  case refine_9 => exact fun ts => makes_comparison
  case refine_10 =>
    intro s ts e rest h
    cases (run_primary_name s ts).symm.trans h
    exact ⟨.column s, rfl⟩
  case refine_11 => exact fun ts => makes_nested
  case refine_12 =>
    intro t ts _ _ l hl e rest h
    cases token_of_literal? hl
    cases (run_primary_literal l ts).symm.trans h
    exact ⟨.literal l, rfl⟩
  case refine_13 =>
    intro t ts hname hparen hliteral e rest h
    rw [run_primary_other hname hparen hliteral] at h
    cases h
  case refine_14 =>
    intro e rest h
    rw [run_primary_nil] at h
    cases h

/-! ## Canonical expressions are made of their tokens -/

/-- What an expression of a level is read as: it is made of its tokens, and at the two levels of chains reading goes
on behind it. -/
def ReadsBack (e : Expr) : Level → Prop
  | .primary => ∀ rest, run primary (e.tokens ++ rest) = .ok (e, rest)
  | .comparison => ∀ rest, Level.comparison.Ends rest → run comparison (e.tokens ++ rest) = .ok (e, rest)
  | .negation => ∀ rest, Level.negation.Ends rest → run negation (e.tokens ++ rest) = .ok (e, rest)
  | .conjunction => ∀ rest, Level.negation.Ends rest →
    run conjunction (e.tokens ++ rest) = run (moreConjuncts e) rest
  | .alternatives => ∀ rest, Level.conjunction.Ends rest →
    run alternatives (e.tokens ++ rest) = run (moreAlternatives e) rest

theorem tokens_ne_not {l : Level} (h : e.Canonical l) (hl : l = .primary ∨ l = .comparison) (rest ts : List Token) :
    e.tokens ++ rest ≠ .keyword .NOT :: ts := by
  induction h generalizing rest with
  | column name => simp [Expr.tokens]
  | literal l => cases l <;> simp [Expr.tokens, Literal.token] ; split <;> simp
  | nested h ih => simp [Expr.tokens]
  | ofPrimary h ih => exact ih (.inl rfl) rest
  | comparison op hl hr ihl ihr =>
    rw [Expr.tokens, List.append_assoc]
    exact ihl (.inl rfl) _
  | _ => cases hl <;> contradiction

/-- Canonical expressions are made again. By induction on the levels: in each case the tokens after a part are such
that the part ends there. -/
theorem readsBack {l : Level} (h : e.Canonical l) : ReadsBack e l := by
  induction h with
  | column name => exact run_primary_name name
  | literal l => exact run_primary_literal l
  | nested h ih =>
    intro rest
    rw [Expr.tokens, List.cons_append, List.append_assoc, run_primary_nested, ih, run_moreAlternatives]
    · simp
    · simp
    · simp [Level.Ends]
  | ofPrimary h ih =>
    intro rest hrest
    rw [run_comparison, ih, ok_bind]
    cases rest with
    | nil => rfl
    | cons t rest =>
      cases t with
      | comparison op => exact absurd rfl (hrest op rest)
      | _ => rfl
  | comparison op hl hr ihl ihr =>
    intro rest hrest
    rw [Expr.tokens, List.append_assoc, run_comparison, ihl, ok_bind, Operator.token, List.cons_append]
    dsimp only
    rw [ihr, ok_bind]
  | ofComparison h ih =>
    intro rest hrest
    rw [run_negation (tokens_ne_not h (.inr rfl) rest)]
    exact ih rest hrest
  | not h ih =>
    intro rest hrest
    rw [Expr.tokens, List.cons_append, run_negation_not, ih rest hrest, ok_bind]
  | ofNegation h ih =>
    intro rest hrest
    rw [run_conjunction, ih rest hrest, ok_bind]
  | and hl hr ihl ihr =>
    intro rest hrest
    rw [Expr.tokens, List.append_assoc, List.cons_append, ihl, Operator.token, run_moreConjuncts_and, ihr rest hrest,
      ok_bind]
    simp [Level.Ends, Operator.token]
  | ofConjunction h ih =>
    intro rest hrest
    rw [run_alternatives, ih rest hrest.1, run_moreConjuncts _ hrest.2, ok_bind]
  | or hl hr ihl ihr =>
    intro rest hrest
    rw [Expr.tokens, List.append_assoc, List.cons_append, ihl, Operator.token, run_moreAlternatives_or,
      ihr rest hrest.1, run_moreConjuncts _ hrest.2, ok_bind]
    simp [Level.Ends, Operator.token]

/-- A canonical expression is read from its tokens, wherever nothing follows that goes on with it. -/
theorem run_expr_tokens (h : e.Canonical .alternatives) (hrest : Level.alternatives.Ends rest) :
    run expr (e.tokens ++ rest) = .ok (e, rest) := by
  change run alternatives _ = _
  rw [readsBack h rest hrest.1, run_moreAlternatives e hrest.2]

/-- Reading takes the grammar of canonical expressions and no other: what is read is canonical and takes just its
tokens, and a canonical expression is read from its tokens up to any rest that does not go on with it. -/
theorem reads_just_canonical :
    (∀ ts e rest, run expr ts = .ok (e, rest) → e.Canonical .alternatives ∧ ts = e.tokens ++ rest) ∧
      ∀ e rest, e.Canonical .alternatives → Level.alternatives.Ends rest →
        run expr (e.tokens ++ rest) = .ok (e, rest) :=
  ⟨fun ts _ _ h => makes_expr ts h, fun _ _ => run_expr_tokens⟩

/-- The expression `NOT a = 1 AND (b OR c) OR d`. -/
def mixture : Expr :=
  .binary .or (.binary .and (.not (.binary (.comparison .eq) (.column "a") (.literal (.integer 1))))
    (.nested (.binary .or (.column "b") (.column "c")))) (.column "d")

theorem canonical_mixture : mixture.Canonical .alternatives := by
  have column (name : String) : Expr.Canonical .negation (.column name) := .ofComparison (.ofPrimary (.column name))
  have equation := Expr.Canonical.comparison .eq (.column "a") (.literal (.integer 1))
  have inner := Expr.Canonical.or (.ofConjunction (.ofNegation (column "b"))) (.ofNegation (column "c"))
  exact .or (.ofConjunction (.and (.ofNegation (.not (.ofComparison equation)))
    (.ofComparison (.ofPrimary (.nested inner))))) (.ofNegation (column "d"))

/-- The expression is read up to the semicolon behind it, which makes it canonical. -/
theorem reads_just_canonical_mixture :
    run expr (mixture.tokens ++ [.semicolon]) = .ok (mixture, [.semicolon]) ∧ mixture.Canonical .alternatives :=
  have hread := reads_just_canonical.2 mixture [.semicolon] canonical_mixture (by simp [Level.Ends])
  ⟨hread, (reads_just_canonical.1 _ _ _ hread).1⟩

theorem gives_expr (Q : Token → Prop) :
    Gives Q expr fun e => e.Canonical .alternatives ∧ ∀ t ∈ e.tokens, Q t := by
  intro ts e rest hts h
  obtain ⟨he, rfl⟩ := makes_expr ts h
  exact ⟨⟨he, fun t ht => hts t (List.mem_append_left _ ht)⟩, fun t ht => hts t (List.mem_append_right _ ht)⟩

end Reader

end Rowbase.Language
