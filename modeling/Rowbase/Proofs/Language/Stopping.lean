import Rowbase.Proofs.Language.Statement

/-! # Reading stops before a semicolon

No semicolon stands inside of a statement. What a reader makes of tokens without one is therefore not changed by a
semicolon and further tokens behind them: it reads the same, or fails in both cases. -/
namespace Rowbase.Language.Reader

variable {α β : Type} {r : Reader α} {f : α → Reader β} {t : Token} {ts rest us last : List Token} {a : α}

/-- Whether reading gives the same without a semicolon and further tokens behind as with them. What it leaves without
them has no semicolon. -/
inductive Same (us : List Token) : Except SyntaxError (α × List Token) → Except SyntaxError (α × List Token) → Prop
  | ok {a : α} {rest : List Token} (h : .semicolon ∉ rest) : Same us (.ok (a, rest)) (.ok (a, rest ++ .semicolon :: us))
  | error {e e' : SyntaxError} : Same us (.error e) (.error e')

/-- Whether a reader that is given some tokens does not look past them, if a semicolon follows. -/
def StopsAt (r : Reader α) (ts : List Token) : Prop :=
  .semicolon ∉ ts → ∀ us, Same us (r.run ts) (r.run (ts ++ .semicolon :: us))

/-- Whether a reader never looks past a semicolon. -/
def Stops (r : Reader α) : Prop := ∀ ts, StopsAt r ts

theorem Same.bind {x y : Except SyntaxError (α × List Token)}
    {k : α × List Token → Except SyntaxError (β × List Token)} (h : Same us x y)
    (hk : ∀ a rest, x = .ok (a, rest) → .semicolon ∉ rest → Same us (k (a, rest)) (k (a, rest ++ .semicolon :: us))) :
    Same us (x >>= k) (y >>= k) := by
  cases h with
  | ok h => exact hk _ _ rfl h
  | error => exact .error

/-- What is read with a semicolon and further tokens behind. -/
theorem Stops.run_append_eq_ok (h : Stops r) (hts : .semicolon ∉ ts) : r.run (ts ++ .semicolon :: us) = .ok (a, last) ↔
    ∃ rest, r.run ts = .ok (a, rest) ∧ .semicolon ∉ rest ∧ last = rest ++ .semicolon :: us := by
  have hsame := h ts hts us
  generalize r.run ts = x at hsame
  generalize r.run (ts ++ .semicolon :: us) = y at hsame
  cases hsame with
  | ok hrest =>
    constructor
    · intro he
      cases he
      exact ⟨_, rfl, hrest, rfl⟩
    · rintro ⟨rest, he, -, rfl⟩
      cases he
      rfl
  | error => simp

/-- Where no semicolon is given, none is left. -/
theorem Stops.not_mem (h : Stops r) (hts : .semicolon ∉ ts) (hrun : r.run ts = .ok (a, rest)) : .semicolon ∉ rest := by
  have hsame := h ts hts []
  rw [hrun] at hsame
  generalize r.run (ts ++ [Token.semicolon]) = y at hsame
  cases hsame with
  | ok hrest => exact hrest

/-! ## Readers that others are put together from -/

/-- A reader that takes some tokens and then reads as two others do, one after the other, stops where these do. -/
theorem StopsAt.of_run {r' : Reader β} (front : List Token)
    (hrun : ∀ ts, r'.run (front ++ ts) = r.run ts >>= fun p => (f p.1).run p.2) (h : StopsAt r ts)
    (hf : ∀ a (rest : List Token), rest.length ≤ ts.length → StopsAt (f a) rest) : StopsAt r' (front ++ ts) := by
  intro hts us
  rw [List.append_assoc, hrun, hrun]
  refine (h (fun hm => hts (List.mem_append_right _ hm)) us).bind fun a rest ha hrest => ?_
  exact hf a rest (length_of_run ha) hrest us

theorem StopsAt.bind (h : StopsAt r ts) (hf : ∀ a, Stops (f a)) : StopsAt (r >>= f) ts :=
  h.of_run [] (run_bind r f) fun a rest _ => hf a rest

theorem Stops.bind (h : Stops r) (hf : ∀ a, Stops (f a)) : Stops (r >>= f) := fun ts => (h ts).bind hf

theorem stops_pure (a : α) : Stops (pure a) := fun _ hts _ => .ok hts

theorem stops_error (e : SyntaxError) : Stops (fun _ => .error e : Reader α) := fun _ _ _ => .error

theorem stops_fail (expected : String) : Stops (fail expected : Reader α) := fun _ _ _ => .error

theorem StopsAt.map {g : α → β} (h : StopsAt r ts) : StopsAt (g <$> r) ts := h.bind fun a => stops_pure (g a)

theorem Stops.map {g : α → β} (h : Stops r) : Stops (g <$> r) := fun ts => (h ts).map

/-- A token that was seen can be skipped, because it is no semicolon. -/
theorem stopsAt_skip : StopsAt skip (t :: ts) := by
  intro hts us
  exact .ok fun hm => hts (.tail _ hm)

/-- A reader that goes by the next token stops if it accepts neither a semicolon nor the end. -/
theorem stops_peek {f : Option Token → Reader α} {expected : String} (hend : f none = fail expected)
    (hsemicolon : f (some .semicolon) = fail expected) (hnext : ∀ t ts, StopsAt (f (some t)) (t :: ts)) :
    Stops (peek >>= f) := by
  intro ts hts us
  rw [run_bind, run_bind, run_peek, run_peek, ok_bind, ok_bind]
  cases ts with
  | nil =>
    simp only [List.head?_nil, List.nil_append, List.head?_cons, hend, hsemicolon]
    exact .error
  | cons t ts => exact hnext t ts hts us

theorem stops_accept (ht : t ≠ .semicolon) : Stops (accept t) := by
  intro ts hts us
  cases ts with
  | nil =>
    rw [List.nil_append, run_accept_nil, run_accept_cons, if_neg ht.symm]
    exact .ok hts
  | cons t' ts =>
    rw [List.cons_append, run_accept_cons, run_accept_cons]
    split
    · exact .ok fun hm => hts (.tail _ hm)
    · exact .ok hts

theorem stops_expect (ht : t ≠ .semicolon) : Stops (expect t) := by
  unfold expect
  refine (stops_accept ht).bind fun found => ?_
  cases found with
  | true => exact stops_pure ()
  | false => exact stops_fail _

theorem stops_keyword (k : Keyword) : Stops (keyword k) := stops_expect (by simp)

theorem stops_name : Stops name := by
  unfold name
  refine stops_peek rfl rfl fun t ts => ?_
  cases t with
  | name s => exact stopsAt_skip.bind fun _ => stops_pure s
  | _ => exact stops_fail _ _

theorem stops_integer : Stops integer := by
  unfold integer
  refine stops_peek rfl rfl fun t ts => ?_
  cases t with
  | integer n => exact stopsAt_skip.bind fun _ => stops_pure n
  | _ => exact stops_fail _ _

theorem Stops.parenthesized (h : Stops r) : Stops (parenthesized r) := by
  unfold Reader.parenthesized
  exact (stops_expect (by simp)).bind fun _ => h.bind fun a => (stops_expect (by simp)).bind fun _ => stops_pure a

/-- A list goes on at a comma only. By induction on the tokens that are left. -/
theorem Stops.separated (h : Stops r) : Stops (separated r) := by
  intro ts hts us
  induction hn : ts.length using Nat.strongRecOn generalizing ts with
  | ind n ih =>
    rw [run_separated, run_separated]
    refine (h ts hts us).bind fun a rest ha hrest => ?_
    have hle : rest.length ≤ ts.length := length_of_run ha
    cases rest with
    | nil => exact .ok hrest
    | cons t rest =>
      cases t with
      | comma =>
        refine (ih rest.length (hn ▸ hle) rest (fun hm => hrest (.tail _ hm)) rfl).bind fun as last _ hlast => ?_
        exact .ok hlast
      | _ => exact .ok hrest

theorem stops_names : Stops names := stops_name.separated

/-! ## Expressions -/

/-- A semicolon behind some tokens does not make them start with another. -/
theorem append_semicolon_ne (ht : t ≠ .semicolon) (h : ∀ ts', ts ≠ t :: ts') (us ts' : List Token) :
    ts ++ .semicolon :: us ≠ t :: ts' := by
  cases ts with
  | nil =>
    intro he
    cases he
    exact ht rfl
  | cons t' ts =>
    intro he
    cases he
    exact h ts rfl

theorem stopsAt_not (hrest : StopsAt negation ts) : StopsAt negation (.keyword .NOT :: ts) := by
  intro hts us
  rw [List.cons_append, run_negation_not, run_negation_not]
  exact (hrest (fun hm => hts (.tail _ hm)) us).bind fun e rest _ hrest => .ok hrest

theorem stopsAt_comparison (hfirst : StopsAt primary ts)
    (hsecond : ∀ rest : List Token, rest.length ≤ ts.length →
      ∀ rest' : List Token, rest'.length < rest.length → StopsAt primary rest') : StopsAt comparison ts := by
  intro hts us
  rw [run_comparison, run_comparison]
  refine (hfirst hts us).bind fun left rest hleft hrest => ?_
  cases rest with
  | nil => exact .ok hrest
  | cons t rest =>
    cases t with
    | comparison op =>
      have hstops := hsecond _ (length_of_run hleft) rest (Nat.lt_succ_self _)
      exact (hstops (fun hm => hrest (.tail _ hm)) us).bind fun right last _ hlast => .ok hlast
    | _ => exact .ok hrest

theorem stopsAt_nested (hinner : StopsAt alternatives ts) : StopsAt primary (.leftParen :: ts) := by
  intro hts us
  rw [List.cons_append, run_primary_nested, run_primary_nested]
  refine (hinner (fun hm => hts (.tail _ hm)) us).bind fun e rest _ hrest => ?_
  exact (stops_expect (by simp) rest hrest us).bind fun _ last _ hlast => .ok hlast

/-- Expressions end before a semicolon. By induction on the calls of the readers: a branch of one either reads as others
do, behind a token or not, or what it goes by is no semicolon. -/
theorem stops_expr : Stops expr := by
  intro ts
  refine (alternatives.mutual_induct (StopsAt alternatives) (fun left => StopsAt (moreAlternatives left))
    (StopsAt conjunction) (fun left => StopsAt (moreConjuncts left)) (StopsAt negation) (StopsAt comparison)
    (StopsAt primary) ?_ ?_ ?_ ?_ ?_ ?_ ?_ ?_ ?_ ?_ ?_ ?_ ?_ ?_).1 ts
  case refine_1 => exact fun ts hfirst hmore => hfirst.of_run [] run_alternatives hmore
  case refine_2 =>
    exact fun left ts hnext hmore => hnext.of_run (f := fun right => moreAlternatives (.binary .or left right))
      [.keyword .OR] (run_moreAlternatives_or left) hmore
  case refine_3 =>
    intro left ts hend hts us
    rw [run_moreAlternatives left hend, run_moreAlternatives left (append_semicolon_ne (by simp) hend us)]
    exact .ok hts
  case refine_4 => exact fun ts hfirst hmore => hfirst.of_run [] run_conjunction hmore
  case refine_5 =>
    exact fun left ts hnext hmore => hnext.of_run (f := fun right => moreConjuncts (.binary .and left right))
      [.keyword .AND] (run_moreConjuncts_and left) hmore
  case refine_6 =>
    intro left ts hend hts us
    rw [run_moreConjuncts left hend, run_moreConjuncts left (append_semicolon_ne (by simp) hend us)]
    exact .ok hts
  case refine_7 => exact fun ts => stopsAt_not
  case refine_8 =>
    intro ts hnot hcomparison hts us
    rw [run_negation hnot, run_negation (append_semicolon_ne (by simp) hnot us)]
    exact hcomparison hts us
  case refine_9 => exact fun ts => stopsAt_comparison
  case refine_10 =>
    intro s ts hts us
    rw [List.cons_append, run_primary_name, run_primary_name]
    exact .ok fun hm => hts (.tail _ hm)
  case refine_11 => exact fun ts => stopsAt_nested
  case refine_12 =>
    intro t ts _ _ l hl hts us
    cases token_of_literal? hl
    rw [List.cons_append, run_primary_literal, run_primary_literal]
    exact .ok fun hm => hts (.tail _ hm)
  case refine_13 =>
    intro t ts hname hparen hliteral hts us
    rw [List.cons_append, run_primary_other hname hparen hliteral, run_primary_other hname hparen hliteral]
    exact .error
  case refine_14 =>
    intro hts us
    rw [List.nil_append, run_primary_nil, run_primary_other (t := .semicolon) (by simp) (by simp) rfl]
    exact .error

/-! ## Statements -/

theorem stops_condition : Stops condition := by
  unfold condition
  refine (stops_accept (by simp)).bind fun found => ?_
  cases found with
  | true => exact stops_expr.map
  | false => exact stops_pure none

theorem stops_selection : Stops selection := by
  unfold selection
  refine (stops_accept (by simp)).bind fun found => ?_
  cases found with
  | true => exact stops_pure Selection.all
  | false => exact stops_names.map

theorem stops_select : Stops select := by
  unfold select
  refine (stops_keyword _).bind fun _ => stops_selection.bind fun what => (stops_keyword _).bind fun _ => ?_
  exact stops_name.bind fun table => stops_condition.bind fun condition => stops_pure _

theorem stops_insert : Stops insert := by
  unfold insert
  refine (stops_keyword _).bind fun _ => (stops_keyword _).bind fun _ => stops_name.bind fun table => ?_
  have hvalues : ∀ columns : Option (List String), Stops (do
      keyword .VALUES
      let values ← parenthesized (separated expr)
      pure (Statement.insert table columns values)) := fun columns =>
    (stops_keyword _).bind fun _ => stops_expr.separated.parenthesized.bind fun values => stops_pure _
  refine (stops_accept (by simp)).bind fun found => ?_
  cases found with
  | true => exact stops_names.bind fun names => (stops_expect (by simp)).bind fun _ => (stops_pure _).bind hvalues
  | false => exact (stops_pure _).bind hvalues

theorem stops_assignment : Stops assignment := by
  unfold assignment
  exact stops_name.bind fun column => (stops_expect (by simp)).bind fun _ => stops_expr.bind fun value => stops_pure _

theorem stops_update : Stops update := by
  unfold update
  refine (stops_keyword _).bind fun _ => stops_name.bind fun table => (stops_keyword _).bind fun _ => ?_
  exact stops_assignment.separated.bind fun assignments => stops_condition.bind fun condition => stops_pure _

theorem stops_delete : Stops delete := by
  unfold delete
  refine (stops_keyword _).bind fun _ => (stops_keyword _).bind fun _ => stops_name.bind fun table => ?_
  exact stops_condition.bind fun condition => stops_pure _

theorem stops_size : Stops size := by
  unfold size
  refine stops_integer.parenthesized.bind fun n => ?_
  cases n with
  | ofNat n => exact stops_pure n
  | negSucc n => exact stops_error _

theorem stops_declaredType : Stops declaredType := by
  unfold declaredType
  refine stops_peek rfl rfl fun t ts => ?_
  cases t with
  | keyword k =>
    cases k with
    | VARCHAR | CHAR => exact stopsAt_skip.bind fun _ => stops_size.map
    | INT | INTEGER | BIGINT | SMALLINT | FLOAT | DOUBLE | TEXT | BOOLEAN | BOOL | DATE | TIMESTAMP =>
      exact stopsAt_skip.bind fun _ => stops_pure _
    | _ => exact stops_fail _ _
  | _ => exact stops_fail _ _

theorem stops_nullability (notNull : Bool) : Stops (nullability notNull) := by
  intro ts hts us
  induction notNull, ts using nullability.induct with
  | case1 notNull ts ih =>
    rw [List.cons_append, List.cons_append, run_nullability_notNull, run_nullability_notNull]
    exact ih fun hm => hts (.tail _ (.tail _ hm))
  | case2 notNull ts hnull =>
    rw [List.cons_append, run_nullability_not notNull hnull,
      run_nullability_not notNull (append_semicolon_ne (by simp) hnull us)]
    exact .error
  | case3 notNull ts ih =>
    rw [List.cons_append, run_nullability_null, run_nullability_null]
    exact ih fun hm => hts (.tail _ hm)
  | case4 notNull ts hnotNull hnot hnull =>
    rw [run_nullability notNull hnot hnull, run_nullability notNull (append_semicolon_ne (by simp) hnot us)
      (append_semicolon_ne (by simp) hnull us)]
    exact .ok hts

theorem stops_columnDeclaration : Stops columnDeclaration := by
  unfold columnDeclaration
  exact stops_name.bind fun name => stops_declaredType.bind fun type => (stops_nullability false).bind fun notNull =>
    stops_pure _

theorem stops_createTable : Stops createTable := by
  unfold createTable
  refine (stops_keyword _).bind fun _ => ?_
  have hcolumns : ∀ ifNotExists : Bool, Stops (do
      let table ← name
      let columns ← parenthesized (separated columnDeclaration)
      pure (Statement.createTable table columns ifNotExists)) := fun ifNotExists =>
    stops_name.bind fun table => stops_columnDeclaration.separated.parenthesized.bind fun columns => stops_pure _
  refine (stops_accept (by simp)).bind fun found => ?_
  cases found with
  | true => exact (stops_keyword _).bind fun _ => (stops_keyword _).bind fun _ => (stops_pure _).bind hcolumns
  | false => exact (stops_pure _).bind hcolumns

theorem stops_indexKind : Stops indexKind := by
  unfold indexKind
  refine (stops_accept (by simp)).bind fun found => ?_
  cases found with
  | true =>
    refine stops_name.bind fun word => ?_
    cases IndexKind.ofName? word with
    | some kind => exact stops_pure kind
    | none => exact stops_error _
  | false => exact stops_pure _

theorem stops_createIndex : Stops createIndex := by
  unfold createIndex
  refine (stops_accept (by simp)).bind fun unique => (stops_keyword _).bind fun _ => stops_name.bind fun index => ?_
  refine (stops_keyword _).bind fun _ => stops_name.bind fun table => stops_indexKind.bind fun kind => ?_
  cases unique && !kind.isUnique with
  | true => exact stops_error _
  | false => exact stops_names.parenthesized.bind fun columns => stops_pure _

theorem stops_create : Stops create := by
  unfold create
  refine (stops_keyword _).bind fun _ => stops_peek rfl rfl fun t ts => ?_
  cases t with
  | keyword k =>
    cases k with
    | TABLE => exact stops_createTable _
    | INDEX | UNIQUE => exact stops_createIndex _
    | _ => exact stops_fail _ _
  | _ => exact stops_fail _ _

theorem stops_dropIndex : Stops dropIndex := by
  unfold dropIndex
  refine (stops_keyword _).bind fun _ => stops_name.bind fun index => (stops_accept (by simp)).bind fun found => ?_
  cases found with
  | true => exact stops_name.bind fun table => stops_pure _
  | false =>
    refine (stops_accept (by simp)).bind fun found => ?_
    cases found with
    | true => exact stops_name.bind fun table => stops_pure _
    | false => exact stops_fail _

theorem stops_drop : Stops drop := by
  unfold drop
  refine (stops_keyword _).bind fun _ => stops_peek rfl rfl fun t ts => ?_
  cases t with
  | keyword k =>
    cases k with
    | TABLE => exact stopsAt_skip.bind fun _ => stops_name.map
    | INDEX => exact stops_dropIndex _
    | _ => exact stops_fail _ _
  | _ => exact stops_fail _ _

theorem stops_showing : Stops showing := by
  unfold showing
  refine (stops_keyword _).bind fun _ => stops_peek rfl rfl fun t ts => ?_
  cases t with
  | keyword k =>
    cases k with
    | TABLES => exact stopsAt_skip.bind fun _ => stops_pure _
    | COLUMNS =>
      refine stopsAt_skip.bind fun _ => (stops_accept (by simp)).bind fun found => ?_
      cases found with
      | true => exact stops_name.map
      | false => exact stops_pure _
    | INDEX => exact stopsAt_skip.bind fun _ => (stops_keyword _).bind fun _ => stops_name.map
    | _ => exact stops_fail _ _
  | _ => exact stops_fail _ _

/-- What a statement is read as does not depend on what stands behind the next semicolon. -/
theorem stops_statement : Stops statement := by
  unfold statement
  refine stops_peek rfl rfl fun t ts => ?_
  cases t with
  | keyword k =>
    cases k with
    | SELECT => exact stops_select _
    | INSERT => exact stops_insert _
    | UPDATE => exact stops_update _
    | DELETE => exact stops_delete _
    | CREATE => exact stops_create _
    | DROP => exact stops_drop _
    | SHOW => exact stops_showing _
    | _ => exact stops_fail _ _
  | _ => exact stops_fail _ _

end Rowbase.Language.Reader
