import Mathlib.Data.List.Flatten
import Rowbase.Proofs.Language.Marks

/-! # Which tokens a statement is read from

A statement holds its texts, its floats and the names in it that are not bare as tokens of the text that it was read
from, and each of them once. -/
namespace Rowbase.Language

/-- A token by itself, if it is a text, a float or a name that is not bare. -/
def Token.loose : Token → List Token
  | .text s => [.text s]
  | .float x => [.float x]
  | .name s => if Bare s then [] else [.name s]
  | _ => []

/-- Such tokens among some tokens. -/
def loose (ts : List Token) : List Token := ts.flatMap Token.loose

@[simp] theorem loose_nil : loose [] = [] := rfl

@[simp] theorem loose_cons (t : Token) (ts : List Token) : loose (t :: ts) = t.loose ++ loose ts := List.flatMap_cons

@[simp] theorem loose_append (ts us : List Token) : loose (ts ++ us) = loose ts ++ loose us := List.flatMap_append

@[simp] theorem loose_keyword (k : Keyword) : (Token.keyword k).loose = [] := rfl
@[simp] theorem loose_integer (n : Int) : (Token.integer n).loose = [] := rfl
@[simp] theorem loose_comparison (op : Comparison) : (Token.comparison op).loose = [] := rfl
@[simp] theorem loose_asterisk : Token.asterisk.loose = [] := rfl
@[simp] theorem loose_leftParen : Token.leftParen.loose = [] := rfl
@[simp] theorem loose_rightParen : Token.rightParen.loose = [] := rfl
@[simp] theorem loose_comma : Token.comma.loose = [] := rfl

theorem bare_kind (kind : IndexKind) : Bare kind.name := by
  cases kind <;> decide

@[simp] theorem loose_kind (kind : IndexKind) : (Token.name kind.name).loose = [] := if_pos (bare_kind kind)

/-- Whether the loose ones among some tokens are among others, in the same order. -/
def Within (ts us : List Token) : Prop := (loose ts).Sublist (loose us)

variable {ts ts' us us' : List Token}

theorem Within.trans (h : Within ts us) (h' : Within us us') : Within ts us' := List.Sublist.trans h h'

theorem within_of_sublist (h : ts.Sublist us) : Within ts us := h.flatMap _

theorem Within.append (h : Within ts us) (h' : Within ts' us') : Within (ts ++ ts') (us ++ us') := by
  simpa [Within] using List.Sublist.append h h'

namespace Reader

variable {α β : Type} {r : Reader α} {k : α → Reader β} {f f' : α → List Token} {g : β → List Token}

/-- Whether what a reader makes has, with what it leaves, no other loose tokens than those before it and those that it
is given. -/
def Takes (us : List Token) (r : Reader α) (f : α → List Token) : Prop :=
  ∀ ⦃ts a rest⦄, r.run ts = .ok (a, rest) → Within (f a ++ rest) (us ++ ts)

theorem Takes.bind (h : Takes us r f) (hk : ∀ a, Takes (f a) (k a) g) : Takes us (r >>= k) g := by
  intro ts b rest hx
  rw [run_bind] at hx
  obtain ⟨⟨a, mid⟩, ha, hb⟩ := bind_eq_ok.1 hx
  exact (hk a hb).trans (h ha)

theorem takes_pure {a : α} (h : Within (f a) us) : Takes us (pure a) f := by
  intro ts a' rest hx
  cases hx
  exact h.append (List.Sublist.refl _)

theorem Takes.map {m : α → β} (h : Takes us r f) (hm : ∀ a, Within (g (m a)) (f a)) : Takes us (m <$> r) g :=
  h.bind fun a => takes_pure (hm a)

theorem takes_fail (expected : String) : Takes us (fail expected) f := by
  intro ts a rest hx
  cases hx

/-- What was read before a reader stays before what it reads. -/
theorem Takes.after (h : Takes [] r f) (us : List Token) : Takes us r fun a => us ++ f a := by
  intro ts a rest hx
  have hwithin := (List.Sublist.refl (loose us)).append (h hx)
  simpa [Within] using hwithin

/-- A reader that drops what it reads. -/
theorem takes_of_sublist (h : ∀ ⦃ts a rest⦄, r.run ts = .ok (a, rest) → rest.Sublist ts) : Takes us r fun _ => us :=
  fun _ _ _ hx => within_of_sublist ((List.Sublist.refl us).append (h hx))

theorem takes_peek : Takes us peek fun _ => us := by
  refine takes_of_sublist fun ts a rest hx => ?_
  cases hx
  exact List.Sublist.refl _

theorem takes_skip : Takes us skip fun _ => us := by
  refine takes_of_sublist fun ts a rest hx => ?_
  cases hx
  exact List.tail_sublist ts

theorem takes_accept (t : Token) : Takes us (accept t) fun _ => us := by
  refine takes_of_sublist fun ts a rest hx => ?_
  cases ts with
  | nil =>
    cases hx
    exact List.Sublist.refl _
  | cons t' ts =>
    rw [run_accept_cons] at hx
    split at hx
    · cases hx
      exact List.sublist_cons_self _ _
    · cases hx
      exact List.Sublist.refl _

theorem takes_expect (t : Token) : Takes us (expect t) fun _ => us := by
  refine takes_of_sublist fun ts a rest hx => ?_
  cases run_expect_eq_ok.1 hx
  exact List.sublist_cons_self _ _

theorem takes_name : Takes us name fun s => us ++ [.name s] := by
  intro ts s rest hx
  cases run_name_eq_ok.1 hx
  simp [Within]

theorem takes_integer : Takes us integer fun _ => us := by
  refine takes_of_sublist fun ts a rest hx => ?_
  cases run_integer_eq_ok.1 hx
  exact List.sublist_cons_self _ _

theorem takes_expr : Takes us expr fun e => us ++ e.tokens := by
  intro ts e rest hx
  obtain ⟨-, rfl⟩ := makes_expr ts hx
  simp [Within]

theorem Takes.parenthesized (h : Takes us r f) : Takes us (parenthesized r) f :=
  (takes_expect _).bind fun _ => h.bind fun _ => (takes_expect _).bind fun _ => takes_pure (List.Sublist.refl _)

theorem loose_commaTokens (tss : List (List Token)) : loose (commaTokens tss) = tss.flatMap loose := by
  induction tss with
  | nil => rfl
  | cons ts tss ih =>
    cases tss with
    | nil => simp [commaTokens]
    | cons ts' tss =>
      rw [commaTokens, loose_append, loose_cons, ih, List.flatMap_cons]
      · rfl
      · exact List.cons_ne_nil _ _

/-- A list has the tokens of its items. By induction on the tokens that are left. -/
theorem Takes.separated (h : Takes [] r f) : Takes [] (separated r) fun as => commaTokens (as.map f) := by
  intro ts as rest hx
  induction hn : ts.length using Nat.strongRecOn generalizing ts as with
  | ind n ih =>
    rw [run_separated] at hx
    obtain ⟨⟨a, mid⟩, ha, hx⟩ := bind_eq_ok.1 hx
    have hfirst : Within (f a ++ mid) ts := h ha
    have hle : mid.length ≤ ts.length := length_of_run ha
    have hsingle : (.ok ([a], mid) : Except SyntaxError (List α × List Token)) = .ok (as, rest) →
        Within (commaTokens (as.map f) ++ rest) ts := by
      intro he
      cases he
      exact hfirst
    cases mid with
    | nil => exact hsingle hx
    | cons t mid =>
      cases t with
      | comma =>
        obtain ⟨⟨others, last⟩, hothers, hx⟩ := bind_eq_ok.1 hx
        cases hx
        have hrest : Within (commaTokens (others.map f) ++ last) mid := ih mid.length (hn ▸ hle) hothers rfl
        refine Within.trans ?_ hfirst
        have hboth := (List.Sublist.refl (loose (f a))).append hrest
        simpa [Within, loose_commaTokens] using hboth
      | _ => exact hsingle hx

theorem takes_names : Takes [] names nameTokens := takes_name.separated

theorem takes_condition : Takes us condition fun e? => us ++ conditionTokens e? := by
  refine (takes_accept _).bind fun found => ?_
  cases found with
  | true => exact takes_expr.map fun e => by simp [Within, conditionTokens]
  | false => exact takes_pure (by simp [Within, conditionTokens])

theorem takes_selection : Takes us selection fun what => us ++ what.tokens := by
  refine (takes_accept _).bind fun found => ?_
  cases found with
  | true => exact takes_pure (by simp [Within, Selection.tokens])
  | false => exact (takes_names.after us).map fun names => by simp [Within, Selection.tokens]

theorem takes_select : Takes [] select Statement.tokens :=
  (takes_expect _).bind fun _ => takes_selection.bind fun _ => (takes_expect _).bind fun _ => takes_name.bind fun _ =>
    takes_condition.bind fun _ => takes_pure (by simp [Within, Statement.tokens])

theorem takes_insert : Takes [] insert Statement.tokens := by
  refine (takes_expect _).bind fun _ => (takes_expect _).bind fun _ => takes_name.bind fun table => ?_
  have hvalues : ∀ columns : Option (List String), Takes ([.name table] ++ nameTokens (columns.getD [])) (do
        keyword .VALUES
        let values ← parenthesized (separated expr)
        pure (Statement.insert table columns values)) Statement.tokens := fun columns =>
    (takes_expect _).bind fun _ => ((takes_expr.separated).parenthesized.after _).bind fun values => takes_pure (by
      cases columns <;> simp [Within, Statement.tokens, nameTokens, commaTokens])
  refine (takes_accept _).bind fun found => ?_
  cases found with
  | true =>
    refine (takes_names.after _).bind fun names => (takes_expect _).bind fun _ => ?_
    exact (takes_pure (List.Sublist.refl _)).bind hvalues
  | false => exact (takes_pure (by simp [Within, nameTokens, commaTokens])).bind hvalues

theorem takes_assignment : Takes [] assignment assignmentTokens :=
  takes_name.bind fun _ => (takes_expect _).bind fun _ => takes_expr.bind fun _ =>
    takes_pure (by simp [Within, assignmentTokens])

theorem takes_update : Takes [] update Statement.tokens :=
  (takes_expect _).bind fun _ => takes_name.bind fun _ => (takes_expect _).bind fun _ =>
    (takes_assignment.separated.after _).bind fun _ => takes_condition.bind fun _ =>
      takes_pure (by simp [Within, Statement.tokens])

theorem takes_delete : Takes [] delete Statement.tokens :=
  (takes_expect _).bind fun _ => (takes_expect _).bind fun _ => takes_name.bind fun _ =>
    takes_condition.bind fun _ => takes_pure (by simp [Within, Statement.tokens])

@[simp] theorem loose_typeTokens (type : DeclaredType) : loose type.tokens = [] := by
  cases type <;> rfl

theorem takes_size : Takes us size fun _ => us := by
  refine takes_integer.parenthesized.bind fun n => ?_
  cases n with
  | ofNat n => exact takes_pure (List.Sublist.refl _)
  | negSucc n => exact fun ts a rest h => by cases h

theorem takes_declaredType : Takes us declaredType fun _ => us := by
  refine takes_peek.bind fun next => ?_
  split
  case h_12 | h_13 => exact takes_skip.bind fun _ => takes_size.map fun _ => List.Sublist.refl _
  case h_14 => exact takes_fail _
  all_goals exact takes_skip.bind fun _ => takes_pure (List.Sublist.refl _)

theorem takes_nullability (notNull : Bool) : Takes us (nullability notNull) fun _ => us := by
  refine takes_of_sublist fun ts b rest h => ?_
  induction notNull, ts using nullability.induct with
  | case1 notNull ts ih =>
    rw [run_nullability_notNull] at h
    exact ((ih h).trans (List.sublist_cons_self _ _)).trans (List.sublist_cons_self _ _)
  | case2 notNull ts hnull =>
    rw [run_nullability_not notNull hnull] at h
    cases h
  | case3 notNull ts ih =>
    rw [run_nullability_null] at h
    exact (ih h).trans (List.sublist_cons_self _ _)
  | case4 notNull ts hnotNull hnot hnull =>
    rw [run_nullability notNull hnot hnull] at h
    cases h
    exact List.Sublist.refl _

@[simp] theorem loose_declarationTokens (c : ColumnDeclaration) : loose c.tokens = (Token.name c.name).loose := by
  obtain ⟨name, type, notNull⟩ := c
  cases notNull <;> simp [ColumnDeclaration.tokens]

theorem takes_columnDeclaration : Takes [] columnDeclaration ColumnDeclaration.tokens :=
  takes_name.bind fun _ => takes_declaredType.bind fun _ => (takes_nullability false).bind fun _ =>
    takes_pure (by simp [Within])

theorem takes_createTable : Takes [] createTable Statement.tokens := by
  refine (takes_expect _).bind fun _ => ?_
  have hcolumns : ∀ ifNotExists : Bool, Takes [] (do
        let table ← name
        let columns ← parenthesized (separated columnDeclaration)
        pure (Statement.createTable table columns ifNotExists)) Statement.tokens := fun ifNotExists =>
    takes_name.bind fun _ => (takes_columnDeclaration.separated.parenthesized.after _).bind fun _ => takes_pure (by
      cases ifNotExists <;> simp [Within, Statement.tokens])
  refine (takes_accept _).bind fun found => ?_
  cases found with
  | true =>
    exact (takes_expect _).bind fun _ => (takes_expect _).bind fun _ => (takes_pure (List.Sublist.refl _)).bind hcolumns
  | false => exact (takes_pure (List.Sublist.refl _)).bind hcolumns

theorem takes_indexKind : Takes us indexKind fun _ => us := by
  refine (takes_accept _).bind fun found => ?_
  cases found with
  | true =>
    refine takes_name.bind fun word => ?_
    split
    · exact takes_pure (by simp [Within])
    · exact fun ts a rest h => by cases h
  | false => exact takes_pure (List.Sublist.refl _)

theorem takes_createIndex : Takes [] createIndex Statement.tokens := by
  refine (takes_accept _).bind fun unique => (takes_expect _).bind fun _ => takes_name.bind fun _ =>
    (takes_expect _).bind fun _ => takes_name.bind fun _ => takes_indexKind.bind fun kind => ?_
  cases unique && !kind.isUnique with
  | true => exact fun ts a rest h => by cases h
  | false => exact (takes_names.parenthesized.after _).bind fun _ => takes_pure (by simp [Within, Statement.tokens])

theorem takes_create : Takes [] create Statement.tokens := by
  refine (takes_expect _).bind fun _ => takes_peek.bind fun next => ?_
  split
  · exact takes_createTable
  · exact takes_createIndex
  · exact takes_createIndex
  · exact takes_fail _

theorem takes_dropIndex : Takes [] dropIndex Statement.tokens := by
  refine (takes_expect _).bind fun _ => takes_name.bind fun _ => (takes_accept _).bind fun found => ?_
  split
  · exact takes_name.bind fun _ => takes_pure (by simp [Within, Statement.tokens])
  · refine (takes_accept _).bind fun found => ?_
    split
    · exact takes_name.bind fun _ => takes_pure (by simp [Within, Statement.tokens])
    · exact takes_fail _

theorem takes_drop : Takes [] drop Statement.tokens := by
  refine (takes_expect _).bind fun _ => takes_peek.bind fun next => ?_
  split
  · exact takes_skip.bind fun _ => takes_name.map fun _ => by simp [Within, Statement.tokens]
  · exact takes_dropIndex
  · exact takes_fail _

theorem takes_showing : Takes [] showing Statement.tokens := by
  refine (takes_expect _).bind fun _ => takes_peek.bind fun next => ?_
  split
  · exact takes_skip.bind fun _ => takes_pure (by simp [Within, Statement.tokens])
  · refine takes_skip.bind fun _ => (takes_accept _).bind fun found => ?_
    split
    · exact takes_name.map fun _ => by simp [Within, Statement.tokens]
    · exact takes_pure (by simp [Within, Statement.tokens])
  · exact takes_skip.bind fun _ => (takes_expect _).bind fun _ => takes_name.map fun _ => by
      simp [Within, Statement.tokens]
  · exact takes_fail _

/-- The loose tokens of a statement are among the tokens that it is read from. -/
theorem takes_statement : Takes [] statement Statement.tokens := by
  refine takes_peek.bind fun next => ?_
  split
  · exact takes_select
  · exact takes_insert
  · exact takes_update
  · exact takes_delete
  · exact takes_create
  · exact takes_drop
  · exact takes_showing
  · exact takes_fail _

end Reader

end Rowbase.Language
