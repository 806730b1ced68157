import Rowbase.Language.Expr
import Rowbase.Language.Reader

/-! # Reading expressions

Alternatives of conjunctions of negations of comparisons of primaries, each level written in terms
of the next. Chains of AND and of OR lean to the left; a comparison takes one operator at most. The
levels call each other on the same tokens only downwards, and upwards only behind a token. -/
namespace Rowbase.Language.Reader

/-- The comparison that tokens start with, and the tokens after it. -/
def comparison? :
    (ts : List Token) → Option (Comparison × { rest : List Token // rest.length < ts.length })
  | .comparison op :: rest => some (op, ⟨rest, by simp⟩)
  | _ => none

/-- The literal that a token is. -/
def literal? : Token → Option Literal
  | .integer n => some (.integer n)
  | .float x => some (.float x)
  | .text s => some (.text s)
  | .keyword .TRUE => some (.boolean true)
  | .keyword .FALSE => some (.boolean false)
  | .keyword .NULL => some .null
  | _ => none

mutual

/-- One conjunction or more, with OR between them. -/
def alternatives (ts : List Token) : Except SyntaxError (Expr × Rest ts) := do
  let (left, ⟨rest, h⟩) ← conjunction ts
  let (e, ⟨rest', h'⟩) ← moreAlternatives left rest
  return (e, ⟨rest', Nat.le_trans h' h⟩)
termination_by ts.length * 8 + 6

/-- The alternatives that follow `left`. -/
def moreAlternatives (left : Expr) (ts : List Token) : Except SyntaxError (Expr × Rest ts) :=
  match ts with
  | .keyword .OR :: ts' => do
    let (right, ⟨rest, h⟩) ← conjunction ts'
    let (e, ⟨rest', h'⟩) ← moreAlternatives (.binary .or left right) rest
    return (e, ⟨rest', by simp only [List.length_cons]; omega⟩)
  | ts => .ok (left, ⟨ts, Nat.le_refl _⟩)
termination_by ts.length * 8 + 5

/-- One negation or more, with AND between them. -/
def conjunction (ts : List Token) : Except SyntaxError (Expr × Rest ts) := do
  let (left, ⟨rest, h⟩) ← negation ts
  let (e, ⟨rest', h'⟩) ← moreConjuncts left rest
  return (e, ⟨rest', Nat.le_trans h' h⟩)
termination_by ts.length * 8 + 4

/-- The conjuncts that follow `left`. -/
def moreConjuncts (left : Expr) (ts : List Token) : Except SyntaxError (Expr × Rest ts) :=
  match ts with
  | .keyword .AND :: ts' => do
    let (right, ⟨rest, h⟩) ← negation ts'
    let (e, ⟨rest', h'⟩) ← moreConjuncts (.binary .and left right) rest
    return (e, ⟨rest', by simp only [List.length_cons]; omega⟩)
  | ts => .ok (left, ⟨ts, Nat.le_refl _⟩)
termination_by ts.length * 8 + 3

/-- A comparison behind any number of NOT. -/
def negation (ts : List Token) : Except SyntaxError (Expr × Rest ts) :=
  match ts with
  | .keyword .NOT :: ts' => do
    let (e, ⟨rest, h⟩) ← negation ts'
    return (.not e, ⟨rest, by simp only [List.length_cons]; omega⟩)
  | ts => comparison ts
termination_by ts.length * 8 + 2

/-- One primary, or two with a comparison between them. -/
def comparison (ts : List Token) : Except SyntaxError (Expr × Rest ts) := do
  let (left, ⟨rest, h⟩) ← primary ts
  match comparison? rest with
  | some (op, ⟨rest', h'⟩) =>
    let (right, ⟨rest'', h''⟩) ← primary rest'
    return (.binary (.comparison op) left right, ⟨rest'', by omega⟩)
  | none => return (left, ⟨rest, h⟩)
termination_by ts.length * 8 + 1

/-- A column, a literal, or an expression in parentheses. -/
def primary (ts : List Token) : Except SyntaxError (Expr × Rest ts) :=
  match ts with
  | .name s :: rest => .ok (.column s, ⟨rest, by simp⟩)
  | .leftParen :: ts' => do
    let (e, ⟨rest, h⟩) ← alternatives ts'
    let ((), ⟨rest', h'⟩) ← expect .rightParen rest
    return (.nested e, ⟨rest', by simp only [List.length_cons]; omega⟩)
  | t :: rest => match literal? t with
    | some l => .ok (.literal l, ⟨rest, by simp⟩)
    | none => .error (unexpected "expression" (t :: rest))
  | [] => .error (unexpected "expression" [])
termination_by ts.length * 8

end

/-- Reads an expression. -/
def expr : Reader Expr := alternatives

end Rowbase.Language.Reader
