import Rowbase.Language.Scan

/-! # Readers

A reader takes tokens from the front of a list and returns what it read with the tokens it left.
That no reader returns more tokens than it was given is part of its type, so a reader that calls
itself behind a token it has taken always ends. -/
namespace Rowbase.Language

/-- What is left of a list of tokens. -/
abbrev Rest (ts : List Token) := { rest : List Token // rest.length ≤ ts.length }

/-- A function from tokens to what they start with and the tokens after it. -/
def Reader (α : Type) := (ts : List Token) → Except SyntaxError (α × Rest ts)

namespace Reader

/-- Reads nothing. -/
protected def pure (a : α) : Reader α := fun ts => .ok (a, ⟨ts, Nat.le_refl _⟩)

/-- Reads one thing and then another that may depend on it. -/
protected def bind (r : Reader α) (f : α → Reader β) : Reader β := fun ts =>
  match r ts with
  | .error e => .error e
  | .ok (a, ⟨rest, h⟩) => match f a rest with
    | .error e => .error e
    | .ok (b, ⟨rest', h'⟩) => .ok (b, ⟨rest', Nat.le_trans h' h⟩)

instance : Monad Reader where
  pure := Reader.pure
  bind := Reader.bind

/-- What a reader makes of a list of tokens. -/
def run (r : Reader α) (ts : List Token) : Except SyntaxError (α × List Token) :=
  (r ts).map fun p => (p.1, p.2.1)

/-- The error of a reader that wanted something else than what it was given. -/
def unexpected (expected : String) : List Token → SyntaxError
  | [] => .unexpectedEnd expected
  | t :: _ => .unexpectedToken expected t.shown

/-- Fails because something else was expected next. -/
def fail (expected : String) : Reader α := fun ts => .error (unexpected expected ts)

/-- The next token, which stays where it is. -/
def peek : Reader (Option Token) := fun ts => .ok (ts.head?, ⟨ts, Nat.le_refl _⟩)

/-- Takes the next token, whatever it is. -/
def skip : Reader Unit := fun ts => .ok ((), ⟨ts.tail, by simp⟩)

/-- Takes the next token if it is `t`, and says whether it was. -/
def accept (t : Token) : Reader Bool := fun ts =>
  match ts with
  | t' :: rest =>
    if t' = t then .ok (true, ⟨rest, by simp⟩) else .ok (false, ⟨t' :: rest, Nat.le_refl _⟩)
  | [] => .ok (false, ⟨[], Nat.le_refl _⟩)

/-- Takes the token `t`, which must be next. -/
def expect (t : Token) : Reader Unit := do
  if ← accept t then pure () else fail t.shown

def keyword (k : Keyword) : Reader Unit := expect (.keyword k)

/-- Takes a name. -/
def name : Reader String := do
  match ← peek with
  | some (.name s) => skip; pure s
  | _ => fail "identifier"

/-- Takes an integer. -/
def integer : Reader Int := do
  match ← peek with
  | some (.integer n) => skip; pure n
  | _ => fail "integer"

/-- Reads one thing or more, with commas between them. -/
def separated (item : Reader α) (ts : List Token) : Except SyntaxError (List α × Rest ts) :=
  match item ts with
  | .error e => .error e
  | .ok (a, ⟨.comma :: rest, h⟩) =>
    have h : rest.length < ts.length := h
    match separated item rest with
    | .error e => .error e
    | .ok (as, ⟨rest', h'⟩) => .ok (a :: as, ⟨rest', by omega⟩)
  | .ok (a, rest) => .ok ([a], rest)
termination_by ts.length

/-- Reads one name or more, with commas between them. -/
def names : Reader (List String) := separated name

/-- Reads what stands in parentheses. -/
def parenthesized (r : Reader α) : Reader α := do
  expect .leftParen
  let a ← r
  expect .rightParen
  pure a

end Reader

end Rowbase.Language
