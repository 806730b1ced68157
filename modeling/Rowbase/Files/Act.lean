import Rowbase.Files.Basic

/-! # Acts

An act on a thing that is kept in files may change the thing and the files, and may fail. What it
changed before it failed stays changed. Acts are put together from looks, which change nothing, and
from changes, which change nothing if they fail. -/
namespace Rowbase

/-- What is done to a thing of type `σ` and the files; it fails with an `ε`. -/
abbrev Act (ε σ : Type) := ExceptT ε (StateM (σ × Files))

namespace Act

/-- What an act returns, and what it leaves behind. -/
def apply (x : Act ε σ α) (thing : σ) (fs : Files) : Except ε α × σ × Files := x (thing, fs)

/-- Looks at the thing and the files. -/
def look (f : σ → Files → Except ε α) : Act ε σ α := fun s => (f s.1 s.2, s)

/-- Changes the thing and the files. -/
def change (f : σ → Files → Except ε (α × σ × Files)) : Act ε σ α := fun s =>
  match f s.1 s.2 with
  | .error e => (.error e, s)
  | .ok (a, s') => (.ok a, s')

/-- The act on a part of a thing, which is put back whether the act fails or not. -/
def within (part : σ → τ) (put : τ → σ → σ) (x : Act ε τ α) : Act ε σ α := fun s =>
  match x (part s.1, s.2) with
  | (r, t, fs) => (r, put t s.1, fs)

/-- The act with its failure made a result. -/
def caught (x : Act ε σ α) : Act ε σ (Except ε α) := fun s =>
  match x s with
  | (r, s') => (.ok r, s')

/-- The act, and if it fails another one after it, whose own failure counts for nothing. -/
def onFailure (x : Act ε σ α) (cleanup : Act ε σ Unit) : Act ε σ α := fun s =>
  match x s with
  | (.error e, s') => (.error e, (cleanup s').2)
  | (.ok a, s') => (.ok a, s')

/-- The act with other errors. -/
def adapt (f : ε → ε') (x : Act ε σ α) : Act ε' σ α := fun s =>
  match x s with
  | (r, s') => (r.mapError f, s')

/-- Does nothing but return or fail. -/
def result (r : Except ε α) : Act ε σ α := look fun _ _ => r

/-- The thing. -/
def thing : Act ε σ σ := look fun s _ => .ok s

/-- Changes the thing alone. -/
def update (f : σ → σ) : Act ε σ Unit := change fun s fs => .ok ((), f s, fs)

end Act

end Rowbase
