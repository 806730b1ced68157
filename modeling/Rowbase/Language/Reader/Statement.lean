import Rowbase.Language.Reader.Expr
import Rowbase.Language.Statement

/-! # Reading statements

A statement is told by its first word. A single statement may be followed by one semicolon and by
nothing else; a script is a list of statements, each but the last followed by a semicolon. -/
namespace Rowbase.Language

namespace Reader

/-- The condition behind WHERE, if there is one. -/
def condition : Reader (Option Expr) := do
  if ← accept (.keyword .WHERE) then some <$> expr else pure none

/-- The columns or the asterisk of a selection. -/
def selection : Reader Selection := do
  if ← accept .asterisk then pure .all else .columns <$> names

def select : Reader Statement := do
  keyword .SELECT
  let what ← selection
  keyword .FROM
  let table ← name
  let condition ← condition
  pure (.select what table condition)

def insert : Reader Statement := do
  keyword .INSERT
  keyword .INTO
  let table ← name
  let columns ←
    if ← accept .leftParen then do
      let columns ← names
      expect .rightParen
      pure (some columns)
    else pure none
  keyword .VALUES
  let values ← parenthesized (separated expr)
  pure (.insert table columns values)

/-- A column, an equals sign and the value to assign. -/
def assignment : Reader (String × Expr) := do
  let column ← name
  expect (.comparison .eq)
  let value ← expr
  pure (column, value)

def update : Reader Statement := do
  keyword .UPDATE
  let table ← name
  keyword .SET
  let assignments ← separated assignment
  let condition ← condition
  pure (.update table assignments condition)

def delete : Reader Statement := do
  keyword .DELETE
  keyword .FROM
  let table ← name
  let condition ← condition
  pure (.delete table condition)

/-- The size of a character type, which must not be negative. -/
def size : Reader Nat := do
  let n ← parenthesized integer
  match n with
  | .ofNat n => pure n
  | .negSucc _ => fun _ => .error (.unexpectedToken "a non-negative length" (toString n))

/-- The type of a column. Some types have two names. -/
def declaredType : Reader DeclaredType := do
  match ← peek with
  | some (.keyword .INT) | some (.keyword .INTEGER) => skip; pure .integer
  | some (.keyword .BIGINT) => skip; pure .bigInt
  | some (.keyword .SMALLINT) => skip; pure .smallInt
  | some (.keyword .FLOAT) => skip; pure .float
  | some (.keyword .DOUBLE) => skip; pure .double
  | some (.keyword .TEXT) => skip; pure .text
  | some (.keyword .BOOLEAN) | some (.keyword .BOOL) => skip; pure .boolean
  | some (.keyword .DATE) => skip; pure .date
  | some (.keyword .TIMESTAMP) => skip; pure .timestamp
  | some (.keyword .VARCHAR) => skip; .varchar <$> size
  | some (.keyword .CHAR) => skip; .char <$> size
  | _ => fail "data type"

/-- Any number of NOT NULL and NULL, of which the last one counts. -/
def nullability (notNull : Bool) (ts : List Token) : Except SyntaxError (Bool × Rest ts) :=
  match ts with
  | .keyword .NOT :: .keyword .NULL :: rest => do
    let (notNull, ⟨rest', h⟩) ← nullability true rest
    return (notNull, ⟨rest', by simp only [List.length_cons]; omega⟩)
  | .keyword .NOT :: rest => .error (unexpected Keyword.NULL.text rest)
  | .keyword .NULL :: rest => do
    let (notNull, ⟨rest', h⟩) ← nullability false rest
    return (notNull, ⟨rest', by simp only [List.length_cons]; omega⟩)
  | ts => .ok (notNull, ⟨ts, Nat.le_refl _⟩)
termination_by ts.length

def columnDeclaration : Reader ColumnDeclaration := do
  let name ← name
  let type ← declaredType
  let notNull ← nullability false
  pure ⟨name, type, notNull⟩

def createTable : Reader Statement := do
  keyword .TABLE
  let ifNotExists ←
    if ← accept (.keyword .IF) then do
      keyword .NOT
      keyword .EXISTS
      pure true
    else pure false
  let table ← name
  let columns ← parenthesized (separated columnDeclaration)
  pure (.createTable table columns ifNotExists)

/-- The kind of an index behind USING; without it an index is ordered. -/
def indexKind : Reader IndexKind := do
  if ← accept (.keyword .USING) then do
    let word ← name
    match IndexKind.ofName? word with
    | some kind => pure kind
    | none => fun _ => .error (.unexpectedToken "BTREE or HASH" word)
  else pure .btree

def createIndex : Reader Statement := do
  let unique ← accept (.keyword .UNIQUE)
  keyword .INDEX
  let index ← name
  keyword .ON
  let table ← name
  let kind ← indexKind
  if unique && !kind.isUnique then
    fun _ => .error (.unexpectedToken "BTREE for a UNIQUE index" kind.name)
  else do
    let columns ← parenthesized names
    pure (.createIndex index table columns kind)

def create : Reader Statement := do
  keyword .CREATE
  match ← peek with
  | some (.keyword .TABLE) => createTable
  | some (.keyword .INDEX) | some (.keyword .UNIQUE) => createIndex
  | _ => fail "TABLE or INDEX"

def dropIndex : Reader Statement := do
  keyword .INDEX
  let index ← name
  if (← accept (.keyword .FROM)) then do
    let table ← name
    pure (.dropIndex index table)
  else if (← accept (.keyword .ON)) then do
    let table ← name
    pure (.dropIndex index table)
  else fail "FROM or ON"

def drop : Reader Statement := do
  keyword .DROP
  match ← peek with
  | some (.keyword .TABLE) => skip; .dropTable <$> name
  | some (.keyword .INDEX) => dropIndex
  | _ => fail "TABLE or INDEX"

def showing : Reader Statement := do
  keyword .SHOW
  match ← peek with
  | some (.keyword .TABLES) => skip; pure .showTables
  | some (.keyword .COLUMNS) =>
    skip
    if ← accept (.keyword .FROM) then (fun table => .showColumns (some table)) <$> name
    else pure (.showColumns none)
  | some (.keyword .INDEX) =>
    skip
    keyword .FROM
    .showIndex <$> name
  | _ => fail "TABLES, COLUMNS, or INDEX"

/-- Reads a statement. -/
def statement : Reader Statement := do
  match ← peek with
  | some (.keyword .SELECT) => select
  | some (.keyword .INSERT) => insert
  | some (.keyword .UPDATE) => update
  | some (.keyword .DELETE) => delete
  | some (.keyword .CREATE) => create
  | some (.keyword .DROP) => drop
  | some (.keyword .SHOW) => showing
  | _ => fail "SELECT, INSERT, UPDATE, DELETE, CREATE, DROP, or SHOW"

end Reader

/-- The statement that the tokens are. -/
def Statement.ofTokens (ts : List Token) : Except SyntaxError Statement := do
  let (s, ⟨rest, _⟩) ← Reader.statement ts
  let rest := if rest.head? = some .semicolon then rest.tail else rest
  if rest.isEmpty then pure s else .error (Reader.unexpected "end of statement" rest)

/-- The statement that a text is. -/
def Statement.ofText (s : String) : Except SyntaxError Statement :=
  Token.ofText s >>= Statement.ofTokens

/-- The statements of a script. -/
def Script.ofTokens (ts : List Token) : Except SyntaxError (List Statement) :=
  if ts.isEmpty then .ok [] else
    match Reader.statement ts with
    | .error e => .error e
    | .ok (s, ⟨.semicolon :: rest, h⟩) =>
      have _ : rest.length < ts.length := h
      (Script.ofTokens rest).map (s :: ·)
    | .ok (s, rest) =>
      if rest.1.isEmpty then .ok [s]
      else .error (Reader.unexpected Token.semicolon.shown rest)
termination_by ts.length

/-- The statements of a script given as a text. -/
def Script.ofText (s : String) : Except SyntaxError (List Statement) :=
  Token.ofText s >>= Script.ofTokens

end Rowbase.Language
