import Rowbase.Session.Basic
import Rowbase.Shell.Line
import Rowbase.Text.Blank

/-! # The shell

The shell reads lines. A line is a script, whose statements are shown and carried out in turn, or
one of two words: one for help and one to leave. Blanks around it and what a backspace has taken
back do not count. When the shell is left, the lines that it took are remembered in a file. -/
namespace Rowbase.Shell

/-- The environment variable that names the directory of the database. -/
def directoryVariable : String := "HEAPSQL_DATA_DIR"

/-- Where the database lies: in the directory given as argument, otherwise in the one that the
environment names, otherwise in the usual one. -/
def locate (argument environment : Option String) : Location :=
  match argument, environment with
  | some directory, _ => { directory }
  | none, some directory => if directory.isEmpty then {} else { directory }
  | none, none => {}

/-- The first line that the shell prints. -/
def banner (l : Location) : String :=
  s!"heapsql shell, data in {l.directory} (type 'help' or 'quit')\n"

/-- What the shell prints for help. -/
def help : String := "
Statements:
  CREATE TABLE [IF NOT EXISTS] t (c INT | TEXT | BOOLEAN, ...)
  DROP TABLE t
  CREATE [UNIQUE] INDEX i ON t [USING BTREE | HASH] (c, ...)
  DROP INDEX i FROM t
  INSERT INTO t [(c, ...)] VALUES (v, ...)
  DELETE FROM t [WHERE c = v AND ...]
  SELECT * | c, ... FROM t [WHERE c = v AND ...]
  SHOW TABLES | SHOW COLUMNS [FROM t] | SHOW INDEX FROM t

Type 'quit' to exit.

"

/-- What is printed for an error. -/
def complaint (words : String) : String := s!"Error: {words}\n"

/-- A state of the shell. -/
structure State where
  session : Session
  files : Files
  /-- The lines taken so far, the last first. -/
  taken : List String := []

/-- How the shell ends. -/
inductive Ending where
  /-- There are no more lines, or one asked to leave. -/
  | left
  /-- A line could not be read. -/
  | brokenOff
deriving DecidableEq

/-- The code that the shell ends with. -/
def Ending.code : Ending → UInt32
  | left => 0
  | brokenOff => 101

/-- Carries out a statement, and returns what is printed for it. -/
def answer (s : Language.Statement) : StateM State String := fun state =>
  match (Session.execute s).apply state.session state.files with
  | (r, session, files) =>
    let text := match r with
      | .ok a => s!"{a.text}\n"
      | .error e => complaint e.message
    (s!"{s.written}\n{text}", { state with session, files })

/-- Carries out the statements of a script, and returns what is printed for them. -/
def answerScript (line : String) : StateM State String :=
  match Language.Script.ofText line with
  | .error e => pure (complaint e.message)
  | .ok statements => do return String.join (← statements.mapM answer)

/-- Takes a line, and returns what is printed for it; it fails if the line ends the shell. -/
def answerLine (line : String) : ExceptT Ending (StateM State) String := do
  match (meant? line).map Text.trim with
  | none => throw .brokenOff
  | some "" => return ""
  | some line =>
    modify fun state => { state with taken := line :: state.taken }
    match line with
    | "quit" => throw .left
    | "help" => return help
    | line => answerScript line

/-- Takes lines up to one that ends the shell, and returns what is printed for them. -/
def answerLines : List String → StateM State (String × Ending)
  | [] => pure ("", .left)
  | line :: lines => do
    match ← (answerLine line).run with
    | .error ending => pure ("", ending)
    | .ok text =>
      let (more, ending) ← answerLines lines
      return (text ++ more, ending)

/-- The files with the lines that were taken at the end of the file of remembered lines. Nothing is
said if they cannot be remembered. -/
def State.remember (s : State) : Files :=
  if s.taken.isEmpty then s.files
  else
    let path := s.session.location.historyPath
    let earlier := (s.files.read path).toOption.getD .empty
    let lines := String.join (s.taken.reverse.map (· ++ "\n"))
    (s.files.write path (earlier ++ lines.toUTF8)).toOption.getD s.files

/-- What is left of a run of the shell. -/
structure Outcome where
  /-- All that it printed. -/
  text : String
  ending : Ending
  files : Files

/-- A run of the shell from its start to its end on these lines. -/
def run (l : Location) (lines : List String) (files : Files) : Outcome :=
  match answerLines lines { session := { location := l }, files } with
  | ((text, ending), state) => {
    text := banner l ++ text
    ending
    files := if ending = .left then state.remember else state.files }

end Rowbase.Shell
