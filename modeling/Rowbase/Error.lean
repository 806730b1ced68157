import Rowbase.Files.Fault
import Rowbase.Text.Utf8
import Rowbase.Value

/-! # Errors

Errors are causes; the wording of each stands in one place. They come in three families, by where
they arise: reading a statement, the stored relations and indices, and the execution of a
statement. A storage error that reaches the user of a statement is reported as an execution error
in its own words behind `storageMark`, which `Error.reported` does. -/
namespace Rowbase

/-- Why a text is no statement. Positions count characters from 0. -/
inductive SyntaxError where
  /-- No token starts with this character. -/
  | unexpectedCharacter (c : Char) (position : Nat)
  /-- The quote at this position is never closed. -/
  | unterminatedText (position : Nat)
  /-- The number at this position cannot be represented. -/
  | invalidNumber (position : Nat)
  /-- A token stands where another was expected. -/
  | unexpectedToken (expected found : String)
  /-- The text ends where more was expected. -/
  | unexpectedEnd (expected : String)
deriving DecidableEq

/-- The words for a syntax error. -/
def SyntaxError.message : SyntaxError → String
  | unexpectedCharacter c position =>
    s!"Lexer error: unexpected character '{c}' at position {position}"
  | unterminatedText position =>
    s!"Lexer error: unterminated string literal starting at position {position}"
  | invalidNumber position => s!"Lexer error: invalid number format at position {position}"
  | unexpectedToken expected found =>
    s!"Parse error: unexpected token '{found}', expected {expected}"
  | unexpectedEnd expected => s!"Parse error: unexpected end of input, expected {expected}"

/-- What is wrong with a relation, an index or the catalog. -/
inductive RelationFault where
  | relationExists (relation : String)
  | relationMissing (relation : String)
  | notOpen (relation : String)
  | blockOutOfRange (block : Nat) (relation : String)
  | noRow (block record : Nat) (relation : String)
  | missingValue (column relation : String)
  | wrongKind (column relation : String) (kind : Kind) (found : Option Kind)
  | textTooLong (column : String)
  | unstorable (found : Option Kind) (kind : Kind) (column : String)
  | rowTooLarge (size : Nat)
  | corruptText (relation : String) (fault : Text.Utf8.Fault)
  | indexExists (index relation : String)
  | indexMissing (index relation : String)
  | unknownKind (name : String)
  | catalogRelation (relation : String)
  | malformedPosition
  | malformedCell (column : String)
  /-- A fault in words of its own. -/
  | other (words : String)
deriving DecidableEq

/-- The words for a relation's fault. -/
def RelationFault.message : RelationFault → String
  | relationExists relation => s!"relation {relation} already exists"
  | relationMissing relation => s!"relation {relation} does not exist"
  | notOpen relation => s!"relation {relation} is not open"
  | blockOutOfRange block relation => s!"block {block} out of range for relation {relation}"
  | noRow block record relation => s!"no row at ({block}, {record}) in {relation}"
  | missingValue column relation => s!"no value given for column {column} of {relation}"
  | wrongKind column relation kind found =>
    s!"column {column} of {relation} is {kind.name}, cannot store {Kind.nameOrNull found}"
  | textTooLong column => s!"text value for {column} is too long"
  | unstorable found kind column =>
    s!"cannot marshal {Kind.nameOrNull found} into {kind.name} column {column}"
  | rowTooLarge size => s!"row of {size} bytes does not fit in a block"
  | corruptText relation fault => s!"corrupt text in {relation}: {fault.message}"
  | indexExists index relation => s!"index {index} on {relation} already exists"
  | indexMissing index relation => s!"index {index} on {relation} does not exist"
  | unknownKind name => s!"unknown column type {name} in catalog"
  | catalogRelation relation => s!"cannot detach catalog relation {relation}"
  | malformedPosition => "malformed seq_in_index in _indices"
  | malformedCell column => s!"malformed {column} in catalog row"
  | other words => words

/-- Why a saved index cannot be read back. -/
inductive DocumentFault where
  /-- Its bytes cannot be read. -/
  | unreadable (fault : Files.Fault)
  /-- Its bytes are no saved index. -/
  | malformed
deriving DecidableEq

/-- The words for a fault of a saved index. Nothing is said about what its bytes have wrong. -/
def DocumentFault.message : DocumentFault → String
  | unreadable fault => fault.message
  | malformed => ""

/-- Why stored relations and indices could not do what was asked. -/
inductive StorageError where
  | relation (fault : RelationFault)
  /-- A block cannot take a record of this size. -/
  | noRoom (block size : Nat)
  | unknownColumn (column relation : String)
  /-- A unique index holds the key already. -/
  | duplicateKey (index key : String)
  /-- Two values of different kinds were compared. -/
  | typeMismatch (left right : Option Kind)
  | file (fault : Files.Fault)
  /-- A saved index cannot be read back. -/
  | indexDocument (fault : DocumentFault)
deriving DecidableEq

/-- The words for a storage error. -/
def StorageError.message : StorageError → String
  | relation fault => fault.message
  | noRoom block size => s!"block {block} has no room for a {size}-byte record"
  | unknownColumn column name => s!"unknown column '{column}' in relation '{name}'"
  | duplicateKey index key => s!"duplicate key {key} in unique index '{index}'"
  | typeMismatch left right =>
    s!"cannot compare {Kind.nameOrNull left} with {Kind.nameOrNull right}"
  | file fault => s!"I/O error: {fault.message}"
  | indexDocument fault => s!"index encoding error: {fault.message}"

/-- Why a statement is not carried out. -/
inductive Refusal where
  /-- The stored relations and indices could not do it. -/
  | storage (error : StorageError)
  | unsupportedType (type column : String)
  | duplicateColumn (column : String)
  | tableExists (table : String)
  | tableMissing (table : String)
  | dropCatalogTable
  | indexCatalogTable (table : String)
  | noSuchColumn (column table : String)
  | duplicateIndexColumn (column index : String)
  | indexExists (index table : String)
  | indexMissing (index table : String)
  | unknownTable (table : String)
  | modifyCatalogTable (table : String)
  | valueCount (values columns : Nat)
  | unsupportedValue (value : String)
  | unsupportedLiteral (literal : String)
  | integerOutOfRange (n : Int)
  | conflictingPredicate (column : String)
  | unrecognizedExpression
  /-- A refusal in words of its own. -/
  | other (words : String)
deriving DecidableEq

/-- What marks a storage error in the words of a refusal. -/
def storageMark : String := "DbRelationError: "

/-- The words for a refusal. -/
def Refusal.message : Refusal → String
  | storage error => storageMark ++ error.message
  | unsupportedType type column => s!"unrecognized data type {type} for column {column}"
  | duplicateColumn column => s!"duplicate column {column}"
  | tableExists table => s!"table {table} already exists"
  | tableMissing table => s!"table {table} does not exist"
  | dropCatalogTable => "cannot drop a schema table"
  | indexCatalogTable table => s!"cannot index schema table {table}"
  | noSuchColumn column table => s!"column {column} does not exist in {table}"
  | duplicateIndexColumn column index => s!"duplicate column {column} in index {index}"
  | indexExists index table => s!"index {index} already exists on {table}"
  | indexMissing index table => s!"index {index} does not exist on {table}"
  | unknownTable table => s!"unknown table {table}"
  | modifyCatalogTable table => s!"cannot modify schema table {table}"
  | valueCount values columns => s!"{values} values for {columns} columns"
  | unsupportedValue value => s!"unsupported value {value}"
  | unsupportedLiteral literal => s!"unsupported literal {literal}"
  | integerOutOfRange n => s!"integer literal {n} out of range"
  | conflictingPredicate column => s!"conflicting predicate on column {column}"
  | unrecognizedExpression => "unrecognized expression"
  | other words => words

/-- Any error. -/
inductive Error where
  | syntaxError (error : SyntaxError)
  | storage (error : StorageError)
  | refused (refusal : Refusal)
deriving DecidableEq

namespace Error

/-- The words for an error. -/
def message : Error → String
  | syntaxError error => error.message
  | storage error => error.message
  | refused refusal => refusal.message

/-- Whether the stored relations and indices raised the error. -/
def isStorage : Error → Bool
  | storage _ => true
  | _ => false

/-- The error as the user of a statement sees it: a storage error becomes a refusal. -/
def reported : Error → Error
  | storage error => refused (.storage error)
  | error => error

/-- An error that is reported once is not marked again. -/
@[simp] theorem reported_reported (e : Error) : e.reported.reported = e.reported := by
  cases e <;> rfl

end Error

end Rowbase
