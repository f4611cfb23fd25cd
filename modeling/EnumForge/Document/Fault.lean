import EnumForge.Text.Quoted
import EnumForge.Text.Utf8

/-!
What can be wrong with a definition document, and where: the path to the value that could not be
read and the place in the document.
-/

namespace EnumForge.Document

open Text (Bytes)

/-! ### Causes -/

/-- What stands in the document. -/
inductive Found
  | null
  | boolean (b : Bool)
  | integer (i : Int)
  | real (text : String)
  | text (s : String)
  | array
  | object
  deriving DecidableEq

def Found.message : Found → String
  | null => "null"
  | boolean b => "boolean `" ++ (if b then "true" else "false") ++ "`"
  | integer i => "integer `" ++ toString i ++ "`"
  | real digits => "floating point `" ++ digits ++ "`"
  | text s => "string " ++ Text.quoted s
  | array => "sequence"
  | object => "map"

/-- What should stand there. -/
inductive Wanted
  | text | array | file | definition | values | value
  deriving DecidableEq

def Wanted.message : Wanted → String
  | text => "a string"
  | array => "a sequence"
  | file => "struct DefinitionFile"
  | definition => "struct EnumDefinition"
  | values => "a list of names or an object mapping names to values"
  | value => "an integer or a single-character string"

inductive Cause
  | endInValue | endInArray | endInObject | endInText
  | expectedColon | expectedArraySeparator | expectedObjectSeparator | expectedWord | expectedValue
  | invalidEscape | invalidNumber | numberOutOfRange | invalidUtf8 | controlCharacter | keyNotText
  | loneSurrogate | unfinishedSurrogate | trailingComma | trailingCharacters | tooDeep
  | wrongType (found : Found) (wanted : Wanted)
  | missingName
  | missingElement
  | duplicateField (name : String)
  | unknownField (name : String) (known : List String)
  | notScope
  deriving DecidableEq

/-- A choice of fields: one alone, or a list. -/
def fieldChoice : List String → String
  | [name] => "`" ++ name ++ "`"
  | names => "one of " ++ ", ".intercalate (names.map fun n => "`" ++ n ++ "`")

def Cause.message : Cause → String
  | endInValue => "EOF while parsing a value"
  | endInArray => "EOF while parsing a list"
  | endInObject => "EOF while parsing an object"
  | endInText => "EOF while parsing a string"
  | expectedColon => "expected `:`"
  | expectedArraySeparator => "expected `,` or `]`"
  | expectedObjectSeparator => "expected `,` or `\x7d`"
  | expectedWord => "expected ident"
  | expectedValue => "expected value"
  | invalidEscape => "invalid escape"
  | invalidNumber => "invalid number"
  | numberOutOfRange => "number out of range"
  | invalidUtf8 => "invalid unicode code point"
  | controlCharacter => "control character (\\u0000-\\u001F) found while parsing a string"
  | keyNotText => "key must be a string"
  | loneSurrogate => "lone leading surrogate in hex escape"
  | unfinishedSurrogate => "unexpected end of hex escape"
  | trailingComma => "trailing comma"
  | trailingCharacters => "trailing characters"
  | tooDeep => "recursion limit exceeded"
  | wrongType found wanted => "invalid type: " ++ found.message ++ ", expected " ++ wanted.message
  | missingName => "missing field `name`"
  | missingElement => "invalid length 0, expected struct EnumDefinition with 9 elements"
  | duplicateField name => "duplicate field `" ++ name ++ "`"
  | unknownField name known => "unknown field `" ++ name ++ "`, expected " ++ fieldChoice known
  | notScope => "data did not match any variant of untagged enum Scope"

/-! ### Paths -/

/-- A step from a value to one inside it. -/
inductive Step
  | index (i : Nat)
  | key (name : String)
  /-- A member whose key could not be read. -/
  | unknown
  deriving DecidableEq

def Step.text : Step → String
  | index i => "[" ++ toString i ++ "]"
  | key name => name
  | unknown => "?"

/-- Keys are joined by dots, positions follow without one. -/
def pathTail : List Step → String
  | [] => ""
  | .index i :: rest => Step.text (.index i) ++ pathTail rest
  | step :: rest => "." ++ step.text ++ pathTail rest

/-- A path from the root, which itself is a dot. -/
def pathText : List Step → String
  | [] => "."
  | step :: rest => step.text ++ pathTail rest

/-! ### Faults -/

/-- A fault found while reading. It keeps what is left of the document behind the place that it is
reported for. A fault that was found after a whole value is reported for the place behind the array
or object around it, so it is not placed until that has been left. -/
structure Fault where
  path : List Step
  cause : Cause
  rest : Bytes
  placed : Bool
  deriving DecidableEq

namespace Fault

/-- The fault lies in what has been read. -/
def behind (cause : Cause) (rest : Bytes) : Fault := ⟨[], cause, rest, true⟩

/-- The fault is the next byte, which has not been read. -/
def before (cause : Cause) (rest : Bytes) : Fault := ⟨[], cause, rest.drop 1, true⟩

/-- The fault will be placed by the array or object around it. -/
def unplaced (cause : Cause) (rest : Bytes) : Fault := ⟨[], cause, rest, false⟩

/-- The fault seen from outside, one step up. -/
def under (step : Step) (f : Fault) : Fault := { f with path := step :: f.path }

/-- Places a fault that is not, where `leave` says how much the way out of the container takes. -/
def place (leave : Bytes → Bytes) (f : Fault) : Fault :=
  if f.placed then f else { f with rest := leave f.rest, placed := true }

end Fault

/-- The line, counted from one, and the number of bytes since its beginning. -/
def position (read : Bytes) : Nat × Nat :=
  (read.count 10 + 1, (read.reverse.takeWhile (· != 10)).length)

/-- The answer to a document that cannot be read. -/
structure DocumentError where
  path : String
  detail : String
  deriving DecidableEq

def DocumentError.message (e : DocumentError) : String :=
  "at JSON path " ++ e.path ++ " → " ++ e.detail

/-- A fault of the whole document. -/
def Fault.report (document : Bytes) (f : Fault) : DocumentError :=
  let (line, column) := position (document.take (document.length - f.rest.length))
  ⟨pathText f.path, f.cause.message ++ s!" at line {line} column {column}"⟩

end EnumForge.Document
