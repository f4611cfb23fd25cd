import EnumForge.Declaration
import EnumForge.Identifier
import EnumForge.Storage

/-!
Which definitions are accepted. The rules are tried in a fixed order and the first one that is
broken is the answer.
-/

namespace EnumForge

/-- What a refused name was meant for. -/
inductive NameRole
  | typeName | scopeSegment | fileStem | constant
  deriving DecidableEq

def NameRole.text : NameRole → String
  | typeName => "type name"
  | scopeSegment => "namespace segment"
  | fileStem => "file stem"
  | constant => "constant"

/-- Why a definition is refused. -/
inductive DefinitionError
  | noValues
  | mixedKinds (first second : Kind) (name : String)
  | notAsciiChar (name text : String)
  | duplicateName (name : String)
  | duplicateValue (first second : String) (value : Value)
  | badName (role : NameRole) (text : String)
  | badStorage (text : String)
  | outOfRange (name : String) (value : Value) (storage : String)
  deriving DecidableEq

def DefinitionError.message : DefinitionError → String
  | noValues => "no values supplied"
  | mixedKinds first second name =>
    s!"values mix {first.text} and {second.text} kinds (`{name}` is {second.text})"
  | notAsciiChar name text =>
    s!"value of `{name}` must be exactly one ASCII character, got " ++ Text.quoted text
  | duplicateName name => s!"name `{name}` is declared more than once"
  | duplicateValue first second value =>
    s!"`{first}` and `{second}` share the value {value.text}"
  | badName role text => s!"{role.text} `{text}` is not a valid identifier"
  | badStorage text => s!"storage type `{text}` is not a type name"
  | outOfRange name value storage =>
    s!"value {value.text} of `{name}` does not fit in `{storage}`"

/-- An accepted definition with its constants in the order of their declaration. -/
structure Enumeration where
  definition : Definition
  constants : List Constant
  deriving DecidableEq

namespace Validation

abbrev Check := Except DefinitionError Unit

def require (p : Bool) (e : DefinitionError) : Check := if p then .ok () else .error e

def checkName (role : NameRole) (s : String) : Check :=
  require (Identifier.isIdentifier s) (.badName role s)

/-- All values are of the kind of the first one. -/
def checkKinds : List (String × WrittenValue) → Check
  | [] => .ok ()
  | (_, v) :: ps => ps.forM fun (n, w) => require (w.kind = v.kind) (.mixedKinds v.kind w.kind n)

def isAsciiChar (v : Value) : Bool :=
  match v with
  | .char c => c.toNat < 128
  | .integer _ => false

/-- A text is one ASCII character. -/
def checkChars (ps : List (String × WrittenValue)) : Check :=
  ps.forM fun (n, w) =>
    match w with
    | .integer _ => .ok ()
    | .text s => require (w.value?.any isAsciiChar) (.notAsciiChar n s)

/-- The kinds of all values are looked at before the shape of any. -/
def checkWritten : WrittenValues → Check
  | .names _ => .ok ()
  | .mapping ps => do
    checkKinds ps
    checkChars ps

/-- No name is among those before it. -/
def checkDistinctNames (seen : List String) : List String → Check
  | [] => .ok ()
  | n :: ns => do
    require (!seen.contains n) (.duplicateName n)
    checkDistinctNames (n :: seen) ns

/-- No two neighbours have one value. -/
def checkDistinctValues : List Constant → Check
  | a :: b :: cs => do
    require (a.value ≠ b.value) (.duplicateValue a.name b.name a.value)
    checkDistinctValues (b :: cs)
  | _ => .ok ()

/-- Every value lies in the range of the storage type, if that is known. -/
def checkRange (storage : String) (cs : List Constant) : Check :=
  match Storage.range? storage with
  | none => .ok ()
  | some (low, high) =>
    cs.forM fun c =>
      require (low ≤ c.value.toInt && c.value.toInt ≤ high) (.outOfRange c.name c.value storage)

end Validation

open Validation

/-- Accepts a definition, or names the first rule that it breaks. Without a storage type the values
have to fit an `int`. -/
def Definition.check (d : Definition) : Except DefinitionError Enumeration := do
  let some values := d.values | .error .noValues
  require (!values.isEmpty) .noValues
  checkName .typeName d.name
  d.scope.forM (checkName .scopeSegment)
  require (Identifier.isFileStem d.fileStem) (.badName .fileStem d.fileStem)
  values.labels.forM (checkName .constant)
  checkWritten values
  checkDistinctNames [] values.labels
  checkDistinctValues values.constants
  checkRange (d.storage.getD "int") values.constants
  d.storage.forM fun s => require (Identifier.isTypeName (Text.trim s)) (.badStorage s)
  return ⟨d, values.constants⟩

end EnumForge
