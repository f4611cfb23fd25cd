import EnumForge.Definition
import EnumForge.Document.Value

/-!
Definition documents: a list of definitions in an object or an array. A definition is an object too,
or an array of its fields in their order.
-/

namespace EnumForge.Document

open Text (Bytes)

/-- How many arrays and objects may be open at once. -/
def greatestDepth : Nat := 127

/-- The value of one constant. The form of an array or object does not matter, only its beginning is
read. -/
def readWrittenValue : Reader WrittenValue := fun s =>
  match skipBlanks s with
  | [] => .error (.before .endInValue [])
  | b :: r =>
    if b = ascii '-' || Numeral.isDigit b then
      match readNumeral (b :: r) with
      | .error f => .error f
      | .ok (.integer i, rest) => .ok (.integer i, rest)
      | .ok (n, rest) => .error (.behind (.wrongType n.found .value) rest)
    else if b = ascii '\x22' then (readText r).map fun (t, rest) => (.text t, rest)
    else if b = ascii '[' then .error (.behind (.wrongType .array .value) (leaveArray r))
    else if b = ascii '\x7b' then .error (.behind (.wrongType .object .value) (leaveObject r))
    else .error (mismatch .value (b :: r))

/-- The values of a definition: a list of names, one name alone, or a mapping. -/
def readWrittenValues : Reader WrittenValues := fun s =>
  match skipBlanks s with
  | [] => .error (.before .endInValue [])
  | b :: r =>
    if b = ascii '\x22' then (readText r).map fun (t, rest) => (.names [t], rest)
    else if b = ascii '[' then (readArray readTextValue r).map fun (ns, rest) => (.names ns, rest)
    else if b = ascii '\x7b' then do
      let member (ps : List (String × WrittenValue)) (key : String) :
          Reader (List (String × WrittenValue)) := fun s => do
        let (v, s) ← readMemberValue key readWrittenValue s
        return ((key, v) :: ps, s)
      let (ps, s) ← readMembers member [] r
      return (.mapping ps.reverse, ← closeObject s)
    else .error (mismatch .values (b :: r))

def readScope (depth : Nat) : Reader (List String) := fun s => do
  let (content, s) ← readContent depth s
  match content.scope? with
  | some segments => .ok (segments, s)
  | none => .error (.unplaced .notScope s)

/-! ### Definitions -/

/-- The fields of a definition that have been read. -/
structure Draft where
  name : Option String := none
  scope : Option (List String) := none
  stem : Option (Option String) := none
  storage : Option (Option String) := none
  values : Option (Option WrittenValues) := none
  interfaceCode : Option (Option String) := none
  implementationCode : Option (Option String) := none
  interfaceIncludes : Option (List String) := none
  implementationIncludes : Option (List String) := none

/-- The definition, if it has a name. Every other field may be missing. -/
def Draft.finish? (d : Draft) : Option Definition :=
  d.name.map fun name => {
    name
    scope := d.scope.getD []
    stem := d.stem.getD none
    storage := d.storage.getD none
    values := d.values.getD none
    interfaceCode := d.interfaceCode.getD none
    implementationCode := d.implementationCode.getD none
    interfaceIncludes := d.interfaceIncludes.getD []
    implementationIncludes := d.implementationIncludes.getD [] }

def definitionFields : List String := [
  "name", "namespace", "file", "storage", "values", "interface_code", "implementation_code",
  "interface_includes", "implementation_includes"]

/-- Reads a field that has not been read before. -/
def readField {α : Type} (slot : Option α) (key : String) (value : Reader α) : Reader α := fun s =>
  if slot.isSome then .error (.unplaced (.duplicateField key) s) else readMemberValue key value s

/-- A member of a definition; `depth` is left for what is inside. -/
def readDefinitionMember (depth : Nat) (d : Draft) (key : String) : Reader Draft := fun s =>
  let optionalText := readOptional readTextValue
  match key with
  | "name" =>
    (readField d.name key readTextValue s).map fun (x, s) => ({ d with name := some x }, s)
  | "namespace" =>
    (readField d.scope key (readScope depth) s).map fun (x, s) => ({ d with scope := some x }, s)
  | "file" => (readField d.stem key optionalText s).map fun (x, s) => ({ d with stem := some x }, s)
  | "storage" =>
    (readField d.storage key optionalText s).map fun (x, s) => ({ d with storage := some x }, s)
  | "values" =>
    (readField d.values key (readOptional readWrittenValues) s).map fun (x, s) =>
      ({ d with values := some x }, s)
  | "interface_code" =>
    (readField d.interfaceCode key optionalText s).map fun (x, s) =>
      ({ d with interfaceCode := some x }, s)
  | "implementation_code" =>
    (readField d.implementationCode key optionalText s).map fun (x, s) =>
      ({ d with implementationCode := some x }, s)
  | "interface_includes" =>
    (readField d.interfaceIncludes key readTexts s).map fun (x, s) =>
      ({ d with interfaceIncludes := some x }, s)
  | "implementation_includes" =>
    (readField d.implementationIncludes key readTexts s).map fun (x, s) =>
      ({ d with implementationIncludes := some x }, s)
  | _ => under (.key key) (.error (.unplaced (.unknownField key definitionFields) s))

/-- The element of an array at a position, or what stands for it if the array is shorter. -/
def readElementOr {α : Type} (index : Nat) (missing : α) (value : Reader α) : Reader α :=
  fun s => do
    let (more, s) ← nextElement (index == 0) s
    if more then under (.index index) (value s) else .ok (missing, s)

/-- The elements of a definition that is written as an array. -/
def readDefinitionElements (depth : Nat) : Reader Definition := fun s => do
  let optionalText := readOptional readTextValue
  let (name, s) ← readElementOr 0 none (fun s => (readTextValue s).map fun (t, s) => (some t, s)) s
  let some name := name | .error (.unplaced .missingElement s)
  let (scope, s) ← readElementOr 1 [] (readScope depth) s
  let (stem, s) ← readElementOr 2 none optionalText s
  let (storage, s) ← readElementOr 3 none optionalText s
  let (values, s) ← readElementOr 4 none (readOptional readWrittenValues) s
  let (interfaceCode, s) ← readElementOr 5 none optionalText s
  let (implementationCode, s) ← readElementOr 6 none optionalText s
  let (interfaceIncludes, s) ← readElementOr 7 [] readTexts s
  let (implementationIncludes, s) ← readElementOr 8 [] readTexts s
  return ({ name, scope, stem, storage, values, interfaceCode, implementationCode,
            interfaceIncludes, implementationIncludes }, s)

def readDefinitionMembers (depth : Nat) : Reader Definition := fun s => do
  let (draft, s) ← readMembers (readDefinitionMember depth) {} s
  match draft.finish? with
  | some d => .ok (d, s)
  | none => .error (.unplaced .missingName s)

/-- A record whose opening bracket or brace has been read is closed. -/
def inRecord {α : Type} (body : Reader α) (close : Bytes → Except Fault Bytes)
    (leave : Bytes → Bytes) : Reader α := fun s => do
  let (x, s) ← (body s).mapError (·.place leave)
  return (x, ← close s)

/-- A record in either form. -/
def readRecord {α : Type} (wanted : Wanted) (elements members : Reader α) : Reader α := fun s =>
  match skipBlanks s with
  | [] => .error (.before .endInValue [])
  | b :: r =>
    if b = ascii '[' then inRecord elements closeArray leaveArray r
    else if b = ascii '\x7b' then inRecord members closeObject leaveObject r
    else .error (mismatch wanted (b :: r))

/-- A definition; `depth` counts the record itself. -/
def readDefinition (depth : Nat) : Reader Definition :=
  readRecord .definition (readDefinitionElements (depth - 1)) (readDefinitionMembers (depth - 1))

/-! ### Files -/

def readDefinitions (depth : Nat) : Reader (List Definition) := fun s =>
  match skipBlanks s with
  | [] => .error (.before .endInValue [])
  | b :: r =>
    if b = ascii '[' then readArray (readDefinition (depth - 1)) r
    else .error (mismatch .array (b :: r))

def readFileMember (depth : Nat) (ds : Option (List Definition)) (key : String) :
    Reader (Option (List Definition)) := fun s =>
  if key = "enums" then
    (readField ds key (readDefinitions depth) s).map fun (x, s) => (some x, s)
  else under (.key key) (.error (.unplaced (.unknownField key ["enums"]) s))

/-- A file holds one list of definitions, which may be missing. -/
def readFile (depth : Nat) : Reader (List Definition) :=
  readRecord .file (readElementOr 0 [] (readDefinitions (depth - 1))) fun s => do
    let (ds, s) ← readMembers (readFileMember (depth - 1)) none s
    return (ds.getD [], s)

/-! ### Whole documents -/

/-- Reads a document that holds one value and nothing behind it but blanks. -/
def parse {α : Type} (value : Reader α) (document : Bytes) : Except DocumentError α :=
  let result : Except Fault α := do
    let (x, rest) ← value document
    let rest := skipBlanks rest
    if rest.isEmpty then .ok x else .error (.before .trailingCharacters rest)
  result.mapError (·.report document)

def parseValues : Bytes → Except DocumentError WrittenValues := parse readWrittenValues

def parseDefinition : Bytes → Except DocumentError Definition :=
  parse (readDefinition greatestDepth)

/-- The definitions of a file. -/
def parseDefinitions : Bytes → Except DocumentError (List Definition) :=
  parse (readFile greatestDepth)

end EnumForge.Document
