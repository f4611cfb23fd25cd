import EnumForge.Definition
import EnumForge.Document.Scan

/-!
Writing definition documents: the definitions in an object, each an object of its fields. What is
missing in a definition is left out of the document.
-/

namespace EnumForge.Document

open Text (Bytes)

/-! ### Parts -/

/-- The lower-case hexadecimal digit of a number below 16. -/
def hexDigit (n : Nat) : UInt8 := ascii n.digitChar

/-- A character in a text. A quote and a backslash get a backslash, a control is written by its
number. -/
def writeChar (c : Char) : Bytes :=
  if c = '\x22' || c = '\\' then [ascii '\\', ascii c]
  else if c.toNat < 32 then
    Text.bytes "\\u00" ++ [hexDigit (c.toNat / 16), hexDigit (c.toNat % 16)]
  else String.utf8EncodeChar c

def writeText (s : String) : Bytes :=
  ascii '\x22' :: (s.toList.flatMap writeChar ++ [ascii '\x22'])

/-- Items between commas. -/
def separated (items : List Bytes) : Bytes := [ascii ','].intercalate items

def writeArray (items : List Bytes) : Bytes := ascii '[' :: (separated items ++ [ascii ']'])

def writeTexts (texts : List String) : Bytes := writeArray (texts.map writeText)

/-- A member of an object; its value is written already. -/
def writeMember (member : String × Bytes) : Bytes :=
  writeText member.1 ++ ascii ':' :: member.2

/-- An object with its members in their order, whether their names differ or not. -/
def writeObject (members : List (String × Bytes)) : Bytes :=
  ascii '\x7b' :: (separated (members.map writeMember) ++ [ascii '\x7d'])

/-! ### Definitions -/

def writeWrittenValue : WrittenValue → Bytes
  | .integer i => Text.bytes (toString i)
  | .text s => writeText s

def writeWrittenValues : WrittenValues → Bytes
  | .names ns => writeTexts ns
  | .mapping ps => writeObject (ps.map fun (n, v) => (n, writeWrittenValue v))

/-- A field that may be missing. -/
def optionalField {α : Type} (name : String) (write : α → Bytes) (value : Option α) :
    List (String × Bytes) :=
  value.toList.map fun x => (name, write x)

/-- The fields of a definition. Lists are written even if they are empty. -/
def fields (d : Definition) : List (String × Bytes) :=
  [("name", writeText d.name), ("namespace", writeTexts d.scope)] ++
    optionalField "file" writeText d.stem ++
    optionalField "storage" writeText d.storage ++
    optionalField "values" writeWrittenValues d.values ++
    optionalField "interface_code" writeText d.interfaceCode ++
    optionalField "implementation_code" writeText d.implementationCode ++
    [("interface_includes", writeTexts d.interfaceIncludes),
      ("implementation_includes", writeTexts d.implementationIncludes)]

def writeDefinition (d : Definition) : Bytes := writeObject (fields d)

/-- The document that holds the definitions. -/
def writeDefinitions (ds : List Definition) : Bytes :=
  writeObject [("enums", writeArray (ds.map writeDefinition))]

end EnumForge.Document
