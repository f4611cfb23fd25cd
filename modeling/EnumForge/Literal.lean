import EnumForge.Definition
import EnumForge.Text.Blank

/-!
How values and included files are spelled in the generated code.
-/

namespace EnumForge.Literal

/-- The least number that is too great for a signed number of 64 bits. -/
def signedLimit : Nat := 1 <<< 63

/-- A decimal number. The least number of 64 bits has no literal of its own, and what does not fit a
signed number is marked as unsigned. -/
def integer (i : Int) : String :=
  if i = -signedLimit then "(" ++ toString (i + 1) ++ " - 1)"
  else if signedLimit ≤ i then toString i ++ "ULL"
  else toString i

/-- What stands for a character between single quotes. -/
def escape (c : Char) : List Char :=
  if c = '\x27' || c = '\\' then ['\\', c]
  else if c = '\n' then ['\\', 'n']
  else if c = '\r' then ['\\', 'r']
  else if c = '\t' then ['\\', 't']
  else if c = '\x00' then ['\\', '0']
  else if c.toNat < 32 || c.toNat = 127 then
    ['\\', 'x', Nat.digitChar (c.toNat / 16), Nat.digitChar (c.toNat % 16)]
  else [c]

def character (c : Char) : String := .ofList ('\x27' :: (escape c ++ ['\x27']))

def value : Value → String
  | .integer i => integer i
  | .char c => character c

/-- The line that includes a file. A bare path is quoted, a path in quotes or angle brackets is
taken as it is, and so is a whole line. -/
def includeLine (file : String) : String :=
  let file := Text.trim file
  if "#include".toList.isPrefixOf file.toList then file
  else if file.toList.head? = some '<' || file.toList.head? = some '\x22' then "#include " ++ file
  else "#include \"" ++ file ++ "\""

end EnumForge.Literal
