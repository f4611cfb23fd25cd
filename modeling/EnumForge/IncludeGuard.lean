import EnumForge.Identifier

/-!
The macro that keeps a header from being read twice. Its name tells scope, name and extension apart
whatever they are, and is never one that C++ keeps for itself.
-/

namespace EnumForge.IncludeGuard

/-- The upper-case hexadecimal digit of a number below 16. -/
def hexDigit (n : Nat) : Char := if n < 10 then .ofNat (48 + n) else .ofNat (55 + n)

/-- The last `count` hexadecimal digits of a number. -/
def hexDigits : Nat → Nat → List Char
  | 0, _ => []
  | count + 1, n => hexDigits count (n / 16) ++ [hexDigit (n % 16)]

/-- Letters and digits stand for themselves, except `Z`, which begins the code of all others. -/
def encodeChar (c : Char) : List Char :=
  if c = 'Z' then ['Z', 'Z']
  else if c = '_' then ['Z', 'U']
  else if Identifier.isLetter c || Identifier.isDigit c then [c]
  else 'Z' :: 'X' :: hexDigits 6 c.toNat

def encode (part : String) : List Char := part.toList.flatMap encodeChar

/-- The codes of all parts that are not empty, joined by underscores. -/
def ofParts (scope : List String) (name extension : String) : String :=
  .ofList (['_'].intercalate
    (((scope ++ [name, extension]).filter (!·.isEmpty)).map encode))

end EnumForge.IncludeGuard
