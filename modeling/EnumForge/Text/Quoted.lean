import EnumForge.Text.Unprintable

/-!
Texts and characters in quotes, as messages show them.
-/

namespace EnumForge.Text

/-- The lower-case hexadecimal digits of a number. -/
def hex (n : Nat) : String := .ofList (Nat.toDigits 16 n)

/-- The mark, the backslash and the common controls get a backslash, what cannot be shown is written
by its number. -/
def escaped (mark c : Char) : String :=
  if c = '\x00' then "\\0"
  else if c = '\t' then "\\t"
  else if c = '\r' then "\\r"
  else if c = '\n' then "\\n"
  else if c = '\\' || c = mark then .ofList ['\\', c]
  else if isUnprintable c then "\\u\x7b" ++ hex c.toNat ++ "\x7d"
  else c.toString

/-- A text in double quotes. -/
def quoted (s : String) : String :=
  "\"" ++ String.join (s.toList.map (escaped '\x22')) ++ "\""

/-- A character in single quotes. -/
def quotedChar (c : Char) : String := "\x27" ++ escaped '\x27' c ++ "\x27"

end EnumForge.Text
