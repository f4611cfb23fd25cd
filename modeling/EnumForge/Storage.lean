import EnumForge.Text.Blank

/-!
The integer types that may hold the values of an enumeration, as far as their ranges are known.
-/

namespace EnumForge.Storage

/-- The least and the greatest value of a type. -/
abbrev Range := Int × Int

def signed (bits : Nat) : Range :=
  let half : Nat := 1 <<< (bits - 1)
  (-half, half - 1)

def unsigned (bits : Nat) : Range :=
  let whole : Nat := 1 <<< bits
  (0, whole - 1)

/-- The known spellings. A plain `char` may be signed or not, so only what both hold is its range.
-/
def known : List (String × Range) := [
  ("int8_t", signed 8), ("signed char", signed 8),
  ("uint8_t", unsigned 8), ("unsigned char", unsigned 8),
  ("char", (0, 127)),
  ("int16_t", signed 16), ("short", signed 16), ("short int", signed 16),
  ("signed short", signed 16),
  ("uint16_t", unsigned 16), ("unsigned short", unsigned 16), ("unsigned short int", unsigned 16),
  ("int32_t", signed 32), ("int", signed 32), ("signed", signed 32), ("signed int", signed 32),
  ("uint32_t", unsigned 32), ("unsigned", unsigned 32), ("unsigned int", unsigned 32),
  ("int64_t", signed 64), ("long", signed 64), ("long int", signed 64), ("signed long", signed 64),
  ("long long", signed 64), ("long long int", signed 64), ("signed long long", signed 64),
  ("uint64_t", unsigned 64), ("unsigned long", unsigned 64), ("unsigned long int", unsigned 64),
  ("unsigned long long", unsigned 64), ("unsigned long long int", unsigned 64)]

/-- The text without the scope of the standard library, if it begins with it. -/
def dropStandardScope (s : String) : String :=
  let cs := s.toList
  if ['s', 't', 'd', ':', ':'].isPrefixOf cs then .ofList (cs.drop 5) else s

/-- The range of a storage type; `none` for a type that is not known. Any white space may stand
between the words and around them. -/
def range? (storage : String) : Option Range :=
  known.lookup (dropStandardScope (" ".intercalate (Text.words storage)))

/-- Whether the type is one of those that `<cstdint>` declares. -/
def needsFixedWidth (storage : String) : Bool :=
  let bare := Text.trim storage
  ['_', 't'].isSuffixOf bare.toList && (range? bare).isSome

end EnumForge.Storage
