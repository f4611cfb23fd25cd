/-!
Which texts may be names: identifiers of the generated code, stems of file names, and the shape of
a type name.
-/

namespace EnumForge.Identifier

def isLetter (c : Char) : Bool := ('A' ≤ c && c ≤ 'Z') || ('a' ≤ c && c ≤ 'z')

def isDigit (c : Char) : Bool := '0' ≤ c && c ≤ '9'

/-- The text begins with a character of `start` and goes on with characters of `rest`. -/
def hasShape (start rest : Char → Bool) : List Char → Bool
  | [] => false
  | c :: cs => start c && cs.all rest

/-- The words that C++ has taken. -/
def keywords : List String := [
  "alignas", "alignof", "and", "and_eq", "asm", "auto", "bitand", "bitor", "bool", "break",
  "case", "catch", "char", "char8_t", "char16_t", "char32_t", "class", "compl", "concept",
  "const", "consteval", "constexpr", "constinit", "const_cast", "continue", "co_await",
  "co_return", "co_yield", "decltype", "default", "delete", "do", "double", "dynamic_cast",
  "else", "enum", "explicit", "export", "extern", "false", "float", "for", "friend", "goto",
  "if", "inline", "int", "long", "mutable", "namespace", "new", "noexcept", "not", "not_eq",
  "nullptr", "operator", "or", "or_eq", "private", "protected", "public", "register",
  "reinterpret_cast", "requires", "return", "short", "signed", "sizeof", "static",
  "static_assert", "static_cast", "struct", "switch", "template", "this", "thread_local",
  "throw", "true", "try", "typedef", "typeid", "typename", "union", "unsigned", "using",
  "virtual", "void", "volatile", "wchar_t", "while", "xor", "xor_eq"]

/-- Macros of the headers that the generated code includes; a constant of such a name would be
replaced before it is compiled. -/
def standardMacros : List String := [
  "NULL", "EOF", "errno", "assert", "offsetof", "stdin", "stdout", "stderr",
  "BUFSIZ", "FILENAME_MAX", "SEEK_SET", "SEEK_CUR", "SEEK_END", "EXIT_SUCCESS", "EXIT_FAILURE",
  "RAND_MAX", "MB_CUR_MAX", "CHAR_BIT", "EDOM", "ERANGE", "EILSEQ", "SIZE_MAX",
  "INT8_MIN", "INT8_MAX", "INT16_MIN", "INT16_MAX", "INT32_MIN", "INT32_MAX", "INT64_MIN",
  "INT64_MAX", "UINT8_MAX", "UINT16_MAX", "UINT32_MAX", "UINT64_MAX", "INTMAX_MIN", "INTMAX_MAX",
  "UINTMAX_MAX", "INTPTR_MIN", "INTPTR_MAX", "UINTPTR_MAX", "PTRDIFF_MIN", "PTRDIFF_MAX"]

/-- Two underscores next to each other. -/
def hasDoubleUnderscore : List Char → Bool
  | a :: b :: cs => (a == '_' && b == '_') || hasDoubleUnderscore (b :: cs)
  | _ => false

/-- An underscore before a capital at the start. -/
def startsReserved : List Char → Bool
  | a :: b :: _ => a == '_' && 'A' ≤ b && b ≤ 'Z'
  | _ => false

/-- The names that C++ keeps for its implementations. -/
def isReserved (cs : List Char) : Bool := hasDoubleUnderscore cs || startsReserved cs

/-- A name that the generated code may declare. -/
def isIdentifier (s : String) : Bool :=
  hasShape (fun c => isLetter c || c == '_') (fun c => isLetter c || isDigit c || c == '_')
      s.toList &&
    !keywords.contains s && !standardMacros.contains s && !isReserved s.toList

/-- A name that both files may carry before their extensions. -/
def isFileStem (s : String) : Bool :=
  hasShape (fun c => isLetter c || isDigit c || c == '_')
    (fun c => isLetter c || isDigit c || c == '_' || c == '.' || c == '-') s.toList

/-- The shape of the name of a type, of several words or in a scope. -/
def isTypeName (s : String) : Bool :=
  hasShape (fun c => isLetter c || c == '_')
    (fun c => isLetter c || isDigit c || c == '_' || c == ':' || c == ' ') s.toList

end EnumForge.Identifier
