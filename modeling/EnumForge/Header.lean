import EnumForge.Generated
import EnumForge.IncludeGuard
import EnumForge.Layout
import EnumForge.Literal
import EnumForge.Storage

/-!
The header of an enumeration: its constants, the look-ups in both directions, and how it is read
from and written to streams.
-/

namespace EnumForge.Header

open Generated

/-- The lines that open and close the guard stand around the whole text. -/
def guarded (guard : String) (body : Layout) : Layout := .all [
  .line banner,
  .blank,
  .line s!"#ifndef {guard}",
  .line s!"#define {guard}",
  .blank,
  body,
  .line s!"#endif // {guard}"]

/-- The lines for files that the caller wants included, apart from those before. -/
def callerIncludes (files : List String) : Layout :=
  if files.isEmpty then .empty
  else .blank ++ .all (files.map fun f => .line (Literal.includeLine f))

def includes (d : Definition) : Layout := .all [
  if d.storage.any Storage.needsFixedWidth then .line "#include <cstdint>" else .empty,
  .line "#include <iosfwd>",
  .line "#include <stdexcept>",
  .line "#include <string>",
  callerIncludes d.interfaceIncludes,
  .blank]

def enumerator (c : Constant) : String := s!"{c.name} = " ++ Literal.value c.value

/-- The enumeration type with its constants in the order of their declaration. -/
def enumeration (d : Definition) (cs : List Constant) : Layout :=
  let head :=
    match d.storage with
    | some storage => s!"enum class {d.name} : " ++ Text.trim storage
    | none => s!"enum class {d.name}"
  .block head "\x7d;" (.list (cs.map enumerator))

def lookupErrorClass (name : String) : Layout :=
  let error := lookupError name
  .block s!"class {error} : public std::invalid_argument" "\x7d;" (.all [
    .label "public:",
    .line s!"explicit {error}(std::string const & name);",
    .line "std::string const & name() const;",
    .blank,
    .label "private:",
    .line "std::string name_;"])

/-- Every enumeration specialises one template, which is declared over and over. -/
def lookups (name : String) : Layout := .all [
  .line "template <typename Enum>",
  .line "Enum name_to_value(std::string const & name);",
  .blank,
  .line "template <>",
  .line s!"{name} name_to_value<{name}>(std::string const & name);",
  .blank,
  .line s!"std::string const & value_to_name({name} value);",
  .blank]

/-- The caller's own text, unchanged, and a blank line; nothing without a text. -/
def callerCode : Option String → Layout
  | some code => .verbatim code ++ .blank
  | none => .empty

def streamOperators (name : String) : Layout := .all [
  .line s!"std::ostream & operator<<(std::ostream & os, {name} value);",
  .line s!"std::istream & operator>>(std::istream & is, {name} & value);",
  .blank]

def layout (d : Definition) (cs : List Constant) (extension : String) : Layout :=
  guarded (IncludeGuard.ofParts d.scope d.name extension) (.all [
    includes d,
    .openScope d.scope,
    enumeration d cs,
    .blank,
    lookupErrorClass d.name,
    .blank,
    lookups d.name,
    callerCode d.interfaceCode,
    streamOperators d.name,
    if d.scope.isEmpty then .empty else .closeScope d.scope ++ .blank])

end EnumForge.Header
