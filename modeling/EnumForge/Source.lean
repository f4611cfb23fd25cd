import EnumForge.Header
import EnumForge.Lookup

/-!
The source file of an enumeration: a table of names by value and a table of values by name, the
look-ups in them, and the stream operators.
-/

namespace EnumForge.Source

open Generated

def includes (d : Definition) (headerFile : String) : Layout := .all [
  .line s!"#include \"{headerFile}\"",
  .blank,
  .line "#include <algorithm>",
  .line "#include <cstddef>",
  .line "#include <cstring>",
  .line "#include <istream>",
  .line "#include <iterator>",
  .line "#include <ostream>",
  Header.callerIncludes d.implementationIncludes,
  .blank]

/-- The names in the order of declaration, inside a function so that no other static object can see
them too early. -/
def displayNames (name : String) (t : Lookup) : Layout :=
  .block "std::string const & display_name(std::size_t index)" "\x7d" (.all [
    .line "static std::string const names[] =",
    .block "" "\x7d;" (.list (t.declared.map fun c => s!"\"{c.name}\"")),
    .line (s!"static_assert(sizeof(names) / sizeof(names[0]) == {t.size}, " ++
      s!"\"display names out of sync with {name}\");"),
    .line "return names[index];"])

def entryType (globalName : String) : Layout :=
  .block "struct Entry" "\x7d;" (.all [
    .line "char const * name;",
    .line s!"{globalName} value;"])

/-- The entry of a constant. The type is spelled in full, since a helper may have its plain name. -/
def entry (globalName : String) (c : Constant) : String :=
  s!"\x7b \"{c.name}\", {globalName}::{c.name} \x7d"

def entryTable (name globalName : String) (t : Lookup) : Layout := .all [
  .line "Entry const by_name[] =",
  .block "" "\x7d;" (.list (t.byName.map (entry globalName))),
  .line (s!"static_assert(sizeof(by_name) / sizeof(by_name[0]) == {t.size}, " ++
    s!"\"name table out of sync with {name}\");")]

/-- The order of names that sorts the table and searches it. -/
def nameOrder : Layout :=
  .block "bool name_less(char const * lhs, char const * rhs)" "\x7d"
    (.line "return std::strcmp(lhs, rhs) < 0;")

def tables (d : Definition) (t : Lookup) : Layout := .all [
  .line "namespace",
  .line "\x7b",
  .block s!"namespace {tablesNamespace d.name}" "\x7d" (.all [
    displayNames d.name t,
    .blank,
    entryType (globalName d),
    .blank,
    entryTable d.name (globalName d) t,
    .blank,
    nameOrder]),
  .line "\x7d"]

def lookupErrorMembers (d : Definition) : Layout :=
  let error := lookupError d.name
  .all [
    .line s!"{error}::{error}(std::string const & name)",
    .line s!"  : std::invalid_argument(\"unknown {d.qualifiedName} name: \" + name)",
    .line "  , name_(name)",
    .line "\x7b",
    .line "\x7d",
    .blank,
    .block s!"std::string const & {error}::name() const" "\x7d" (.line "return name_;")]

def nameToValue (name : String) : Layout :=
  let tables := tablesNamespace name
  let error := lookupError name
  .all [
    .line "template <>",
    .block s!"{name} name_to_value<{name}>(std::string const & name)" "\x7d" (.all [
      .line s!"{tables}::Entry const * first = std::begin({tables}::by_name);",
      .line s!"{tables}::Entry const * last = std::end({tables}::by_name);",
      .line s!"{tables}::Entry const * found = std::lower_bound(",
      .line "  first, last, name.c_str(),",
      .line (s!"  []({tables}::Entry const & entry, char const * key) " ++
        s!"\x7b return {tables}::name_less(entry.name, key); \x7d);"),
      .block s!"if (found == last || {tables}::name_less(name.c_str(), found->name))" "\x7d"
        (.line s!"throw {error}(name);"),
      .line "return found->value;"])]

/-- One case for each constant and no default, so that a compiler can tell when one is missing. -/
def cases (name : String) (t : Lookup) : Layout :=
  .all (t.declared.zipIdx.map fun (c, i) =>
    .line s!"case {name}::{c.name}: return {tablesNamespace name}::display_name({i});")

def valueToName (d : Definition) (t : Lookup) : Layout :=
  .block s!"std::string const & value_to_name({d.name} value)" "\x7d" (.all [
    .block "switch (value)" "\x7d" (cases d.name t),
    .line (s!"throw std::out_of_range(\"value_to_name: not a declared {d.qualifiedName} " ++
      "constant\");")])

def streamOperators (name : String) : Layout := .all [
  .block s!"std::ostream & operator<<(std::ostream & os, {name} value)" "\x7d"
    (.line "return os << value_to_name(value);"),
  .blank,
  .block s!"std::istream & operator>>(std::istream & is, {name} & value)" "\x7d" (.all [
    .line "std::string token;",
    .block "if (is >> token)" "\x7d" (.line s!"value = name_to_value<{name}>(token);"),
    .line "return is;"])]

def layout (d : Definition) (t : Lookup) (headerFile : String) : Layout := .all [
  .line banner,
  .blank,
  includes d headerFile,
  .openScope d.scope,
  tables d t,
  .blank,
  lookupErrorMembers d,
  .blank,
  nameToValue d.name,
  .blank,
  valueToName d t,
  .blank,
  streamOperators d.name,
  .blank,
  Header.callerCode d.implementationCode,
  .closeScope d.scope]

end EnumForge.Source
