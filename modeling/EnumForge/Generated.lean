import EnumForge.Definition

/-!
What both generated files of an enumeration share: their names and the names that they derive.
-/

namespace EnumForge

/-- The extensions of the two files, without the dot. -/
structure Extensions where
  header : String := "hpp"
  source : String := "cpp"
  deriving DecidableEq

namespace Extensions

def headerFile (x : Extensions) (stem : String) : String := stem ++ "." ++ x.header

def sourceFile (x : Extensions) (stem : String) : String := stem ++ "." ++ x.source

end Extensions

namespace Generated

/-- The first line of both files. -/
def banner : String := "// Generated by enumgen. Do not edit."

/-- The exception that a look-up of an unknown name throws. -/
def lookupError (name : String) : String := name ++ "LookupError"

/-- The namespace of the tables, inside an unnamed one. -/
def tablesNamespace (name : String) : String := name ++ "_tables"

/-- The type spelled from the outermost scope. Where a helper could hide its plain name, this is
used. -/
def globalName (d : Definition) : String := "::" ++ d.qualifiedName

end Generated

end EnumForge
