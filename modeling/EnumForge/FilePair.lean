import EnumForge.Source
import EnumForge.Validation

/-!
The two files that are generated from an enumeration.
-/

namespace EnumForge

/-- The qualified name of an enumeration and its two files, whose paths are relative to the output
directory. -/
structure FilePair where
  name : String
  headerPath : String
  header : String
  sourcePath : String
  source : String
  deriving DecidableEq

/-- Why the files cannot be made. -/
inductive RenderError
  /-- A table does not have an entry for each constant. -/
  | wrongTableSize (table : String) (expected actual : Nat)
  /-- Both files would have one name. -/
  | samePath (path : String)
  deriving DecidableEq

def RenderError.message : RenderError → String
  | wrongTableSize table expected actual =>
    s!"{table} table has {actual} entries, expected {expected}"
  | samePath path => s!"header and source would both be written to `{path}`"

/-- Both tables have as many entries as there are constants. -/
def Lookup.checkSizes (t : Lookup) (expected : Nat) : Except RenderError Unit :=
  if t.declared.length ≠ expected then
    .error (.wrongTableSize "declaration" expected t.declared.length)
  else if t.byName.length ≠ expected then
    .error (.wrongTableSize "name" expected t.byName.length)
  else .ok ()

/-- The files of an enumeration. Nothing is checked but that the files have different names. -/
def Enumeration.render (e : Enumeration) (x : Extensions) : Except RenderError FilePair := do
  let t := Lookup.ofConstants e.constants
  t.checkSizes e.constants.length
  let headerPath := x.headerFile e.definition.fileStem
  let sourcePath := x.sourceFile e.definition.fileStem
  if headerPath = sourcePath then .error (.samePath headerPath)
  return {
    name := e.definition.qualifiedName
    headerPath
    header := (Header.layout e.definition e.constants x.header).text
    sourcePath
    source := (Source.layout e.definition t headerPath).text }

end EnumForge
