import EnumForge.Text.Utf8

/-!
Paths as texts: their steps between slashes, how two are joined, and how they are compared.
-/

namespace EnumForge.Path

/-- What stands between the slashes. Steps may be empty. -/
def steps (path : String) : List String := (path.toList.splitOn '/').map .ofList

def isAbsolute (path : String) : Bool := path.toList.head? == some '/'

/-- The second path as seen from the first. -/
def join (dir path : String) : String :=
  if isAbsolute path || dir.isEmpty then path
  else if dir.toList.getLast? == some '/' then dir ++ path
  else dir ++ "/" ++ path

/-- A step that leads somewhere. -/
inductive Part
  | root | here | up
  | name (s : String)
  deriving DecidableEq

def Part.ofStep : String → Option Part
  | "" => none
  | "." => none
  | ".." => some .up
  | s => some (.name s)

/-- The steps that lead somewhere. A dot counts only at the start. -/
def parts (path : String) : List Part :=
  let inner := (steps path).filterMap Part.ofStep
  if isAbsolute path then .root :: inner
  else if (steps path).head? = some "." then .here :: inner
  else inner

def Part.text : Part → String
  | root => "/"
  | here => "."
  | up => ".."
  | name s => s

def Part.rank : Part → Nat
  | root => 0
  | here => 1
  | up => 2
  | name _ => 3

def Part.less : Part → Part → Bool
  | name a, name b => Text.less a b
  | a, b => a.rank < b.rank

def partsLess : List Part → List Part → Bool
  | _, [] => false
  | [], _ :: _ => true
  | a :: as, b :: bs => a.less b || (a == b && partsLess as bs)

/-- The order of paths: part by part, so that what is in a directory comes before a file with a
longer name. -/
def less (a b : String) : Bool := partsLess (parts a) (parts b)

end EnumForge.Path
