import EnumForge.Text.Quoted

/-!
Enumerations as they are asked for: a name in a scope, the values as they were written, and the
caller's own text for the two generated files.
-/

namespace EnumForge

/-! ### Values -/

/-- A value as written: a number, or a text that should hold one character. -/
inductive WrittenValue
  | integer (i : Int)
  | text (s : String)
  deriving DecidableEq

/-- The values of an enumeration as written. A mapping is a list, so that a name written twice is
still seen. -/
inductive WrittenValues
  | names (ns : List String)
  | mapping (ps : List (String × WrittenValue))
  deriving DecidableEq

namespace WrittenValues

/-- The names in the order in which they were written. -/
def labels : WrittenValues → List String
  | names ns => ns
  | mapping ps => ps.map Prod.fst

def size (v : WrittenValues) : Nat := v.labels.length

def isEmpty (v : WrittenValues) : Bool := v.size == 0

end WrittenValues

inductive Kind
  | integer | character
  deriving DecidableEq

def Kind.text : Kind → String
  | integer => "integer"
  | character => "character"

def WrittenValue.kind : WrittenValue → Kind
  | integer _ => .integer
  | text _ => .character

/-- The value of a constant. -/
inductive Value
  | integer (i : Int)
  | char (c : Char)
  deriving DecidableEq

namespace Value

/-- The number that the compiler of the generated code sees. -/
def toInt : Value → Int
  | integer i => i
  | char c => c.toNat

/-- The value as messages show it. -/
def text : Value → String
  | integer i => toString i
  | char c => Text.quotedChar c

/-- Numbers come before characters, each kind in its own order. -/
def less : Value → Value → Bool
  | integer a, integer b => a < b
  | integer _, char _ => true
  | char _, integer _ => false
  | char a, char b => a.toNat < b.toNat

/-- Values in ascending order. -/
def sorted (vs : List Value) : List Value := vs.mergeSort fun a b => !b.less a

end Value

/-- A declared constant. -/
structure Constant where
  name : String
  value : Value
  deriving DecidableEq

/-! ### Definitions -/

structure Definition where
  name : String
  scope : List String := []
  /-- The name of both files without their extensions; the name of the enumeration by default. -/
  stem : Option String := none
  storage : Option String := none
  values : Option WrittenValues := none
  interfaceCode : Option String := none
  implementationCode : Option String := none
  interfaceIncludes : List String := []
  implementationIncludes : List String := []
  deriving DecidableEq

/-- A name behind the scopes that hold it, outermost first. -/
def qualify (scope : List String) (name : String) : String :=
  scope.foldr (fun segment rest => segment ++ "::" ++ rest) name

namespace Definition

def fileStem (d : Definition) : String := d.stem.getD d.name

def qualifiedName (d : Definition) : String := qualify d.scope d.name

def withScope (d : Definition) (segments : List String) : Definition :=
  { d with scope := segments }

def withNames (d : Definition) (ns : List String) : Definition :=
  { d with values := some (.names ns) }

def withMapping (d : Definition) (ps : List (String × WrittenValue)) : Definition :=
  { d with values := some (.mapping ps) }

def withStorage (d : Definition) (storage : String) : Definition :=
  { d with storage := some storage }

def withFileStem (d : Definition) (stem : String) : Definition := { d with stem := some stem }

end Definition

end EnumForge
