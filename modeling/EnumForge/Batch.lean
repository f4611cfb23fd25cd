import EnumForge.FilePair

/-!
Many definitions at once. Each goes its own way from check to files; what they share is the output
directory, so no two of them may write one file.
-/

namespace EnumForge

/-- What to do when a definition fails. -/
inductive FailurePolicy
  | stopAtFirst | keepGoing
  deriving DecidableEq

inductive FailureCause
  | definition (e : DefinitionError)
  | render (e : RenderError)
  deriving DecidableEq

def FailureCause.message : FailureCause → String
  | definition e => e.message
  | render e => e.message

/-- The failure of one definition, with its qualified name. -/
structure Failure where
  name : String
  cause : FailureCause
  deriving DecidableEq

def Failure.message (f : Failure) : String := f.name ++ ": " ++ f.cause.message

inductive BatchError
  /-- Two definitions would write one file. -/
  | collision (path first second : String)
  | failed (f : Failure)
  deriving DecidableEq

def BatchError.message : BatchError → String
  | collision path first second => s!"`{first}` and `{second}` would both write {path}"
  | failed f => f.message

/-- What came of the definitions, each list in their order. -/
structure Report where
  pairs : List FilePair := []
  failures : List Failure := []
  deriving DecidableEq

def Report.isSuccess (r : Report) : Bool := r.failures.isEmpty

/-- The two files of one definition. -/
def Definition.generate (d : Definition) (x : Extensions) : Except Failure FilePair :=
  match d.check with
  | .error e => .error ⟨d.qualifiedName, .definition e⟩
  | .ok e =>
    match e.render x with
    | .error e => .error ⟨d.qualifiedName, .render e⟩
    | .ok pair => .ok pair

abbrev Batch := List Definition

namespace Batch

/-- The files that a definition writes, each once. -/
def filesOf (x : Extensions) (d : Definition) : List String :=
  let header := x.headerFile d.fileStem
  let source := x.sourceFile d.fileStem
  if header = source then [header] else [header, source]

/-- Enters the files of one definition into the table of owners, unless one of them has an owner. -/
def claimFiles (name : String) (owners : List (String × String)) :
    List String → Except BatchError (List (String × String))
  | [] => .ok owners
  | path :: rest =>
    match owners.lookup path with
    | some first => .error (.collision path first name)
    | none => claimFiles name ((path, name) :: owners) rest

def checkFilesFrom (x : Extensions) (owners : List (String × String)) :
    Batch → Except BatchError Unit
  | [] => .ok ()
  | d :: ds => do
    let owners ← claimFiles d.name owners (filesOf x d)
    checkFilesFrom x owners ds

/-- No two definitions write one file. -/
def checkFiles (b : Batch) (x : Extensions) : Except BatchError Unit := checkFilesFrom x [] b

/-- Sorts the results; the first failure ends it unless the policy is to keep going. -/
def collect (policy : FailurePolicy) :
    List (Except Failure FilePair) → Except BatchError Report
  | [] => .ok {}
  | .ok pair :: rest => do
    let r ← collect policy rest
    return { r with pairs := pair :: r.pairs }
  | .error f :: rest =>
    match policy with
    | .stopAtFirst => .error (.failed f)
    | .keepGoing => do
      let r ← collect policy rest
      return { r with failures := f :: r.failures }

/-- Generates all definitions, after a look at the names of their files. -/
def generate (b : Batch) (x : Extensions) (policy : FailurePolicy) : Except BatchError Report := do
  b.checkFiles x
  collect policy (b.map (·.generate x))

end Batch

end EnumForge
