import EnumForge.CommandLine.Arguments
import EnumForge.Document.Definitions
import EnumForge.PathPattern.Search
import EnumForge.Publish

/-!
What the commands do on a disk. All definitions are loaded and generated before anything is written
or printed.
-/

namespace EnumForge.CommandLine

/-- Why a run fails. -/
inductive RunError
  | badPattern (e : PathPattern.SearchError)
  | noMatch (pattern : String)
  | unreadable (path : String) (cause : FileError)
  | unparsable (path : String) (cause : Document.DocumentError)
  | batch (e : BatchError)
  | noDefinition (name : String)
  | unwritable (name : String) (e : PublishError)
  | failures (count : Nat)
  deriving DecidableEq

/-- An error with its causes behind it. -/
def RunError.message : RunError → String
  | badPattern e => "failed to resolve input file paths: " ++ e.message
  | noMatch pattern =>
    s!"failed to resolve input file paths: glob pattern matched no files: {pattern}"
  | unreadable path cause => s!"failed to read {path}: {cause.message}"
  | unparsable path cause => s!"failed to parse {path}: {cause.message}"
  | batch e => e.message
  | noDefinition name => s!"no definition named `{name}`"
  | unwritable name e => s!"failed to write {name}: {e.message}: {e.cause.message}"
  | failures count => s!"{count} definition(s) failed"

/-! ### Loading -/

/-- The paths that an input stands for. A pattern has to stand for some. -/
def resolveInput (d : Disk) (input : String) : Except RunError (List String) :=
  if isPathPattern input then
    match d.matchPattern input with
    | .error e => .error (.badPattern e)
    | .ok [] => .error (.noMatch input)
    | .ok paths => .ok paths
  else .ok [input]

def resolveInputs (d : Disk) (inputs : List String) : Except RunError (List String) :=
  (inputs.mapM (resolveInput d)).map List.flatten

/-- The definitions of one file. -/
def loadFile (d : Disk) (path : String) : Except RunError Batch := do
  let content ← (d.read path).mapError (.unreadable path)
  (Document.parseDefinitions content).mapError (.unparsable path)

/-- The definitions of all files, in the order of the inputs. -/
def load (d : Disk) (inputs : List String) : Except RunError Batch := do
  let paths ← resolveInputs d inputs
  (paths.mapM (loadFile d)).map List.flatten

/-! ### Running -/

/-- What a run leaves: its own texts for the two output streams, the error that it ends in, and the
disk. The lines of the log, which go to the error stream as well, are left out. -/
structure Result where
  output : String := ""
  errors : String := ""
  failure : Option RunError := none
  disk : Disk
  deriving DecidableEq

def Result.exitCode (r : Result) : Nat := if r.failure.isSome then 1 else 0

/-- A run that fails before it has done anything. -/
def Result.failed (d : Disk) (e : RunError) : Result := { failure := some e, disk := d }

/-- Reports the definitions that failed; one is enough for the run to fail. -/
def Result.finish (r : Result) (report : Report) : Result :=
  { r with
    errors := r.errors ++ String.join (report.failures.map fun f => s!"error: {f.message}\n")
    failure :=
      if report.isSuccess then r.failure else some (.failures report.failures.length) }

/-- Writes pairs one after another, up to the first that cannot be written. -/
def publishAll (d : Disk) (dir : String) : List FilePair → Except RunError Unit × Disk
  | [] => (.ok (), d)
  | pair :: rest =>
    match d.publish dir pair with
    | (.error e, d) => (.error (.unwritable pair.name e), d)
    | (.ok _, d) => publishAll d dir rest

/-- Both files of a pair under their paths. -/
def printed (pair : FilePair) : String :=
  s!"// ---- {pair.headerPath} ----\n" ++ pair.header ++
    s!"// ---- {pair.sourcePath} ----\n" ++ pair.source

/-- The definitions that have a name, qualified or not. -/
def select (b : Batch) (name : String) : Batch :=
  b.filter fun d => d.name = name || d.qualifiedName = name

def selected (b : Batch) : Option String → Except RunError Batch
  | none => .ok b
  | some name =>
    if (select b name).isEmpty then .error (.noDefinition name) else .ok (select b name)

/-- What a command makes of its inputs before it writes or prints anything. -/
def prepare (d : Disk) (v : Invocation) : Except RunError Report := do
  let b ← load d v.inputs
  match v.command with
  | .generate _ policy => (b.generate v.extensions policy).mapError .batch
  | .check => (b.generate v.extensions .keepGoing).mapError .batch
  | .print name => do
    let b ← selected b name
    (b.generate v.extensions .stopAtFirst).mapError .batch

def run (d : Disk) (v : Invocation) : Result :=
  match prepare d v with
  | .error e => .failed d e
  | .ok report =>
    match v.command with
    | .generate dir _ =>
      match publishAll d dir report.pairs with
      | (.error e, d) => .failed d e
      | (.ok (), d) => ({ disk := d } : Result).finish report
    | .check =>
      let lines := report.pairs.map fun pair => s!"ok {pair.name}\n"
      ({ output := String.join lines, disk := d } : Result).finish report
    | .print _ => { output := String.join (report.pairs.map printed), disk := d }

end EnumForge.CommandLine
