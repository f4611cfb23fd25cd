import EnumForge.CommandLine.Run

/-!
The program. It copies what a run can see of the file system, runs on the copy, and carries out what
the run has changed.
-/

namespace EnumForge.CommandLine

def usage : String :=
  "Usage: enumgen [-v] <generate|check|print> <input>... [options]\n\n" ++
    "  generate  writes a header and a source file for each definition\n" ++
    "  check     looks at definitions and writes nothing\n" ++
    "  print     writes the generated files to standard output\n\n" ++
    "  --header-ext <ext>    extension of headers (hpp)\n" ++
    "  --source-ext <ext>    extension of source files (cpp)\n" ++
    "  -o, --out-dir <dir>   where generate writes (.)\n" ++
    "  --keep-going          generate goes on after a definition that fails\n" ++
    "  --name <name>         print writes this definition only\n" ++
    "  -v, --verbose         counted\n"

def UsageError.message : UsageError → String
  | help => usage
  | version => "enumgen 0.1.0\n"
  | nothing => usage
  | missingCommand => "error: a command is missing\n\n" ++ usage
  | missingInput => "error: no input is given\n\n" ++ usage
  | unknownCommand => "error: there is no such command\n\n" ++ usage
  | unknownArgument => "error: unexpected argument\n\n" ++ usage
  | repeatedArgument => "error: an argument is given twice\n\n" ++ usage
  | invalidValue => "error: an option has no value or a wrong one\n\n" ++ usage
  | unexpectedValue => "error: a flag has a value\n\n" ++ usage

/-! ### Copying from the file system -/

/-- How deep directories can be, as paths have at most 4096 bytes. -/
def greatestLevel : Nat := 2048

/-- Copies what is at a place and `levels` levels below it. What cannot be read is left out. -/
def copyPlace (d : Disk) (p : Place) (levels : Nat) : IO Disk := do
  let path := System.mkFilePath [placePath p]
  if ← path.isDir then
    let d := if p.isEmpty then d else d.enter p .directory
    match levels with
    | 0 => return d
    | levels + 1 =>
      let found ← path.readDir.toBaseIO
      match found with
      | .error _ => return d
      | .ok names => names.toList.foldlM (fun d e => copyPlace d (p ++ [e.fileName]) levels) d
  else
    match ← (IO.FS.readBinFile path).toBaseIO with
    | .error _ => return d
    | .ok content => return d.enter p (.file content.toList)

/-- Copies all that a path leads through, and `levels` levels below its end. -/
def copyPath (d : Disk) (path : String) (levels : Nat) : IO Disk := do
  let mut d := d
  let mut p := if Path.isAbsolute path then [] else d.current
  for step in Path.steps path do
    if step = ".." then p := p.dropLast
    else if step ≠ "" && step ≠ "." then
      p := p ++ [step]
      d ← copyPlace d p 0
  copyPlace d p levels

/-- The steps of a path pattern up to the first that is not a plain name. -/
def plainBeginning (pattern : String) : String :=
  "/".intercalate ((Path.steps pattern).takeWhile fun step => !isPathPattern step)

/-- The paths that a run can look at, with the number of levels below each. -/
def visible (v : Invocation) : List (String × Nat) :=
  let inputs := v.inputs.map fun input =>
    if isPathPattern input then
      let start := plainBeginning input
      let levels := (Path.steps input).length - (Path.steps start).length + 1
      (if Path.isAbsolute input then "/" ++ start else start,
        if (Path.steps input).contains "**" then greatestLevel else levels)
    else (input, 0)
  match v.command with
  | .generate dir _ => (dir, 1) :: inputs
  | _ => inputs

def copyVisible (v : Invocation) : IO Disk := do
  let current ← IO.currentDir
  let empty : Disk := {}
  let place := empty.placeOf current.toString
  let d := if place.isEmpty then empty else { empty.enter place .directory with current := place }
  (visible v).foldlM (fun d (path, levels) => copyPath d path levels) d

/-! ### Changing the file system -/

/-- The entries that were not there before, what leads to them first. -/
def newEntries (before after : Disk) : List (Place × Entry) :=
  (after.entries.filter fun (p, e) => before.get? p != some e).mergeSort
    fun a b => a.1.length ≤ b.1.length

/-- Makes one change. A file is finished beside its place before it is moved there. -/
def carryOut (p : Place) (e : Entry) : IO Unit := do
  match e with
  | .directory => IO.FS.createDirAll (placePath p)
  | .file content =>
    let unfinished := placePath p ++ ".unfinished"
    IO.FS.writeBinFile unfinished (ByteArray.mk content.toArray)
    IO.FS.rename unfinished (placePath p)

/-- Runs a command and gives back its exit code. -/
def execute (v : Invocation) : IO UInt32 := do
  let d ← copyVisible v
  let result := run d v
  (newEntries d result.disk).forM fun (p, e) => carryOut p e
  IO.print result.output
  IO.eprint result.errors
  if let some e := result.failure then IO.eprintln ("error: " ++ e.message)
  return result.exitCode.toUInt32

def start (args : List String) : IO UInt32 := do
  match parse args with
  | .error e =>
    if e.exitCode = 0 then IO.print e.message else IO.eprint e.message
    return e.exitCode.toUInt32
  | .ok v => execute v

end EnumForge.CommandLine

def main (args : List String) : IO UInt32 := EnumForge.CommandLine.start args
