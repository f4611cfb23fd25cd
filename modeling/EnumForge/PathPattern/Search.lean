import EnumForge.Disk
import EnumForge.PathPattern

/-!
The paths on a disk that fit a pattern. The search goes down from directory to directory with one
step of the pattern after another.
-/

namespace EnumForge

namespace PathPattern

/-- Why a pattern has no answer. -/
inductive SearchError
  | malformed (e : SyntaxError)
  | unreadable (path : String) (cause : FileError)
  deriving DecidableEq

def SearchError.message : SearchError → String
  | malformed e => e.message
  | unreadable path cause =>
    s!"attempting to read `{path}` resulted in an error: {cause.message}"

/-- A path that has been found, and whether it is that of a directory. Of what is in a directory
this is known from there, even if its path is too long to be followed. -/
structure Candidate where
  path : String
  isDirectory : Bool

/-- A path that is followed. -/
def Candidate.ofPath (d : Disk) (path : String) : Candidate := ⟨path, d.isDirectory path⟩

/-- Whether a path is the current directory and no more. -/
def isCurrent (path : String) : Bool := Path.parts path == [.here]

/-- A path in a directory, with nothing in front if that is the current one. -/
def below (path name : String) : String := if isCurrent path then name else Path.join path name

/-- What a candidate holds, each by the way down to it in `ways`; nothing if it is a file. -/
def Candidate.inside (d : Disk) (c : Candidate) (ways : Place → List Place) :
    Except SearchError (List (Place × Candidate)) :=
  if c.isDirectory then
    match d.locate c.path with
    | .error e => .error (.unreadable c.path e)
    | .ok p => .ok ((ways p).map fun q =>
        (q, ⟨below c.path ("/".intercalate q), d.isDirectoryAt (p ++ q)⟩))
  else .ok []

/-- The order in which a directory is gone through: by names, and all that is in an entry right
behind it. -/
def goThrough (ways : List Place) : List Place :=
  ways.mergeSort fun a b => !Path.partsLess (b.map .name) (a.map .name)

/-- The dots that a name pattern fits if it begins with a dot itself, in the order of the search. -/
def specials : List Token → List String
  | .char '.' :: ts => ["..", "."].filter fun s => fits (.char '.' :: ts) s.toList
  | _ => []

/-- The paths in a directory that fit. With `onlyDirectories` the last step must be a directory. No
two steps for any number of directories may follow each other. -/
def expand (d : Disk) (onlyDirectories : Bool) :
    List Component → Candidate → Except SearchError (List String)
  | [], c => .ok (if !onlyDirectories || c.isDirectory then [c.path] else [])
  | .literal s :: rest, c =>
    let path := if isCurrent c.path then s else Path.join c.path s
    let found := if s = "." || s = ".." then c.isDirectory else d.exists? path
    if found then expand d onlyDirectories rest (.ofPath d path) else .ok []
  | .name ts :: rest, c => do
    let dots := if c.isDirectory then specials ts else []
    let inside ← c.inside d fun p => goThrough ((d.children p).map ([·]))
    let fitting := inside.filter fun (q, _) => q.any fun n => fits ts n.toList
    let next := dots.map (fun s => .ofPath d (Path.join c.path s)) ++ fitting.map (·.2)
    return (← next.mapM (expand d onlyDirectories rest)).flatten
  | [.directories], c => do
    let inside ← c.inside d fun p => goThrough (d.descendants p)
    let found ← inside.mapM fun (_, c) => do
      let _ ← c.inside d fun _ => []
      return if c.isDirectory then [c.path] else []
    return found.flatten
  | .directories :: step :: rest, c => do
    let inside ← c.inside d fun p => goThrough (d.descendants p)
    let found ← inside.mapM fun (q, c) => do
      let found ←
        if q.getLast?.any (step.fits ·) then expand d onlyDirectories rest c else .ok []
      let _ ← c.inside d fun _ => []
      return found
    return found.flatten

/-- Keeps one of several steps for any number of directories. -/
def collapse : List Component → List Component
  | .directories :: .directories :: cs => collapse (.directories :: cs)
  | c :: cs => c :: collapse cs
  | [] => []

/-- The steps of a pattern, without the one behind a slash at the end. -/
def patternSteps (pattern : List Char) : List (List Char) :=
  let all := pattern.splitOn '/'
  if all.getLast? = some [] then all.dropLast else all

/-- The steps of a pattern and whether it stands for directories only. The pattern has to be well
formed as a whole and in each of its steps. -/
def components (pattern : String) : Except SyntaxError (List Component × Bool) := do
  let cs := pattern.toList
  let _ ← tokens none 0 cs
  let steps := patternSteps (if Path.isAbsolute pattern then cs.drop 1 else cs)
  let components ← steps.mapM fun step => return Component.ofTokens (← tokens none 0 step)
  return (collapse components, cs.getLast? == some '/')

end PathPattern

open PathPattern

/-- Whether a text is taken for a pattern. -/
def isPathPattern (s : String) : Bool :=
  s.toList.any fun c => c = '*' || c = '?' || c = '[' || c = '\x7b'

/-- The paths that fit a pattern, in the order of paths. -/
def Disk.matchPattern (d : Disk) (pattern : String) : Except SearchError (List String) := do
  let (components, onlyDirectories) ← (PathPattern.components pattern).mapError .malformed
  let start := Candidate.ofPath d (if Path.isAbsolute pattern then "/" else ".")
  let found ← expand d onlyDirectories components start
  return found.mergeSort fun a b => !Path.less b a

end EnumForge
