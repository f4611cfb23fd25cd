import EnumForge.Path

/-!
A tree of files and directories with a current directory, and what can be done with it: finding what
a path leads to, reading, making directories, and putting a finished file into its place. Symbolic
links and permissions are left out: all there is are files and directories, and all may be read and
written.
-/

namespace EnumForge

open Text (Bytes)

/-- A place in the tree: the names that lead to it from the root. -/
abbrev Place := List String

/-- The path of a place, from the root on. -/
def placePath (p : Place) : String := "/" ++ "/".intercalate p

inductive Entry
  | directory
  | file (content : Bytes)
  deriving DecidableEq

/-- Why something cannot be done with a path. -/
inductive FileError
  | notFound | alreadyExists | notDirectory | isDirectory | busy | notEmpty | nameTooLong
  | nulInPath | invalidArgument
  deriving DecidableEq

def FileError.message : FileError → String
  | notFound => "No such file or directory (os error 2)"
  | alreadyExists => "File exists (os error 17)"
  | notDirectory => "Not a directory (os error 20)"
  | isDirectory => "Is a directory (os error 21)"
  | busy => "Device or resource busy (os error 16)"
  | notEmpty => "Directory not empty (os error 39)"
  | nameTooLong => "File name too long (os error 36)"
  | nulInPath => "file name contained an unexpected NUL byte"
  | invalidArgument => "Invalid argument (os error 22)"

/-- The entries by their places. The root is a directory without being entered. -/
structure Disk where
  entries : List (Place × Entry) := []
  current : Place := []
  deriving DecidableEq

namespace Disk

def get? (d : Disk) (p : Place) : Option Entry :=
  if p.isEmpty then some .directory else d.entries.lookup p

def set (d : Disk) (p : Place) (e : Entry) : Disk :=
  { d with entries := (p, e) :: d.entries.filter (·.1 != p) }

theorem get?_root (d : Disk) : d.get? [] = some .directory := rfl

theorem get?_set_self (d : Disk) {p : Place} (e : Entry) (hp : p ≠ []) :
    (d.set p e).get? p = some e := by
  simp [get?, set, hp]

/-- Setting one place leaves all others as they were. -/
theorem get?_set_of_ne (d : Disk) {p q : Place} (e : Entry) (h : q ≠ p) :
    (d.set p e).get? q = d.get? q := by
  have hb : (q == p) = false := by simpa using h
  have hf : ∀ l : List (Place × Entry), (l.filter (·.1 != p)).lookup q = l.lookup q := by
    intro l
    induction l with
    | nil => rfl
    | cons x l ih =>
      obtain ⟨k, v⟩ := x
      by_cases hk : k = p
      · subst hk
        simp [List.lookup_cons, hb, ih]
      · simp [List.lookup_cons, hk, ih]
  simp [get?, set, List.lookup_cons, hb, hf]

def isDirectoryAt (d : Disk) (p : Place) : Bool := d.get? p == some .directory

/-! ### Finding -/

/-- The most bytes that a name can have. -/
def longestName : Nat := 255

/-- The most bytes that a path can have. -/
def longestPath : Nat := 4095

/-- A path that leads nowhere on any disk. `nul` is what is wrong with a NUL in it. -/
def checkPath (nul : FileError) (path : String) : Except FileError Unit :=
  if path.isEmpty then .error .notFound
  else if path.toList.contains '\x00' then .error nul
  else if longestPath < (Text.bytes path).length then .error .nameTooLong
  else .ok ()

/-- Follows steps from a place. Every place that a step is taken from has to be a directory. -/
def walk (d : Disk) (p : Place) : List String → Except FileError Place
  | [] => .ok p
  | step :: rest =>
    match d.get? p with
    | none => .error .notFound
    | some (.file _) => .error .notDirectory
    | some .directory =>
      if step = "" || step = "." then d.walk p rest
      else if step = ".." then d.walk p.dropLast rest
      else if longestName < (Text.bytes step).length then .error .nameTooLong
      else d.walk (p ++ [step]) rest

/-- Follows steps that have to end in a directory. -/
def walkToDirectory (d : Disk) (p : Place) (steps : List String) : Except FileError Place := do
  let q ← d.walk p steps
  match d.get? q with
  | none => .error .notFound
  | some (.file _) => .error .notDirectory
  | some .directory => .ok q

/-- Where a path starts. -/
def startOf (d : Disk) (path : String) : Place := if Path.isAbsolute path then [] else d.current

/-- The place that a path without steps up names, whether anything is there or not. -/
def placeOf (d : Disk) (path : String) : Place :=
  d.startOf path ++ (Path.steps path).filter fun step => step ≠ "" && step ≠ "."

/-- The place that a path leads to. Nothing has to be there, but all that leads there has to. -/
def locate (d : Disk) (path : String) : Except FileError Place := do
  checkPath .nulInPath path
  d.walk (d.startOf path) (Path.steps path)

def entryAt (d : Disk) (path : String) : Except FileError Entry := do
  match d.get? (← d.locate path) with
  | none => .error .notFound
  | some e => .ok e

def isDirectory (d : Disk) (path : String) : Bool :=
  match d.entryAt path with
  | .ok .directory => true
  | _ => false

def exists? (d : Disk) (path : String) : Bool :=
  match d.entryAt path with
  | .ok _ => true
  | .error _ => false

/-- The content of a file. -/
def read (d : Disk) (path : String) : Except FileError Bytes := do
  match ← d.entryAt path with
  | .file content => .ok content
  | .directory => .error .isDirectory

/-- The names in a directory. -/
def children (d : Disk) (p : Place) : List String :=
  d.entries.filterMap fun (q, _) =>
    match q.getLast? with
    | some name => if q.dropLast = p then some name else none
    | none => none

/-- The ways down from a directory to all that is in it at any depth. -/
def descendants (d : Disk) (p : Place) : List Place :=
  d.entries.filterMap fun (q, _) =>
    if p.isPrefixOf q && q != p then some (q.drop p.length) else none

/-! ### Making directories -/

/-- The steps without those behind a slash at the end. -/
def withoutTrailing (steps : List String) : List String :=
  (steps.reverse.dropWhile (· == "")).reverse

/-- Makes one directory; the one that it is in has to be there. -/
def makeDirectory (d : Disk) (start : Place) (steps : List String) : Except FileError Disk :=
  let steps := withoutTrailing steps
  match steps.getLast? with
  | none => .error .alreadyExists
  | some name => do
    let parent ← d.walkToDirectory start steps.dropLast
    if name = "." || name = ".." then .error .alreadyExists
    else if longestName < (Text.bytes name).length then .error .nameTooLong
    else
      match d.get? (parent ++ [name]) with
      | some _ => .error .alreadyExists
      | none => .ok (d.set (parent ++ [name]) .directory)

/-- A path and the shorter ones that lead to it, longest first. -/
def ancestors (path : String) : List (List String) :=
  let inner := ((Path.parts path).filter (· != .root)).map (·.text)
  Path.steps path :: ((List.range inner.length).drop 1).reverse.map inner.take

/-- Makes the first directory of the list, and before it the others if they are missing. What has
been made stays, whatever happens later. -/
def makeDirectories (d : Disk) (start : Place) : List (List String) → Except FileError Unit × Disk
  | [] => (.ok (), d)
  | steps :: shorter =>
    let accept (d : Disk) (e : FileError) : Except FileError Unit × Disk :=
      match d.walkToDirectory start steps with
      | .ok _ => (.ok (), d)
      | .error _ => (.error e, d)
    match d.makeDirectory start steps with
    | .ok d => (.ok (), d)
    | .error .notFound =>
      match d.makeDirectories start shorter with
      | (.error e, d) => (.error e, d)
      | (.ok (), d) =>
        match d.makeDirectory start steps with
        | .ok d => (.ok (), d)
        | .error e => accept d e
    | .error e => accept d e

/-- Makes a directory and all that lead to it, unless they are there. The empty path is the current
directory. -/
def ensureDirectory (d : Disk) (path : String) : Except FileError Unit × Disk :=
  if path.isEmpty then (.ok (), d)
  else
    match checkPath .nulInPath path with
    | .error e => (.error e, d)
    | .ok () => d.makeDirectories (d.startOf path) (ancestors path)

/-! ### Finished files -/

/-- Moves a file that was finished in the directory `staging` to a path, in place of a file that may
be there. -/
def moveIntoPlace (d : Disk) (staging : Place) (path : String) (content : Bytes) :
    Except FileError Disk := do
  checkPath .invalidArgument path
  let all := Path.steps path
  let steps := withoutTrailing all
  let parent ← d.walkToDirectory (d.startOf path) steps.dropLast
  match steps.getLast? with
  | none => .error .busy
  | some name =>
    if name = "." || name = ".." then .error .busy
    else if longestName < (Text.bytes name).length then .error .nameTooLong
    else if steps.length < all.length then .error .notDirectory
    else if (parent ++ [name]).isPrefixOf staging then .error .notEmpty
    else
      match d.get? (parent ++ [name]) with
      | some .directory => .error .isDirectory
      | _ => .ok (d.set (parent ++ [name]) (.file content))

/-! ### Views -/

/-- Enters a file or directory together with the directories that lead to it. -/
def enter (d : Disk) (p : Place) (e : Entry) : Disk :=
  let d := ((List.range p.length).drop 1).foldl
    (fun d n => if (d.get? (p.take n)).isSome then d else d.set (p.take n) .directory) d
  d.set p e

/-- All that is below the current directory, each with its content, in the order of the bytes of the
paths. The path of a directory ends in a slash. -/
def listing (d : Disk) : List (String × Option Bytes) :=
  let rows := d.entries.filterMap fun (q, e) =>
    if d.current.isPrefixOf q && q != d.current then
      let path := "/".intercalate (q.drop d.current.length)
      match e with
      | .directory => some (path ++ "/", none)
      | .file content => some (path, some content)
    else none
  rows.mergeSort fun a b => !Text.less b.1 a.1

/-- The rows of the listing that were not there before. -/
def changes (before after : Disk) : List (String × Option Bytes) :=
  let old := before.listing
  after.listing.filter (!old.contains ·)

end Disk

end EnumForge
