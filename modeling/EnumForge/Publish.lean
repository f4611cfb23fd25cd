import EnumForge.Disk
import EnumForge.FilePair

/-!
Writing the two files of an enumeration. Both are compared with what is there and finished beside
their places before either is moved, and a file that holds the text already is left alone. That a
disk is full or broken is left out: a temporary file that can be made can also be written.
-/

namespace EnumForge

open Text (Bytes)

/-- What was done to a file. -/
inductive Outcome
  | written | unchanged
  deriving DecidableEq

inductive PublishError
  | directory (path : String) (cause : FileError)
  /-- The path is that of the file itself. That of the temporary file, which is random, is left out
  of the cause. -/
  | stage (path : String) (cause : FileError)
  | move (path : String) (cause : FileError)
  deriving DecidableEq

def PublishError.message : PublishError → String
  | directory path _ => s!"failed to create output directory {path}"
  | stage path _ => s!"failed to stage {path}"
  | move path _ => s!"failed to move {path} into place"

def PublishError.cause : PublishError → FileError
  | directory _ cause => cause
  | stage _ cause => cause
  | move _ cause => cause

namespace Disk

/-- A file that is ready to be moved to its path; without content if it is there already. -/
structure Staged where
  path : String
  content : Option Bytes

/-- What is to be moved to the path of a file for it to hold a text. -/
def draft (d : Disk) (dir path text : String) : Staged :=
  let path := Path.join dir path
  let content := Text.bytes text
  ⟨path, if (d.read path).toOption = some content then none else some content⟩

/-- The path of a temporary file in a directory, from the root on. Its last six characters stand for
any six that are drawn at random. -/
def temporaryPath (d : Disk) (dir : String) : String :=
  Path.join (Path.join (placePath d.current) dir) ".tmpXXXXXX"

/-- Whether a temporary file can be made in a directory that is there: its path may be too long. -/
def room (d : Disk) (dir : String) : Except FileError Unit :=
  checkPath .nulInPath (d.temporaryPath dir)

/-- Finishes a file in a temporary one, unless it is there already. -/
def stage (d : Disk) (dir path text : String) : Except PublishError Staged := do
  let file := d.draft dir path text
  if file.content.isSome then
    (d.room dir).mapError (.stage file.path)
  return file

/-- Stages both files of a pair, the header first. -/
def stagePair (d : Disk) (dir : String) (pair : FilePair) :
    Except PublishError (Staged × Staged) := do
  let header ← d.stage dir pair.headerPath pair.header
  let source ← d.stage dir pair.sourcePath pair.source
  return (header, source)

/-- The directory in which files are finished. -/
def stagingPlace (d : Disk) (dir : String) : Place :=
  match d.locate dir with
  | .ok p => p
  | .error _ => d.current

def settle (d : Disk) (staging : Place) (file : Staged) :
    Except PublishError (String × Outcome) × Disk :=
  match file.content with
  | none => (.ok (file.path, .unchanged), d)
  | some content =>
    match d.moveIntoPlace staging file.path content with
    | .ok d => (.ok (file.path, .written), d)
    | .error e => (.error (.move file.path e), d)

/-- Writes a pair of files into a directory, which is made if it is missing. -/
def publish (d : Disk) (dir : String) (pair : FilePair) :
    Except PublishError (List (String × Outcome)) × Disk :=
  match d.ensureDirectory dir with
  | (.error e, d) => (.error (.directory dir e), d)
  | (.ok (), d) =>
    match d.stagePair dir pair with
    | .error e => (.error e, d)
    | .ok (header, source) =>
      let staging := d.stagingPlace dir
      match d.settle staging header with
      | (.error e, d) => (.error e, d)
      | (.ok h, d) =>
        match d.settle staging source with
        | (.error e, d) => (.error e, d)
        | (.ok s, d) => (.ok [h, s], d)

end Disk

end EnumForge
