import EnumForge.Proofs.DiskEffects

/-!
Staging the two files of a pair. Only a file that is not there as it should be needs a temporary
one, so a pair can be staged just when both files are there or the directory has room, and otherwise
the first file that is not there is named.
-/

namespace EnumForge

open Text (Bytes)

/-- The files of a pair in a directory, as they should be. -/
def FilePair.filesIn (dir : String) (pair : FilePair) : List (String × Bytes) :=
  [(Path.join dir pair.headerPath, Text.bytes pair.header),
    (Path.join dir pair.sourcePath, Text.bytes pair.source)]

namespace Disk

variable {d d' : Disk} {dir path text : String} {pair : FilePair} {e : PublishError}

/-! ### Room -/

lemma room_eq_of_current_eq (h : d'.current = d.current) (dir : String) :
    d'.room dir = d.room dir := by
  rw [room, room, temporaryPath, temporaryPath, h]

/-- A temporary file takes a slash and ten bytes behind its directory. -/
lemma room_eq_ok_iff (habsolute : Path.isAbsolute dir) (hslash : dir.toList.getLast? ≠ some '/') :
    d.room dir = .ok () ↔ '\x00' ∉ dir.toList ∧ (Text.bytes dir).length + 11 ≤ longestPath := by
  have hempty : dir.isEmpty = false := by
    rw [← Bool.not_eq_true, String.isEmpty_iff]
    rintro rfl
    cases habsolute
  have hpath : d.temporaryPath dir = dir ++ "/" ++ ".tmpXXXXXX" := by
    have hdir : Path.join (placePath d.current) dir = dir := by simp [Path.join, habsolute]
    rw [temporaryPath, hdir, Path.join, hempty]
    simp [hslash, Path.isAbsolute]
  have hlength : (Text.bytes (dir ++ "/" ++ ".tmpXXXXXX")).length =
      (Text.bytes dir).length + 11 := by
    rw [Text.bytes_append, Text.bytes_append, List.length_append, List.length_append]
    rfl
  rw [room, checkPath_eq_ok_iff, hpath, hlength]
  simp [String.append_eq_empty_iff]

/-! ### Single files -/

lemma content_draft_eq_none_iff :
    (d.draft dir path text).content = none ↔
      d.read (Path.join dir path) = .ok (Text.bytes text) := by
  rw [← toOption_eq_some_iff]
  simp [draft]

lemma stage_eq_ok_iff {file : Staged} :
    d.stage dir path text = .ok file ↔ d.draft dir path text = file ∧
      (d.read (Path.join dir path) = .ok (Text.bytes text) ∨ d.room dir = .ok ()) := by
  rw [← content_draft_eq_none_iff, stage]
  cases (d.draft dir path text).content with
  | none => simp [pure, Except.pure]
  | some content =>
    cases d.room dir with
    | error e => simp [bind, Except.bind, Except.mapError]
    | ok => simp [bind, Except.bind, Except.mapError, pure, Except.pure]

lemma stage_eq_error_iff :
    d.stage dir path text = .error e ↔
      d.read (Path.join dir path) ≠ .ok (Text.bytes text) ∧
        ∃ cause, d.room dir = .error cause ∧ e = .stage (Path.join dir path) cause := by
  have hpath : (d.draft dir path text).path = Path.join dir path := rfl
  rw [ne_eq, ← content_draft_eq_none_iff, stage, hpath]
  cases (d.draft dir path text).content with
  | none => simp [pure, Except.pure]
  | some content =>
    cases d.room dir with
    | error cause => simp [bind, Except.bind, Except.mapError, eq_comm]
    | ok => simp [bind, Except.bind, Except.mapError, pure, Except.pure]

lemma path_of_stage {file : Staged} (h : d.stage dir path text = .ok file) :
    file.path = Path.join dir path := by
  obtain ⟨rfl, -⟩ := stage_eq_ok_iff.mp h
  rfl

/-! ### Pairs -/

/-- The first file of a pair that is not there as it should be. -/
def stale? (d : Disk) (dir : String) (pair : FilePair) : Option (String × Bytes) :=
  (pair.filesIn dir).find? fun file => d.read file.1 ≠ .ok file.2

lemma stale?_eq_none_iff :
    d.stale? dir pair = none ↔ ∀ file ∈ pair.filesIn dir, d.read file.1 = .ok file.2 := by
  simp [stale?]

theorem stagePair_eq_ok_iff {files : Staged × Staged} :
    d.stagePair dir pair = .ok files ↔
      (d.draft dir pair.headerPath pair.header, d.draft dir pair.sourcePath pair.source) = files ∧
        (d.stale? dir pair = none ∨ d.room dir = .ok ()) := by
  obtain ⟨header, source⟩ := files
  have hpair : d.stagePair dir pair = .ok (header, source) ↔
      d.stage dir pair.headerPath pair.header = .ok header ∧
        d.stage dir pair.sourcePath pair.source = .ok source := by
    simp [stagePair, bind_eq_ok, pure, Except.pure]
  rw [hpair, stage_eq_ok_iff, stage_eq_ok_iff, stale?_eq_none_iff, FilePair.filesIn,
    List.forall_mem_cons, List.forall_mem_singleton, Prod.mk.injEq, and_and_and_comm, and_or_right]

/-- Of two files that are not there, the header is named. -/
theorem stagePair_eq_error_iff :
    d.stagePair dir pair = .error e ↔ ∃ cause file, d.room dir = .error cause ∧
      d.stale? dir pair = some file ∧ e = .stage file.1 cause := by
  have hpair : d.stagePair dir pair = .error e ↔
      d.stage dir pair.headerPath pair.header = .error e ∨
        (d.read (Path.join dir pair.headerPath) = .ok (Text.bytes pair.header) ∨
          d.room dir = .ok ()) ∧ d.stage dir pair.sourcePath pair.source = .error e := by
    simp [stagePair, bind_eq_error_iff, stage_eq_ok_iff, pure, Except.pure]
  rw [hpair, stage_eq_error_iff, stage_eq_error_iff, stale?, FilePair.filesIn]
  by_cases hheader : d.read (Path.join dir pair.headerPath) = .ok (Text.bytes pair.header)
  · rw [List.find?_cons_of_neg (by simpa using hheader), List.find?_singleton]
    by_cases hsource : d.read (Path.join dir pair.sourcePath) = .ok (Text.bytes pair.source)
    · simp [hheader, hsource]
    · simp [hheader, hsource]
  · rw [List.find?_cons_of_pos (by simpa using hheader)]
    simp +contextual [hheader]

end Disk

end EnumForge
