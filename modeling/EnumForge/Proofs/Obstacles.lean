import EnumForge.CommandLine.Run
import EnumForge.Proofs.BatchReports

/-!
What keeps a run from doing anything: an input, the definitions taken together, or one of them. All
of it is found before the first file is written and the first line is printed, so such a run leaves
the disk as it was.
-/

namespace EnumForge.CommandLine

/-! ### Loading -/

lemma resolveInput_of_plain (d : Disk) {input : String} (h : isPathPattern input = false) :
    resolveInput d input = .ok [input] := by
  rw [resolveInput, if_neg (by simp [h])]

lemma loadFile_eq_ok_iff {d : Disk} {path : String} {b : Batch} :
    loadFile d path = .ok b ↔
      ∃ content, d.read path = .ok content ∧ Document.parseDefinitions content = .ok b := by
  simp only [loadFile, bind_eq_ok, mapError_eq_ok_iff]

lemma load_eq_ok_iff {d : Disk} {inputs : List String} {b : Batch} :
    load d inputs = .ok b ↔ ∃ paths batches,
      List.Forall₂ (fun input paths => resolveInput d input = .ok paths) inputs paths ∧
      List.Forall₂ (fun path b => loadFile d path = .ok b) paths.flatten batches ∧
      batches.flatten = b := by
  simp only [load, resolveInputs, bind_eq_ok, map_eq_ok_iff, mapM_eq_ok_iff]
  constructor
  · rintro ⟨_, ⟨paths, hpaths, rfl⟩, batches, hbatches, hb⟩
    exact ⟨paths, batches, hpaths, hbatches, hb⟩
  · rintro ⟨paths, batches, hpaths, hbatches, hb⟩
    exact ⟨_, ⟨paths, hpaths, rfl⟩, batches, hbatches, hb⟩

/-- Everything is loaded just when every input stands for paths and every path leads to a file that
can be read and parsed. -/
lemma exists_load_iff {d : Disk} {inputs : List String} :
    (∃ b, load d inputs = .ok b) ↔ ∀ input ∈ inputs, ∃ paths, resolveInput d input = .ok paths ∧
      ∀ path ∈ paths, ∃ b, loadFile d path = .ok b := by
  constructor
  · rintro ⟨b, hb⟩ input hinput
    obtain ⟨all, batches, hall, hbatches, -⟩ := load_eq_ok_iff.mp hb
    obtain ⟨paths, hmem, hpaths⟩ := exists_right_of_forall₂ hall hinput
    refine ⟨paths, hpaths, fun path hpath => ?_⟩
    obtain ⟨b', -, hb'⟩ :=
      exists_right_of_forall₂ hbatches (List.mem_flatten.mpr ⟨paths, hmem, hpath⟩)
    exact ⟨b', hb'⟩
  · intro h
    obtain ⟨all, hall⟩ := exists_forall₂ fun input hinput =>
      (h input hinput).imp fun _ hpaths => hpaths.1
    have hloaded : ∀ path ∈ all.flatten, ∃ b, loadFile d path = .ok b := by
      intro path hpath
      obtain ⟨paths, hmem, hpath⟩ := List.mem_flatten.mp hpath
      obtain ⟨input, hinput, hpaths⟩ := exists_left_of_forall₂ hall hmem
      obtain ⟨paths', hpaths', hloaded⟩ := h input hinput
      rw [hpaths] at hpaths'
      cases hpaths'
      exact hloaded path hpath
    obtain ⟨batches, hbatches⟩ := exists_forall₂ hloaded
    exact ⟨_, load_eq_ok_iff.mpr ⟨all, batches, hall, hbatches, rfl⟩⟩

/-! ### What a command generates -/

/-- Checking goes on after a failure and printing does not; generating does as it is told. -/
def Command.policy : Command → FailurePolicy
  | generate _ policy => policy
  | check => .keepGoing
  | print _ => .stopAtFirst

/-- The definitions that a command is for. -/
def Command.chosen (b : Batch) : Command → Batch
  | print (some name) => select b name
  | _ => b

lemma prepare_eq_ok_iff {d : Disk} {v : Invocation} {r : Report} :
    prepare d v = .ok r ↔ ∃ b, load d v.inputs = .ok b ∧
      (∀ name, v.command = .print (some name) → select b name ≠ []) ∧
      (v.command.chosen b).generate v.extensions v.command.policy = .ok r := by
  obtain ⟨command, inputs, x, verbosity⟩ := v
  rw [prepare, bind_eq_ok]
  refine exists_congr fun b => and_congr_right fun _ => ?_
  cases command with
  | generate dir policy => simp [mapError_eq_ok_iff, Command.chosen, Command.policy]
  | check => simp [mapError_eq_ok_iff, Command.chosen, Command.policy]
  | print name =>
    simp only [bind_eq_ok, mapError_eq_ok_iff]
    cases name with
    | none => simp [selected, Command.chosen, Command.policy]
    | some name =>
      by_cases hnone : select b name = []
      · simp [selected, hnone]
      · simp [selected, hnone, Command.chosen, Command.policy]

/-! ### Obstacles -/

/-- What keeps a run from writing or printing anything. -/
inductive Obstacle (d : Disk) (v : Invocation) : Prop
  /-- An input is a pattern that cannot be searched for or that nothing fits. -/
  | unresolved {input : String} {e : RunError} (hinput : input ∈ v.inputs)
      (h : resolveInput d input = .error e)
  | unreadable {input path : String} {paths : List String} {e : FileError}
      (hinput : input ∈ v.inputs) (hpaths : resolveInput d input = .ok paths)
      (hpath : path ∈ paths) (h : d.read path = .error e)
  | unparsable {input path : String} {paths : List String} {content : Text.Bytes}
      {e : Document.DocumentError} (hinput : input ∈ v.inputs)
      (hpaths : resolveInput d input = .ok paths) (hpath : path ∈ paths)
      (hread : d.read path = .ok content) (h : Document.parseDefinitions content = .error e)
  /-- No definition has the name that is asked for. -/
  | noDefinition {b : Batch} {name : String} (hload : load d v.inputs = .ok b)
      (hcommand : v.command = .print (some name))
      (h : ∀ definition ∈ b, definition.name ≠ name ∧ definition.qualifiedName ≠ name)
  /-- Two of the definitions that the command is for would write one file. -/
  | collision {b : Batch} (hload : load d v.inputs = .ok b)
      (h : ¬ ((v.command.chosen b).flatMap (Batch.filesOf v.extensions)).Nodup)
  /-- One of them cannot be generated, and the first failure ends the command. -/
  | failed {b : Batch} {definition : Definition} {f : Failure} (hload : load d v.inputs = .ok b)
      (hpolicy : v.command.policy = .stopAtFirst) (hchosen : definition ∈ v.command.chosen b)
      (h : definition.generate v.extensions = .error f)

lemma select_eq_nil_iff {b : Batch} {name : String} : select b name = [] ↔
    ∀ definition ∈ b, definition.name ≠ name ∧ definition.qualifiedName ≠ name := by
  simp [select]

/-- Inputs that do not load are an obstacle. -/
lemma obstacle_of_not_load {d : Disk} {v : Invocation} (h : ¬ ∃ b, load d v.inputs = .ok b) :
    Obstacle d v := by
  by_contra hclear
  refine h (exists_load_iff.mpr fun input hinput => ?_)
  cases hpaths : resolveInput d input with
  | error e => exact absurd (.unresolved hinput hpaths) hclear
  | ok paths =>
    refine ⟨paths, rfl, fun path hpath => ?_⟩
    cases hread : d.read path with
    | error e => exact absurd (.unreadable hinput hpaths hpath hread) hclear
    | ok content =>
      cases hparse : Document.parseDefinitions content with
      | error e => exact absurd (.unparsable hinput hpaths hpath hread hparse) hclear
      | ok b => exact ⟨b, loadFile_eq_ok_iff.mpr ⟨content, hread, hparse⟩⟩

/-- Without an obstacle there is a report. -/
lemma exists_prepare {d : Disk} {v : Invocation} (hclear : ¬ Obstacle d v) :
    ∃ r, prepare d v = .ok r := by
  obtain ⟨b, hload⟩ := not_imp_comm.mp obstacle_of_not_load hclear
  have hselect (name : String) (hcommand : v.command = .print (some name)) : select b name ≠ [] :=
    fun hnil => hclear (.noDefinition hload hcommand (select_eq_nil_iff.mp hnil))
  have hfiles : (v.command.chosen b).checkFiles v.extensions = .ok () := by
    rw [Batch.checkFiles_eq_ok_iff]
    by_contra h
    exact hclear (.collision hload h)
  have hall (hpolicy : v.command.policy = .stopAtFirst) :
      ∀ definition ∈ v.command.chosen b, ∃ pair, definition.generate v.extensions = .ok pair := by
    intro definition hchosen
    cases hresult : definition.generate v.extensions with
    | error f => exact absurd (.failed hload hpolicy hchosen hresult) hclear
    | ok pair => exact ⟨pair, rfl⟩
  obtain ⟨r, hr⟩ := Batch.exists_generate_iff.mpr ⟨hfiles, hall⟩
  exact ⟨r, prepare_eq_ok_iff.mpr ⟨b, hload, hselect, hr⟩⟩

/-- With an obstacle there is none, wherever it stands among the inputs and the definitions. -/
lemma Obstacle.not_prepared {d : Disk} {v : Invocation} (hobstacle : Obstacle d v) :
    ¬ ∃ r, prepare d v = .ok r := by
  rintro ⟨r, hr⟩
  obtain ⟨b, hload, hselect, hgenerate⟩ := prepare_eq_ok_iff.mp hr
  have hinputs := exists_load_iff.mp ⟨b, hload⟩
  have hfile {input path : String} {paths : List String} (hinput : input ∈ v.inputs)
      (hpaths : resolveInput d input = .ok paths) (hpath : path ∈ paths) :
      ∃ content, d.read path = .ok content ∧ ∃ b, Document.parseDefinitions content = .ok b := by
    obtain ⟨paths', hpaths', hloaded⟩ := hinputs input hinput
    rw [hpaths] at hpaths'
    cases hpaths'
    obtain ⟨b', hb'⟩ := hloaded path hpath
    obtain ⟨content, hread, hparse⟩ := loadFile_eq_ok_iff.mp hb'
    exact ⟨content, hread, b', hparse⟩
  have hsame {b' : Batch} (hload' : load d v.inputs = .ok b') : b' = b := by
    simpa [hload] using hload'.symm
  obtain ⟨hfiles, hall⟩ := Batch.exists_generate_iff.mp ⟨r, hgenerate⟩
  cases hobstacle with
  | unresolved hinput h =>
    obtain ⟨paths, hpaths, -⟩ := hinputs _ hinput
    simp [h] at hpaths
  | unreadable hinput hpaths hpath h =>
    obtain ⟨content, hread, -⟩ := hfile hinput hpaths hpath
    simp [h] at hread
  | unparsable hinput hpaths hpath hread h =>
    obtain ⟨content, hread', b', hparse⟩ := hfile hinput hpaths hpath
    rw [hread] at hread'
    cases hread'
    simp [h] at hparse
  | noDefinition hload' hcommand h =>
    rw [hsame hload'] at h
    exact hselect _ hcommand (select_eq_nil_iff.mpr h)
  | collision hload' h =>
    rw [hsame hload'] at h
    exact h (Batch.checkFiles_eq_ok_iff.mp hfiles)
  | failed hload' hpolicy hchosen h =>
    rw [hsame hload'] at hchosen
    obtain ⟨pair, hpair⟩ := hall hpolicy _ hchosen
    simp [h] at hpair

/-! ### Runs -/

/-- What generating does once its definitions are loaded and their pairs are there. -/
lemma run_generate {d : Disk} {v : Invocation} {dir : String} {policy : FailurePolicy} {b : Batch}
    {r : Report} (hcommand : v.command = .generate dir policy) (hload : load d v.inputs = .ok b)
    (hgenerate : b.generate v.extensions policy = .ok r) :
    run d v =
      match publishAll d dir r.pairs with
      | (.error e, d') => .failed d' e
      | (.ok (), d') => ({ disk := d' } : Result).finish r := by
  have hprepare : prepare d v = .ok r := by
    refine prepare_eq_ok_iff.mpr ⟨b, hload, by simp [hcommand], ?_⟩
    rw [hcommand]
    exact hgenerate
  obtain ⟨command, inputs, x, verbosity⟩ := v
  obtain rfl : command = .generate dir policy := hcommand
  rewrite [run, hprepare]
  rfl

/-- An error of writing, which comes when everything is prepared. -/
def RunError.IsOfWriting (e : RunError) : Prop := ∃ name cause, e = .unwritable name cause

lemma not_isOfWriting_of_resolveInput {d : Disk} {input : String} {e : RunError}
    (h : resolveInput d input = .error e) : ¬ e.IsOfWriting := by
  rintro ⟨name, cause, rfl⟩
  unfold resolveInput at h
  split at h
  · split at h
    all_goals cases h
  · cases h

lemma not_isOfWriting_of_loadFile {d : Disk} {path : String} {e : RunError}
    (h : loadFile d path = .error e) : ¬ e.IsOfWriting := by
  rintro ⟨name, cause, rfl⟩
  rcases bind_eq_error_iff.mp h with hread | ⟨content, -, hparse⟩
  · obtain ⟨_, -, heq⟩ := mapError_eq_error_iff.mp hread
    cases heq
  · obtain ⟨_, -, heq⟩ := mapError_eq_error_iff.mp hparse
    cases heq

lemma not_isOfWriting_of_load {d : Disk} {inputs : List String} {e : RunError}
    (h : load d inputs = .error e) : ¬ e.IsOfWriting := by
  rcases bind_eq_error_iff.mp h with hresolve | ⟨paths, -, hload⟩
  · obtain ⟨input, -, hinput⟩ := exists_of_mapM_eq_error (map_eq_error_iff.mp hresolve)
    exact not_isOfWriting_of_resolveInput hinput
  · obtain ⟨path, -, hpath⟩ := exists_of_mapM_eq_error (map_eq_error_iff.mp hload)
    exact not_isOfWriting_of_loadFile hpath

lemma not_isOfWriting_of_prepare {d : Disk} {v : Invocation} {e : RunError}
    (h : prepare d v = .error e) : ¬ e.IsOfWriting := by
  have hgenerated {b : Batch} {policy : FailurePolicy}
      (hgenerate : (b.generate v.extensions policy).mapError RunError.batch = .error e) :
      ¬ e.IsOfWriting := by
    rintro ⟨name, cause, rfl⟩
    obtain ⟨_, -, heq⟩ := mapError_eq_error_iff.mp hgenerate
    cases heq
  rcases bind_eq_error_iff.mp h with hload | ⟨b, -, hrest⟩
  · exact not_isOfWriting_of_load hload
  · split at hrest
    · exact hgenerated hrest
    · exact hgenerated hrest
    · rcases bind_eq_error_iff.mp hrest with hselected | ⟨b', -, hgenerate⟩
      · rintro ⟨name, cause, rfl⟩
        unfold selected at hselected
        split at hselected
        · cases hselected
        · split at hselected
          all_goals cases hselected
      · exact hgenerated hgenerate

lemma isOfWriting_of_publishAll {d d' : Disk} {dir : String} {pairs : List FilePair} {e : RunError}
    (h : publishAll d dir pairs = (.error e, d')) : e.IsOfWriting := by
  induction pairs generalizing d with
  | nil => cases h
  | cons pair rest ih =>
    rw [publishAll] at h
    split at h
    · cases h
      exact ⟨_, _, rfl⟩
    · exact ih h

/-- A run that has an obstacle ends in its error and has done nothing. -/
lemma exists_run_eq_failed {d : Disk} {v : Invocation} (hobstacle : Obstacle d v) :
    ∃ e, ¬ e.IsOfWriting ∧ run d v = .failed d e := by
  cases hprepare : prepare d v with
  | ok r => exact absurd ⟨r, hprepare⟩ hobstacle.not_prepared
  | error e =>
    refine ⟨e, not_isOfWriting_of_prepare hprepare, ?_⟩
    rw [run, hprepare]

lemma exists_prepare_of_exitCode {d : Disk} {v : Invocation} (h : (run d v).exitCode = 0) :
    ∃ r, prepare d v = .ok r := by
  cases hprepare : prepare d v with
  | ok r => exact ⟨r, rfl⟩
  | error e => simp [run, hprepare, Result.failed, Result.exitCode] at h

/-- A command that ends with the first failure can fail later only in writing. -/
lemma isOfWriting_of_clear {d : Disk} {v : Invocation} (hpolicy : v.command.policy = .stopAtFirst)
    (hclear : ¬ Obstacle d v) {e : RunError} (he : (run d v).failure = some e) :
    e.IsOfWriting := by
  obtain ⟨r, hprepare⟩ := exists_prepare hclear
  obtain ⟨b, -, -, hgenerate⟩ := prepare_eq_ok_iff.mp hprepare
  rw [hpolicy] at hgenerate
  have hnone := (Batch.generate_stopAtFirst_eq_ok_iff.mp hgenerate).2
  obtain ⟨command, inputs, x, verbosity⟩ := v
  cases command with
  | generate dir policy =>
    simp only [run, hprepare] at he
    split at he
    · next hpublish =>
      cases he
      exact isOfWriting_of_publishAll hpublish
    · simp [Result.finish, Report.isSuccess, hnone] at he
  | check => cases hpolicy
  | print name => simp [run, hprepare] at he

/-- **Obstacles**: where the first failure ends a command, it fails before it writes just when there
is an obstacle, be it the last of the inputs or the last of the definitions. It has then left the
disk as it was and printed nothing. -/
theorem obstacle_spares_disk {d : Disk} {v : Invocation}
    (hcommand : (∃ dir, v.command = .generate dir .stopAtFirst) ∨ ∃ name, v.command = .print name) :
    (Obstacle d v ↔ ∃ e, (run d v).failure = some e ∧ ¬ e.IsOfWriting) ∧
      (Obstacle d v →
        (run d v).disk = d ∧ (run d v).output = "" ∧ (run d v).errors = "" ∧
          (run d v).exitCode = 1) := by
  have hpolicy : v.command.policy = .stopAtFirst := by
    rcases hcommand with ⟨dir, hcommand⟩ | ⟨name, hcommand⟩
    · rw [hcommand, Command.policy]
    · rw [hcommand, Command.policy]
  refine ⟨⟨fun hobstacle => ?_, fun ⟨e, he, hwriting⟩ => ?_⟩, fun hobstacle => ?_⟩
  · obtain ⟨e, hwriting, hrun⟩ := exists_run_eq_failed hobstacle
    exact ⟨e, by rw [hrun]; rfl, hwriting⟩
  · by_contra hclear
    exact hwriting (isOfWriting_of_clear hpolicy hclear he)
  · obtain ⟨e, -, hrun⟩ := exists_run_eq_failed hobstacle
    rw [hrun]
    exact ⟨rfl, rfl, rfl, rfl⟩

/-- A definition that can be generated and one that declares nothing. -/
def fineAndEmpty : Batch := [{ name := "Fine", values := some (.names ["A"]) }, { name := "Empty" }]

/-- Both definitions in a file, an empty directory, and a directory that has the name of a header. -/
def blockedHeader : Disk where
  entries := [(["in.json"], .file (Text.bytes
      ("\x7b\x22enums\x22:[\x7b\x22name\x22:\x22Fine\x22,\x22values\x22:[\x22A\x22]\x7d," ++
        "\x7b\x22name\x22:\x22Empty\x22\x7d]\x7d"))),
    (["out"], .directory), (["Fine.hpp"], .directory)]

lemma load_blockedHeader : load blockedHeader ["in.json"] = .ok fineAndEmpty := by
  have hfile : loadFile blockedHeader "in.json" = .ok fineAndEmpty :=
    loadFile_eq_ok_iff.mpr ⟨_, rfl, by cbv⟩
  exact load_eq_ok_iff.mpr ⟨[["in.json"]], [fineAndEmpty],
    .cons (resolveInput_of_plain _ (by decide)) .nil, .cons hfile .nil, rfl⟩

lemma generate_empty (x : Extensions) :
    ({ name := "Empty" } : Definition).generate x = .error ⟨"Empty", .definition .noValues⟩ := by
  cbv

/-- The first definition could be generated, but not even its directory is made. -/
theorem blockedHeader_spared :
    Obstacle blockedHeader ⟨.generate "new" .stopAtFirst, ["in.json"], {}, 0⟩ ∧
      (run blockedHeader ⟨.generate "new" .stopAtFirst, ["in.json"], {}, 0⟩).disk =
        blockedHeader ∧
      (run blockedHeader ⟨.print none, ["in.json"], {}, 0⟩).output = "" := by
  have hempty : ({ name := "Empty" } : Definition) ∈ fineAndEmpty := by simp [fineAndEmpty]
  have hgenerate : Obstacle blockedHeader ⟨.generate "new" .stopAtFirst, ["in.json"], {}, 0⟩ :=
    .failed load_blockedHeader rfl hempty (generate_empty {})
  have hprint : Obstacle blockedHeader ⟨.print none, ["in.json"], {}, 0⟩ :=
    .failed load_blockedHeader rfl hempty (generate_empty {})
  refine ⟨hgenerate, ?_, ?_⟩
  · exact ((obstacle_spares_disk (.inl ⟨"new", rfl⟩)).2 hgenerate).1
  · exact ((obstacle_spares_disk (.inr ⟨none, rfl⟩)).2 hprint).2.1

end EnumForge.CommandLine
