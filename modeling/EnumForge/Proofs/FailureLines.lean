import EnumForge.Proofs.Obstacles
import EnumForge.Proofs.PublishedBatch

/-!
What a run that keeps going tells of the definitions that fail. Their lines are written at the end,
so they are all there if the last pair could be written, and none of them if one pair could not.
-/

namespace EnumForge.CommandLine

/-- The line of a failure on the error stream. -/
def failureLine (f : Failure) : String := "error: " ++ f.name ++ ": " ++ f.cause.message ++ "\n"

/-- Every definition that fails has its line. -/
def Result.TellsFailures (result : Result) (b : Batch) (x : Extensions) : Prop :=
  ∀ definition ∈ b, ∀ f, definition.generate x = .error f → f.name = definition.qualifiedName ∧
    ∃ before behind, result.errors = before ++ failureLine f ++ behind

/-- The pairs of the definitions that do not fail. -/
def generatedPairs (b : Batch) (x : Extensions) : List FilePair :=
  (b.map (·.generate x)).filterMap Except.toOption

/-! ### Lines -/

lemma exists_join_eq_append {l : List String} {s : String} (h : s ∈ l) :
    ∃ before behind, String.join l = before ++ s ++ behind := by
  obtain ⟨front, back, rfl⟩ := List.append_of_mem h
  refine ⟨String.join front, String.join back, ?_⟩
  rw [← List.singleton_append, String.join_append, String.join_append, String.append_assoc]
  simp

/-- A failure does not go without a line. -/
lemma append_failureLine_ne_empty (before behind : String) (f : Failure) :
    before ++ failureLine f ++ behind ≠ "" := by
  intro heq
  have hlist := congrArg String.toList heq
  simp [failureLine] at hlist

lemma errors_finish (d : Disk) (r : Report) : (({ disk := d } : Result).finish r).errors =
    String.join (r.failures.map failureLine) := by
  have hline (f : Failure) : s!"error: {f.message}\n" = failureLine f := by
    simp [failureLine, Failure.message, String.append_assoc, toString]
  simp only [Result.finish, hline, String.empty_append]

lemma exitCode_finish (d : Disk) (r : Report) :
    (({ disk := d } : Result).finish r).exitCode = 1 ↔ r.failures ≠ [] := by
  rw [Result.finish, Report.isSuccess, Result.exitCode]
  cases r.failures with
  | nil => simp
  | cons f fs => simp

/-! ### Results of a run that keeps going -/

section

variable {d d' : Disk} {v : Invocation} {dir : String} {b : Batch} {r : Report}
  (hcommand : v.command = .generate dir .keepGoing) (hload : load d v.inputs = .ok b)
  (hgenerate : b.generate v.extensions .keepGoing = .ok r)

include hcommand hload hgenerate

/-- When all pairs are written, the failures are told. -/
lemma run_keepGoing_of_published
    (hpublish : publishAll d dir (generatedPairs b v.extensions) = (.ok (), d')) :
    run d v = ({ disk := d' } : Result).finish r := by
  rw [generatedPairs, ← Batch.pairs_of_generate hgenerate] at hpublish
  rw [run_generate hcommand hload hgenerate, hpublish]

/-- When one pair cannot be written, the run ends with it. -/
lemma run_keepGoing_of_error {e : RunError}
    (hpublish : publishAll d dir (generatedPairs b v.extensions) = (.error e, d')) :
    run d v = .failed d' e := by
  rw [generatedPairs, ← Batch.pairs_of_generate hgenerate] at hpublish
  rw [run_generate hcommand hload hgenerate, hpublish]

end

/-- **Lines of failures**: a run that keeps going fails if a definition fails or a pair cannot be
written. It tells of every definition that fails just when all pairs are written, with one line for
each in the order of the definitions; a pair that cannot be written leaves them all untold. -/
theorem failures_told_iff {d : Disk} {v : Invocation} {dir : String} {b : Batch}
    (hcommand : v.command = .generate dir .keepGoing) (hload : load d v.inputs = .ok b)
    (hfiles : b.checkFiles v.extensions = .ok ()) :
    let written := (publishAll d dir (generatedPairs b v.extensions)).1 = .ok ()
    ((run d v).exitCode = 1 ↔
      (∃ definition ∈ b, ∃ f, definition.generate v.extensions = .error f) ∨ ¬ written) ∧
    ((run d v).TellsFailures b v.extensions ↔
      (∀ definition ∈ b, ∃ pair, definition.generate v.extensions = .ok pair) ∨ written) ∧
    (written → ∃ failures, List.Forall₂ (fun definition f =>
        definition.generate v.extensions = .error f ∧ f.name = definition.qualifiedName)
        (b.filter (!·.generates v.extensions)) failures ∧
      (run d v).errors = String.join (failures.map failureLine)) ∧
    (¬ written → (run d v).errors = "") := by
  intro written
  obtain ⟨r, hr⟩ := Batch.exists_isReport b v.extensions
  have hgenerate := hr.generate_keepGoing hfiles
  rcases hpublish : publishAll d dir (generatedPairs b v.extensions) with ⟨result, d'⟩
  cases result with
  | ok =>
    have hwritten : written := congrArg Prod.fst hpublish
    rw [run_keepGoing_of_published hcommand hload hgenerate hpublish]
    have htold : (({ disk := d' } : Result).finish r).TellsFailures b v.extensions := by
      intro definition hmem f hf
      refine ⟨Definition.name_of_generate_eq_error hf, ?_⟩
      rw [errors_finish]
      exact exists_join_eq_append (List.mem_map_of_mem (hr.mem_failures_iff.mpr ⟨_, hmem, hf⟩))
    refine ⟨?_, iff_of_true htold (.inr hwritten), fun _ => ⟨r.failures, hr.failures, ?_⟩,
      fun hnot => absurd hwritten hnot⟩
    · rw [exitCode_finish, hr.failures_ne_nil_iff, or_iff_left (not_not_intro hwritten)]
    · exact errors_finish d' r
  | error e =>
    have hnot : ¬ written := by
      intro hwritten
      simp [written, hpublish] at hwritten
    rw [run_keepGoing_of_error hcommand hload hgenerate hpublish]
    refine ⟨iff_of_true rfl (.inr hnot), ?_, fun hwritten => absurd hwritten hnot, fun _ => rfl⟩
    rw [or_iff_left hnot, ← hr.failures_eq_nil_iff]
    constructor
    · intro htold
      by_contra hsome
      obtain ⟨definition, hmem, f, hf⟩ := hr.failures_ne_nil_iff.mp hsome
      obtain ⟨-, before, behind, heq⟩ := htold definition hmem f hf
      exact append_failureLine_ne_empty before behind f heq.symm
    · intro hnone definition hmem f hf
      have hmem' := hr.mem_failures_iff.mpr ⟨definition, hmem, hf⟩
      simp [hnone] at hmem'

/-! ### A pair that cannot be written -/

/-- The pair of the definition that does not fail. -/
lemma exists_generatedPairs_fineAndEmpty :
    ∃ pair, generatedPairs fineAndEmpty {} = [pair] ∧ pair.paths = ["Fine.hpp", "Fine.cpp"] := by
  have hcheck : ∃ e, fineAndEmpty[0].check = .ok e := ⟨_, by cbv⟩
  obtain ⟨e, he⟩ := hcheck
  obtain ⟨pair, hpair⟩ := Definition.exists_generate he (x := {}) (by decide)
  refine ⟨pair, ?_, Batch.paths_of_generate hpair⟩
  have hempty : fineAndEmpty[1].generate {} = .error ⟨"Empty", .definition .noValues⟩ :=
    generate_empty {}
  change [fineAndEmpty[0].generate {}, fineAndEmpty[1].generate {}].filterMap _ = _
  rw [hpair, hempty]
  rfl

lemma checkFiles_fineAndEmpty : Batch.checkFiles fineAndEmpty {} = .ok () :=
  Batch.checkFiles_eq_ok_iff.mpr (by decide)

/-- Nothing can be moved to the place of the header. -/
lemma publish_blockedHeader {pair : FilePair} (hpath : pair.headerPath = "Fine.hpp") :
    blockedHeader.publish "." pair = (.error (.move "./Fine.hpp" .isDirectory), blockedHeader) := by
  have hdirectory : blockedHeader.ensureDirectory "." = (.ok (), blockedHeader) := rfl
  have hstage : blockedHeader.stagePair "." pair = .ok (blockedHeader.draft "." pair.headerPath
      pair.header, blockedHeader.draft "." pair.sourcePath pair.source) :=
    Disk.stagePair_eq_ok_iff.mpr ⟨rfl, .inr rfl⟩
  have hdraft : blockedHeader.draft "." pair.headerPath pair.header =
      ⟨"./Fine.hpp", some (Text.bytes pair.header)⟩ := by
    rw [hpath]
    rfl
  have hmove : blockedHeader.moveIntoPlace (blockedHeader.stagingPlace ".") "./Fine.hpp"
      (Text.bytes pair.header) = .error .isDirectory := rfl
  simp only [Disk.publish, hdirectory, hstage, hdraft, Disk.settle, hmove]

lemma publishAll_blockedHeader : ∃ e,
    publishAll blockedHeader "." (generatedPairs fineAndEmpty {}) = (.error e, blockedHeader) := by
  obtain ⟨pair, hpairs, hpaths⟩ := exists_generatedPairs_fineAndEmpty
  rw [hpairs, publishAll, publish_blockedHeader (List.cons.inj hpaths).1]
  exact ⟨_, rfl⟩

/-- The empty directory takes the pair. -/
lemma exists_publishAll_out : ∃ d',
    publishAll blockedHeader "out" (generatedPairs fineAndEmpty {}) = (.ok (), d') := by
  obtain ⟨pair, hpairs, hpaths⟩ := exists_generatedPairs_fineAndEmpty
  have hfiles : [pair].flatMap FilePair.paths = ["Fine.hpp", "Fine.cpp"] := by
    rw [List.flatMap_singleton, hpaths]
  have hnames : ∀ path ∈ [pair].flatMap FilePair.paths, Path.IsName path := by
    rw [hfiles, List.forall_mem_cons, List.forall_mem_singleton]
    exact ⟨⟨⟨by decide, by decide, by decide⟩, by decide⟩,
      ⟨⟨by decide, by decide, by decide⟩, by decide⟩⟩
  have hfree : ∀ path ∈ [pair].flatMap FilePair.paths, ∃ p,
      blockedHeader.locate (Path.join "out" path) = .ok p ∧
        blockedHeader.get? p ≠ some .directory := by
    rw [hfiles, List.forall_mem_cons, List.forall_mem_singleton]
    exact ⟨⟨["out", "Fine.hpp"], rfl, by decide⟩, ⟨["out", "Fine.cpp"], rfl, by decide⟩⟩
  have hroom : blockedHeader.room "out" = .ok () := rfl
  obtain ⟨d', hpublish, -⟩ := publishAll_of_locate hnames hroom hfree
  exact ⟨d', hpairs ▸ hpublish⟩

theorem blockedHeader_told :
    (run blockedHeader ⟨.generate "out" .keepGoing, ["in.json"], {}, 0⟩).TellsFailures
        fineAndEmpty {} ∧
      (run blockedHeader ⟨.generate "out" .keepGoing, ["in.json"], {}, 0⟩).exitCode = 1 ∧
      (run blockedHeader ⟨.generate "." .keepGoing, ["in.json"], {}, 0⟩).errors = "" := by
  obtain ⟨d', hpublish⟩ := exists_publishAll_out
  obtain ⟨e, hblocked⟩ := publishAll_blockedHeader
  have hempty : ∃ definition ∈ fineAndEmpty, ∃ f, definition.generate {} = .error f :=
    ⟨{ name := "Empty" }, by simp [fineAndEmpty], _, generate_empty {}⟩
  obtain ⟨hexit, htold, -, -⟩ :=
    failures_told_iff (v := ⟨.generate "out" .keepGoing, ["in.json"], {}, 0⟩) rfl
      load_blockedHeader checkFiles_fineAndEmpty
  obtain ⟨-, -, -, huntold⟩ :=
    failures_told_iff (v := ⟨.generate "." .keepGoing, ["in.json"], {}, 0⟩) rfl
      load_blockedHeader checkFiles_fineAndEmpty
  exact ⟨htold.mpr (.inr (congrArg Prod.fst hpublish)), hexit.mpr (.inl hempty),
    huntold (by simp [hblocked])⟩

/-- A definition that fails can go untold: nothing can be moved to the place of the header of
another one, and the run ends with that. -/
theorem failure_untold :
    load blockedHeader ["in.json"] = .ok fineAndEmpty ∧
      Batch.checkFiles fineAndEmpty {} = .ok () ∧
      (∃ definition ∈ fineAndEmpty, definition.generate {} =
        .error ⟨"Empty", .definition .noValues⟩) ∧
      (run blockedHeader ⟨.generate "." .keepGoing, ["in.json"], {}, 0⟩).errors = "" ∧
      ¬ (run blockedHeader ⟨.generate "." .keepGoing, ["in.json"], {}, 0⟩).TellsFailures
        fineAndEmpty {} := by
  have hmem : ({ name := "Empty" } : Definition) ∈ fineAndEmpty := by simp [fineAndEmpty]
  obtain ⟨r, hr⟩ := Batch.exists_isReport fineAndEmpty {}
  obtain ⟨e, hpublish⟩ := publishAll_blockedHeader
  have hrun : run blockedHeader ⟨.generate "." .keepGoing, ["in.json"], {}, 0⟩ =
      .failed blockedHeader e :=
    run_keepGoing_of_error rfl load_blockedHeader (hr.generate_keepGoing checkFiles_fineAndEmpty)
      hpublish
  refine ⟨load_blockedHeader, checkFiles_fineAndEmpty, ⟨_, hmem, generate_empty {}⟩,
    congrArg Result.errors hrun, fun htold => ?_⟩
  obtain ⟨-, before, behind, heq⟩ := htold _ hmem _ (generate_empty {})
  rw [hrun] at heq
  exact append_failureLine_ne_empty before behind _ heq.symm

end EnumForge.CommandLine
