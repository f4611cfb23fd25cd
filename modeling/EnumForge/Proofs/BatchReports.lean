import Mathlib.Data.List.Forall2
import EnumForge.Proofs.FileCollisions

/-!
What is reported of a batch. Both policies look at the same results: keeping going puts each of them
into one of two lists, and stopping at the first failure fails with the first entry of the second
list, or reports the same if that list is empty.
-/

namespace EnumForge

namespace Definition

/-- The two files of the definition can be made. -/
def generates (d : Definition) (x : Extensions) : Bool := (d.generate x).isOk

lemma generates_of_ok {d : Definition} {x : Extensions} {pair : FilePair}
    (h : d.generate x = .ok pair) : d.generates x = true := congrArg Except.isOk h

lemma generates_of_error {d : Definition} {x : Extensions} {f : Failure}
    (h : d.generate x = .error f) : d.generates x = false := congrArg Except.isOk h

/-- A failure is tagged with the definition that fails. -/
lemma name_of_generate_eq_error {d : Definition} {x : Extensions} {f : Failure}
    (h : d.generate x = .error f) : f.name = d.qualifiedName := by
  unfold generate at h
  split at h
  · cases h
    rfl
  · split at h
    · cases h
      rfl
    · cases h

end Definition

namespace Batch

open Validation

/-! ### Reports -/

/-- A report of definitions: each of them is in one of the two lists, with its files or with what is
wrong with it, and both lists are in the order of the definitions. -/
inductive IsReport (x : Extensions) : Batch → Report → Prop
  | nil : IsReport x [] {}
  | generated {d : Definition} {b : Batch} {pair : FilePair} {r : Report}
      (hd : d.generate x = .ok pair) (hb : IsReport x b r) :
      IsReport x (d :: b) { r with pairs := pair :: r.pairs }
  | failed {d : Definition} {b : Batch} {f : Failure} {r : Report}
      (hd : d.generate x = .error f) (hb : IsReport x b r) :
      IsReport x (d :: b) { r with failures := f :: r.failures }

lemma exists_isReport (b : Batch) (x : Extensions) : ∃ r, IsReport x b r := by
  induction b with
  | nil => exact ⟨_, .nil⟩
  | cons d b ih =>
    obtain ⟨r, hb⟩ := ih
    cases hd : d.generate x with
    | ok pair => exact ⟨_, .generated hd hb⟩
    | error f => exact ⟨_, .failed hd hb⟩

namespace IsReport

variable {b : Batch} {x : Extensions} {r : Report} (h : IsReport x b r)

include h

/-- The pairs are those of the definitions that can be generated. -/
theorem pairs : List.Forall₂ (fun d pair => d.generate x = .ok pair)
    (b.filter (·.generates x)) r.pairs := by
  induction h with
  | nil => exact .nil
  | generated hd _ ih =>
    rw [List.filter_cons, if_pos (Definition.generates_of_ok hd)]
    exact .cons hd ih
  | failed hd _ ih =>
    rw [List.filter_cons, if_neg (by simp [Definition.generates_of_error hd])]
    exact ih

/-- The failures are those of the other definitions. -/
theorem failures : List.Forall₂ (fun d f => d.generate x = .error f ∧ f.name = d.qualifiedName)
    (b.filter (!·.generates x)) r.failures := by
  induction h with
  | nil => exact .nil
  | generated hd _ ih =>
    rw [List.filter_cons, if_neg (by simp [Definition.generates_of_ok hd])]
    exact ih
  | failed hd _ ih =>
    rw [List.filter_cons, if_pos (by simp [Definition.generates_of_error hd])]
    exact .cons ⟨hd, Definition.name_of_generate_eq_error hd⟩ ih

/-- No definition is lost and none is counted twice. -/
lemma length : r.pairs.length + r.failures.length = b.length := by
  induction h with
  | nil => rfl
  | generated _ _ ih =>
    simp only [List.length_cons]
    omega
  | failed _ _ ih =>
    simp only [List.length_cons]
    omega

lemma mem_failures_iff {f : Failure} : f ∈ r.failures ↔ ∃ d ∈ b, d.generate x = .error f := by
  induction h with
  | nil => simp
  | generated hd _ ih => simp [ih, hd]
  | failed hd _ ih => simp [ih, hd, eq_comm]

lemma failures_eq_nil_iff : r.failures = [] ↔ ∀ d ∈ b, ∃ pair, d.generate x = .ok pair := by
  induction h with
  | nil => simp
  | generated hd _ ih => simp [ih, hd]
  | failed hd _ _ => simp [hd]

lemma failures_ne_nil_iff : r.failures ≠ [] ↔ ∃ d ∈ b, ∃ f, d.generate x = .error f := by
  rw [ne_eq, h.failures_eq_nil_iff]
  push Not
  refine exists_congr fun d => and_congr_right fun _ => ?_
  cases d.generate x with
  | ok pair => simp
  | error f => simp

/-- Without a failure every definition has its pair, in the order of the definitions. -/
lemma forall₂_pairs (hnone : r.failures = []) :
    List.Forall₂ (fun d pair => d.generate x = .ok pair) b r.pairs := by
  induction h with
  | nil => exact .nil
  | generated hd _ ih => exact .cons hd (ih hnone)
  | failed => cases hnone

/-! ### Collecting -/

lemma collect_keepGoing : collect .keepGoing (b.map (·.generate x)) = .ok r := by
  induction h with
  | nil => rfl
  | generated hd _ ih =>
    rw [List.map_cons, hd, collect, ih]
    rfl
  | failed hd _ ih =>
    rw [List.map_cons, hd, collect, ih]
    rfl

lemma collect_stopAtFirst : collect .stopAtFirst (b.map (·.generate x)) =
    r.failures.head?.elim (.ok r) fun f => .error (.failed f) := by
  induction h with
  | nil => rfl
  | @generated d b pair r hd _ ih =>
    rw [List.map_cons, hd, collect, ih]
    obtain ⟨pairs, failures⟩ := r
    cases failures with
    | nil => rfl
    | cons f fs => rfl
  | failed hd =>
    rw [List.map_cons, hd, collect]
    rfl

lemma generate_keepGoing (hfiles : b.checkFiles x = .ok ()) : b.generate x .keepGoing = .ok r := by
  rw [generate, hfiles]
  exact h.collect_keepGoing

lemma generate_stopAtFirst (hfiles : b.checkFiles x = .ok ()) :
    b.generate x .stopAtFirst = r.failures.head?.elim (.ok r) fun f => .error (.failed f) := by
  rw [generate, hfiles]
  exact h.collect_stopAtFirst

end IsReport

/-! ### Collisions -/

lemma checkFilesFrom_eq_error {x : Extensions} {owners : List (String × String)} {b : Batch}
    {e : BatchError} (h : checkFilesFrom x owners b = .error e) :
    ∃ path first second, e = .collision path first second := by
  obtain ⟨j, -, hj⟩ := checkFilesFrom_eq_error_iff.mp h
  obtain ⟨path, first, -, -, he⟩ := (claimFiles_eq_error_iff (nodup_filesOf x _)).mp hj
  exact ⟨path, first, _, he⟩

/-! ### Both policies -/

lemma generate_of_collision {b : Batch} {x : Extensions} {e : BatchError}
    (hfiles : b.checkFiles x = .error e) (policy : FailurePolicy) :
    b.generate x policy = .error e := by
  rw [generate, hfiles]
  rfl

/-- Stopping at the first failure reports just what keeping going reports without a failure. -/
lemma generate_stopAtFirst_eq_ok_iff {b : Batch} {x : Extensions} {r : Report} :
    b.generate x .stopAtFirst = .ok r ↔ b.generate x .keepGoing = .ok r ∧ r.failures = [] := by
  obtain ⟨r', hr'⟩ := exists_isReport b x
  cases hfiles : b.checkFiles x with
  | error e => simp [generate_of_collision hfiles]
  | ok =>
    rw [hr'.generate_stopAtFirst hfiles, hr'.generate_keepGoing hfiles]
    cases hfailures : r'.failures with
    | nil =>
      rw [List.head?_nil, Option.elim_none, iff_self_and]
      rintro ⟨⟩
      exact hfailures
    | cons f fs =>
      rw [List.head?_cons, Option.elim_some]
      refine iff_of_false (by simp) ?_
      rintro ⟨⟨⟩, hnone⟩
      simp [hnone] at hfailures

/-- Such a report holds a pair for each definition, in their order, and the definitions write
different files. -/
lemma generate_stopAtFirst_iff_forall₂ {b : Batch} {x : Extensions} {r : Report} :
    b.generate x .stopAtFirst = .ok r ↔ (b.flatMap (filesOf x)).Nodup ∧ r.failures = [] ∧
      List.Forall₂ (fun d pair => d.generate x = .ok pair) b r.pairs := by
  rw [← checkFiles_eq_ok_iff]
  constructor
  · intro h
    obtain ⟨hkeepGoing, hnone⟩ := generate_stopAtFirst_eq_ok_iff.mp h
    obtain ⟨r', hr'⟩ := exists_isReport b x
    cases hfiles : b.checkFiles x with
    | error e => simp [generate_of_collision hfiles] at h
    | ok =>
      obtain rfl : r' = r := by simpa [hr'.generate_keepGoing hfiles] using hkeepGoing
      exact ⟨rfl, hnone, hr'.forall₂_pairs hnone⟩
  · rintro ⟨hfiles, hnone, hpairs⟩
    obtain ⟨pairs, failures⟩ := r
    obtain rfl : failures = [] := hnone
    change List.Forall₂ _ b pairs at hpairs
    have hr : IsReport x b { pairs } := by
      clear hfiles
      induction hpairs with
      | nil => exact .nil
      | cons hd _ ih => exact .generated hd ih
    exact hr.generate_stopAtFirst hfiles

/-- A report is made just when no two definitions write one file and, if the first failure stops it,
no definition fails. -/
theorem exists_generate_iff {b : Batch} {x : Extensions} {policy : FailurePolicy} :
    (∃ r, b.generate x policy = .ok r) ↔ b.checkFiles x = .ok () ∧
      (policy = .stopAtFirst → ∀ d ∈ b, ∃ pair, d.generate x = .ok pair) := by
  obtain ⟨r, hr⟩ := exists_isReport b x
  cases hfiles : b.checkFiles x with
  | error e => simp [generate_of_collision hfiles]
  | ok =>
    cases policy with
    | keepGoing => simp [hr.generate_keepGoing hfiles]
    | stopAtFirst =>
      rw [hr.generate_stopAtFirst hfiles, ← hr.failures_eq_nil_iff]
      cases r.failures with
      | nil => simp
      | cons f fs => simp

/-- Definitions that are accepted are generated if all their files have different names. -/
lemma exists_generate_of_checks {b : Batch} {x : Extensions} (policy : FailurePolicy)
    (hx : x.header ≠ x.source) (hfiles : (b.flatMap (filesOf x)).Nodup)
    (hchecks : ∀ d ∈ b, ∃ e, d.check = .ok e) : ∃ r, b.generate x policy = .ok r := by
  refine exists_generate_iff.mpr ⟨checkFiles_eq_ok_iff.mpr hfiles, fun _ d hd => ?_⟩
  obtain ⟨e, he⟩ := hchecks d hd
  exact Definition.exists_generate he hx

/-- **Policies**: unless two definitions write one file, keeping going reports every definition once,
with its pair or with its failure, and stopping at the first failure reports the same if there is
none and ends in the first one otherwise. If two definitions write one file, that is all that either
policy says. -/
theorem generate_by_policy (b : Batch) (x : Extensions) :
    (b.checkFiles x = .ok () → ∃ r, b.generate x .keepGoing = .ok r ∧
      List.Forall₂ (fun d pair => d.generate x = .ok pair) (b.filter (·.generates x)) r.pairs ∧
      List.Forall₂ (fun d f => d.generate x = .error f ∧ f.name = d.qualifiedName)
        (b.filter (!·.generates x)) r.failures ∧
      r.pairs.length + r.failures.length = b.length ∧
      ((∃ r', b.generate x .stopAtFirst = .ok r') ↔ r.failures = []) ∧
      (∀ r', b.generate x .stopAtFirst = .ok r' → r' = r) ∧
      ∀ f fs, r.failures = f :: fs → b.generate x .stopAtFirst = .error (.failed f)) ∧
    ∀ e, b.checkFiles x = .error e →
      (∃ path first second, e = .collision path first second) ∧
      ∀ policy, b.generate x policy = .error e := by
  constructor
  · intro hfiles
    obtain ⟨r, hr⟩ := exists_isReport b x
    have hstop := hr.generate_stopAtFirst hfiles
    refine ⟨r, hr.generate_keepGoing hfiles, hr.pairs, hr.failures, hr.length, ?_, ?_, ?_⟩
    all_goals
      rw [hstop]
      cases hfailures : r.failures with
      | nil => simp
      | cons f fs => simp
  · intro e hfiles
    exact ⟨checkFilesFrom_eq_error hfiles, generate_of_collision hfiles⟩

end Batch

/-- One definition that can be generated and two that cannot. -/
def twoFailures : Batch :=
  [separators, { name := "Empty" }, { name := "Twice", values := some (.names ["A", "A"]) }]

/-- Two definitions with one stem. -/
def sharedStem : Batch := [separators, { name := "Other", stem := some "Separator" }]

theorem twoFailures_by_policy :
    (∃ r, twoFailures.generate {} .keepGoing = .ok r ∧ r.pairs.length = 1 ∧
      r.failures = [⟨"Empty", .definition .noValues⟩, ⟨"Twice", .definition (.duplicateName "A")⟩] ∧
      twoFailures.generate {} .stopAtFirst = .error (.failed ⟨"Empty", .definition .noValues⟩)) ∧
    ∀ policy, sharedStem.generate {} policy =
      .error (.collision "Separator.hpp" "Separator" "Other") := by
  have hfiles : twoFailures.checkFiles {} = .ok () := Batch.checkFiles_eq_ok_iff.mpr (by decide)
  have hcollision : sharedStem.checkFiles {} =
      .error (.collision "Separator.hpp" "Separator" "Other") := by cbv
  obtain ⟨pair, hpair⟩ := Definition.exists_generate check_separators (x := {}) (by decide)
  have hempty : ({ name := "Empty" } : Definition).generate {} =
      .error ⟨"Empty", .definition .noValues⟩ := by cbv
  have htwice : ({ name := "Twice", values := some (.names ["A", "A"]) } : Definition).generate {} =
      .error ⟨"Twice", .definition (.duplicateName "A")⟩ := by cbv
  obtain ⟨r, hkeepGoing, -, hfailures, hlength, -, -, hfirst⟩ :=
    (Batch.generate_by_policy twoFailures {}).1 hfiles
  have hfailing : twoFailures.filter (!·.generates {}) = twoFailures.tail := by
    simp [twoFailures, Definition.generates_of_ok hpair, Definition.generates_of_error hempty,
      Definition.generates_of_error htwice]
  rw [hfailing] at hfailures
  have hr : r.failures =
      [⟨"Empty", .definition .noValues⟩, ⟨"Twice", .definition (.duplicateName "A")⟩] := by
    obtain ⟨f, fs, ⟨hf, -⟩, hfs, heq⟩ := List.forall₂_cons_left_iff.mp hfailures
    obtain ⟨g, gs, ⟨hg, -⟩, hgs, rfl⟩ := List.forall₂_cons_left_iff.mp hfs
    rw [hempty] at hf
    rw [htwice] at hg
    cases hf
    cases hg
    rw [heq, List.forall₂_nil_left_iff.mp hgs]
  refine ⟨⟨r, hkeepGoing, ?_, hr, hfirst _ _ hr⟩, ?_⟩
  · rw [hr] at hlength
    exact Nat.add_right_cancel hlength
  · exact ((Batch.generate_by_policy sharedStem {}).2 _ hcollision).2

end EnumForge
