import EnumForge.Proofs.Obstacles

/-!
What the commands have in common. Checking, printing and generating make the same of the same inputs
and differ only in what they do with it, so that one of them shows what another one would do.
-/

namespace EnumForge

/-- A pair has the qualified name of its definition. -/
lemma Definition.name_of_generate {d : Definition} {x : Extensions} {pair : FilePair}
    (h : d.generate x = .ok pair) : pair.name = d.qualifiedName := by
  obtain ⟨e, he, hrender⟩ := generate_eq_ok_iff.mp h
  obtain ⟨rfl, -⟩ := Enumeration.valid_of_check he
  exact (Enumeration.names_of_render hrender).1

namespace CommandLine

/-! ### Pairs handed on -/

/-- Pairs are published one after another, each on the disk that the one before has left, up to the
first that cannot be published. -/
inductive Publishes (dir : String) : Disk → List FilePair → Option RunError → Disk → Prop
  | done (d : Disk) : Publishes dir d [] none d
  | next {d d₁ d' : Disk} {pair : FilePair} {rest : List FilePair} {failure : Option RunError}
    {outcomes : List (String × Outcome)} (h : d.publish dir pair = (.ok outcomes, d₁))
    (hrest : Publishes dir d₁ rest failure d') : Publishes dir d (pair :: rest) failure d'
  | stop {d d' : Disk} {pair : FilePair} {rest : List FilePair} {e : PublishError}
    (h : d.publish dir pair = (.error e, d')) :
    Publishes dir d (pair :: rest) (some (.unwritable pair.name e)) d'

lemma exists_publishes (d : Disk) (dir : String) (pairs : List FilePair) :
    ∃ failure d', Publishes dir d pairs failure d' ∧
      (match publishAll d dir pairs with
        | (.error e, d') => .failed d' e
        | (.ok (), d') => { disk := d' }) = ({ failure, disk := d' } : Result) := by
  induction pairs generalizing d with
  | nil => exact ⟨none, d, .done d, rfl⟩
  | cons pair rest ih =>
    rw [publishAll]
    rcases hpublish : d.publish dir pair with ⟨_ | _, d₁⟩
    · exact ⟨_, d₁, .stop hpublish, rfl⟩
    · obtain ⟨failure, d', hpublishes, hresult⟩ := ih d₁
      exact ⟨failure, d', .next hpublish hpublishes, hresult⟩

/-! ### Inputs that are in order -/

/-- The inputs load, and each of their definitions has its pair. -/
structure Ready (d : Disk) (inputs : List String) (x : Extensions) (b : Batch)
    (pairs : List FilePair) : Prop where
  load : load d inputs = .ok b
  generate : b.generate x .stopAtFirst = .ok { pairs }
  pairs : List.Forall₂ (fun definition pair => definition.generate x = .ok pair) b pairs

variable {d : Disk} {inputs : List String} {x : Extensions} {b : Batch} {pairs : List FilePair}
  {verbosity : Nat}

lemma ready_of_generate {r : Report} (hload : load d inputs = .ok b)
    (hgenerate : b.generate x .stopAtFirst = .ok r) : Ready d inputs x b r.pairs := by
  obtain ⟨pairs, failures⟩ := r
  obtain ⟨-, hnone, hpairs⟩ := Batch.generate_stopAtFirst_iff_forall₂.mp hgenerate
  obtain rfl : failures = [] := hnone
  exact ⟨hload, hgenerate, hpairs⟩

/-! ### The commands on such inputs -/

namespace Ready

variable (h : Ready d inputs x b pairs)

include h

lemma run_check : run d ⟨.check, inputs, x, verbosity⟩ =
    { output := String.join (pairs.map fun pair => s!"ok {pair.name}\n"), disk := d } := by
  have hkeepGoing := (Batch.generate_stopAtFirst_eq_ok_iff.mp h.generate).1
  have hprepare : prepare d ⟨.check, inputs, x, verbosity⟩ = .ok { pairs } :=
    prepare_eq_ok_iff.mpr ⟨b, h.load, by simp, hkeepGoing⟩
  rw [run, hprepare]
  rfl

lemma run_print : run d ⟨.print none, inputs, x, verbosity⟩ =
    { output := String.join (pairs.map printed), disk := d } := by
  have hprepare : prepare d ⟨.print none, inputs, x, verbosity⟩ = .ok { pairs } :=
    prepare_eq_ok_iff.mpr ⟨b, h.load, by simp, h.generate⟩
  rw [run, hprepare]

lemma prepare_generate (dir : String) :
    prepare d ⟨.generate dir .stopAtFirst, inputs, x, verbosity⟩ = .ok { pairs } :=
  prepare_eq_ok_iff.mpr ⟨b, h.load, by simp, h.generate⟩

lemma run_generate (dir : String) : run d ⟨.generate dir .stopAtFirst, inputs, x, verbosity⟩ =
    match publishAll d dir pairs with
    | (.error e, d') => .failed d' e
    | (.ok (), d') => { disk := d' } := by
  rw [CommandLine.run_generate rfl h.load h.generate]
  rfl

/-- What was checked is told in the order of the definitions. -/
lemma map_name : pairs.map FilePair.name = b.map Definition.qualifiedName := by
  have hpairs := h.pairs
  clear h
  induction hpairs with
  | nil => rfl
  | cons hpair _ ih => rw [List.map_cons, List.map_cons, ih, Definition.name_of_generate hpair]

end Ready

/-! ### Commands that succeed -/

lemma exitCode_check_iff : (run d ⟨.check, inputs, x, verbosity⟩).exitCode = 0 ↔
    ∃ b pairs, Ready d inputs x b pairs := by
  constructor
  · intro h
    obtain ⟨r, hprepare⟩ := exists_prepare_of_exitCode h
    obtain ⟨b, hload, -, hgenerate⟩ := prepare_eq_ok_iff.mp hprepare
    -- a single failure would make the command fail at its end
    have hnone : r.failures = [] := by
      by_contra hsome
      simp [run, hprepare, Result.finish, Result.exitCode, Report.isSuccess, hsome] at h
    have hstop := Batch.generate_stopAtFirst_eq_ok_iff.mpr ⟨hgenerate, hnone⟩
    exact ⟨b, r.pairs, ready_of_generate hload hstop⟩
  · rintro ⟨b, pairs, hready⟩
    rw [hready.run_check]
    rfl

lemma exitCode_print_iff : (run d ⟨.print none, inputs, x, verbosity⟩).exitCode = 0 ↔
    ∃ b pairs, Ready d inputs x b pairs := by
  constructor
  · intro h
    obtain ⟨r, hprepare⟩ := exists_prepare_of_exitCode h
    obtain ⟨b, hload, -, hgenerate⟩ := prepare_eq_ok_iff.mp hprepare
    exact ⟨b, r.pairs, ready_of_generate hload hgenerate⟩
  · rintro ⟨b, pairs, hready⟩
    rw [hready.run_print]
    rfl

lemma not_obstacle_iff {dir : String} :
    ¬ Obstacle d ⟨.generate dir .stopAtFirst, inputs, x, verbosity⟩ ↔
      ∃ b pairs, Ready d inputs x b pairs := by
  constructor
  · intro hclear
    obtain ⟨r, hprepare⟩ := exists_prepare hclear
    obtain ⟨b, hload, -, hgenerate⟩ := prepare_eq_ok_iff.mp hprepare
    exact ⟨b, r.pairs, ready_of_generate hload hgenerate⟩
  · rintro ⟨b, pairs, hready⟩ hobstacle
    exact hobstacle.not_prepared ⟨_, hready.prepare_generate dir⟩

/-- An error that is not of writing tells of an obstacle. -/
lemma failure_isOfWriting_iff {dir : String} :
    (∀ e, (run d ⟨.generate dir .stopAtFirst, inputs, x, verbosity⟩).failure = some e →
      e.IsOfWriting) ↔ ¬ Obstacle d ⟨.generate dir .stopAtFirst, inputs, x, verbosity⟩ := by
  constructor
  · intro h hobstacle
    obtain ⟨e, hwriting, hrun⟩ := exists_run_eq_failed hobstacle
    exact hwriting (h e (by rw [hrun]; rfl))
  · exact fun hclear e he => isOfWriting_of_clear rfl hclear he

/-- **Agreement**: on the same inputs, checking succeeds just when printing does and just when
generating meets no error but those of writing. Then there is a pair for each definition, in the
order of the definitions. These pairs are what is printed, generating publishes them one after
another up to the first that cannot be published, and checking names the definitions in this
order. -/
theorem commands_agree (d : Disk) (inputs : List String) (x : Extensions) (dir : String)
    (n₁ n₂ n₃ : Nat) :
    let check := run d ⟨.check, inputs, x, n₁⟩
    let print := run d ⟨.print none, inputs, x, n₂⟩
    let generate := run d ⟨.generate dir .stopAtFirst, inputs, x, n₃⟩
    (check.exitCode = 0 ↔ print.exitCode = 0) ∧
      (check.exitCode = 0 ↔ ¬ Obstacle d ⟨.generate dir .stopAtFirst, inputs, x, n₃⟩) ∧
      (check.exitCode = 0 ↔ ∀ e, generate.failure = some e → e.IsOfWriting) ∧
      (check.exitCode = 0 → ∃ b pairs, load d inputs = .ok b ∧
        List.Forall₂ (fun definition pair => definition.generate x = .ok pair) b pairs ∧
        print.output = String.join (pairs.map fun pair =>
          "// ---- " ++ pair.headerPath ++ " ----\n" ++ pair.header ++
            ("// ---- " ++ pair.sourcePath ++ " ----\n") ++ pair.source) ∧
        check.output = String.join (b.map fun definition =>
          "ok " ++ definition.qualifiedName ++ "\n") ∧
        check.errors = "" ∧ print.errors = "" ∧
        ∃ failure d', Publishes dir d pairs failure d' ∧
          generate = { failure, disk := d' }) := by
  intro check print generate
  have hcheck : check.exitCode = 0 ↔ ∃ b pairs, Ready d inputs x b pairs := exitCode_check_iff
  refine ⟨hcheck.trans exitCode_print_iff.symm, hcheck.trans not_obstacle_iff.symm,
    hcheck.trans (failure_isOfWriting_iff.trans not_obstacle_iff).symm, fun h => ?_⟩
  obtain ⟨b, pairs, hready⟩ := hcheck.mp h
  have hprinted : print.output = String.join (pairs.map printed) :=
    congrArg Result.output hready.run_print
  have hchecked : check.output = String.join ((pairs.map FilePair.name).map fun name =>
      "ok " ++ name ++ "\n") := by
    rw [List.map_map]
    exact congrArg Result.output hready.run_check
  refine ⟨b, pairs, hready.load, hready.pairs, ?_, ?_, congrArg Result.errors hready.run_check,
    congrArg Result.errors hready.run_print, ?_⟩
  · exact hprinted
  · rw [hchecked, hready.map_name, List.map_map]
    rfl
  · obtain ⟨failure, d', hpublishes, hresult⟩ := exists_publishes d dir pairs
    exact ⟨failure, d', hpublishes, (hready.run_generate dir).trans hresult⟩

/-- Two definitions that can be generated, one of them in a scope. -/
def colorAndLevel : Batch := [
  { name := "Color", scope := ["gfx"], values := some (.names ["RED", "GREEN"]) },
  { name := "Level", values := some (.mapping [("HIGH", .integer 10), ("LOW", .integer 1)]) }]

/-- Both definitions, each in a file of its own. -/
def twoFiles : Disk where
  entries := [
    (["a.json"], .file (Text.bytes
      ("\x7b\x22enums\x22:[\x7b\x22name\x22:\x22Color\x22,\x22namespace\x22:\x22gfx\x22," ++
        "\x22values\x22:[\x22RED\x22,\x22GREEN\x22]\x7d]\x7d"))),
    (["b.json"], .file (Text.bytes
      ("\x7b\x22enums\x22:[\x7b\x22name\x22:\x22Level\x22," ++
        "\x22values\x22:\x7b\x22HIGH\x22:10,\x22LOW\x22:1\x7d\x7d]\x7d")))]

lemma load_twoFiles : load twoFiles ["a.json", "b.json"] = .ok colorAndLevel := by
  have hcolor : loadFile twoFiles "a.json" = .ok [colorAndLevel[0]] :=
    loadFile_eq_ok_iff.mpr ⟨_, rfl, by cbv⟩
  have hlevel : loadFile twoFiles "b.json" = .ok [colorAndLevel[1]] :=
    loadFile_eq_ok_iff.mpr ⟨_, rfl, by cbv⟩
  exact load_eq_ok_iff.mpr ⟨[["a.json"], ["b.json"]], [_, _],
    .cons (resolveInput_of_plain _ (by decide)) (.cons (resolveInput_of_plain _ (by decide)) .nil),
    .cons hcolor (.cons hlevel .nil), rfl⟩

lemma exists_ready_twoFiles :
    ∃ b pairs, Ready twoFiles ["a.json", "b.json"] {} b pairs := by
  have hcolor : ∃ e, colorAndLevel[0].check = .ok e := ⟨_, by cbv⟩
  have hlevel : ∃ e, colorAndLevel[1].check = .ok e := ⟨_, by cbv⟩
  have hall : ∀ definition ∈ colorAndLevel, ∃ e, definition.check = .ok e :=
    List.forall_mem_cons.mpr ⟨hcolor, List.forall_mem_singleton.mpr hlevel⟩
  obtain ⟨r, hr⟩ := Batch.exists_generate_of_checks (x := {}) .stopAtFirst (by decide) (by decide)
    hall
  exact ⟨_, _, ready_of_generate load_twoFiles hr⟩

theorem twoFiles_agree :
    (run twoFiles ⟨.print none, ["a.json", "b.json"], {}, 0⟩).exitCode = 0 ∧
      (run twoFiles ⟨.check, ["a.json", "b.json"], {}, 0⟩).output = "ok gfx::Color\nok Level\n" ∧
      (∀ e, (run twoFiles ⟨.generate "out" .stopAtFirst, ["a.json", "b.json"], {}, 0⟩).failure =
        some e → e.IsOfWriting) ∧
      ∃ color level failure d', Publishes "out" twoFiles [color, level] failure d' ∧
        color.name = "gfx::Color" ∧ level.name = "Level" ∧
        run twoFiles ⟨.generate "out" .stopAtFirst, ["a.json", "b.json"], {}, 0⟩ =
          { failure, disk := d' } := by
  have hcheck : (run twoFiles ⟨.check, ["a.json", "b.json"], {}, 0⟩).exitCode = 0 :=
    exitCode_check_iff.mpr exists_ready_twoFiles
  obtain ⟨hprint, -, hwriting, houtput⟩ :=
    commands_agree twoFiles ["a.json", "b.json"] {} "out" 0 0 0
  obtain ⟨b, pairs, hload, hpairs, -, hchecked, -, -, failure, d', hpublishes, hrun⟩ :=
    houtput hcheck
  rw [load_twoFiles] at hload
  cases hload
  obtain ⟨color, _, hcolor, hrest, rfl⟩ := List.forall₂_cons_left_iff.mp hpairs
  obtain ⟨level, _, hlevel, hnil, rfl⟩ := List.forall₂_cons_left_iff.mp hrest
  obtain rfl := List.forall₂_nil_left_iff.mp hnil
  exact ⟨hprint.mp hcheck, hchecked, hwriting.mp hcheck, color, level, failure, d', hpublishes,
    Definition.name_of_generate hcolor, Definition.name_of_generate hlevel, hrun⟩

end CommandLine

end EnumForge
