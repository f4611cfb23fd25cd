import EnumForge.Proofs.OutputPaths

/-!
Bare names stand for a mapping of the names to their positions. The two are checked and sorted in
different ways, yet they come to the same files or to the same failure: the mapping is sorted as it
is written, and where a name is repeated both are refused before anyone looks at the constants.
-/

namespace EnumForge

open Validation

/-- The names with their positions. -/
def numbered (ns : List String) : List (String × WrittenValue) :=
  ns.zipIdx.map fun (n, i) => (n, .integer i)

section

variable (ns : List String)

@[simp] lemma labels_numbered : (WrittenValues.mapping (numbered ns)).labels = ns := by
  simp [WrittenValues.labels, numbered, Function.comp_def]

/-- Positions are of one kind, and none of them is a text. -/
lemma checkWritten_numbered : checkWritten (.mapping (numbered ns)) = .ok () := by
  refine Definition.checkWritten_eq_ok.mpr ⟨fun p hp q hq => ?_, fun n s hmem => ?_⟩
  · obtain ⟨_, -, rfl⟩ := List.mem_map.mp hp
    obtain ⟨_, -, rfl⟩ := List.mem_map.mp hq
    rfl
  · obtain ⟨_, -, heq⟩ := List.mem_map.mp hmem
    cases heq

/-- The mapping is sorted as it is written. -/
lemma constants_numbered : (WrittenValues.mapping (numbered ns)).constants =
    ns.zipIdx.map fun (n, i) => ⟨n, .integer i⟩ := by
  rw [WrittenValues.constants, numbered, List.filterMap_map]
  calc
    _ = (ns.zipIdx.map fun (n, i) => Constant.mk n (.integer i)).mergeSort Constant.le :=
      congrArg (List.mergeSort · Constant.le) (congrFun List.filterMap_eq_map _)
    _ = _ := List.mergeSort_of_pairwise (WrittenValues.pairwise_le_zipIdx ns)

end

namespace Definition

/-- The checks of both forms end alike, one after another. -/
lemma check_numbered (d : Definition) (ns : List String) :
    (d.withMapping (numbered ns)).check =
      (fun e => ⟨d.withMapping (numbered ns), e.constants⟩) <$> (d.withNames ns).check := by
  have hempty : (WrittenValues.mapping (numbered ns)).isEmpty = (WrittenValues.names ns).isEmpty := by
    rw [WrittenValues.isEmpty, WrittenValues.size, labels_numbered]
    rfl
  simp only [check, withMapping, withNames, hempty, labels_numbered, checkWritten_numbered,
    constants_numbered, map_bind]
  refine bind_congr fun _ => bind_congr fun _ => bind_congr fun _ => bind_congr fun _ => ?_
  refine bind_congr fun _ => bind_congr fun _ => check_bind_congr fun hdistinct => ?_
  have hnodup : ns.Nodup := (checkDistinctNames_eq_ok.mp hdistinct).1
  rw [WrittenValues.constants_names hnodup]
  rfl

/-- **Bare names**: a definition with bare names, repeated and unfit ones included, is generated just
as the one that maps each name to its position, with the same files or the same failure. -/
theorem generate_withNames (d : Definition) (ns : List String) (x : Extensions) :
    (d.withNames ns).generate x = (d.withMapping (numbered ns)).generate x := by
  have hqualified : (d.withMapping (numbered ns)).qualifiedName = (d.withNames ns).qualifiedName :=
    rfl
  unfold generate
  rw [check_numbered, hqualified]
  cases hcheck : (d.withNames ns).check with
  | error e => rfl
  | ok e =>
    obtain ⟨hd, -⟩ := Enumeration.valid_of_check hcheck
    obtain ⟨definition, cs⟩ := e
    cases hd
    rfl

end Definition

/-- It is the checks that keep the forms together: of a repeated name the constants differ. -/
example : (WrittenValues.names ["A", "B", "A"]).constants ≠
    (WrittenValues.mapping (numbered ["A", "B", "A"])).constants := by
  rw [constants_numbered]
  decide

end EnumForge
