import EnumForge.Proofs.EnumeratorList
import EnumForge.Proofs.FileDependence
import EnumForge.Proofs.Obstacles

/-!
Choosing from a batch. Where all definitions of a batch are generated, so are those at any of its
positions, in any order, and each of them comes to the same pair: a definition does not see the
others, and no choice of definitions that write different files can make two of them write one.
-/

namespace EnumForge

namespace Batch

/-- The definitions at some positions of a batch. -/
def choose (b : Batch) (positions : List (Fin b.length)) : Batch := positions.map b.get

variable {b : Batch} {x : Extensions}

/-- The definitions at different positions write different files, wherever they come to stand. -/
lemma nodup_files_choose {positions : List (Fin b.length)} (hpositions : positions.Nodup)
    (h : (b.flatMap (filesOf x)).Nodup) :
    ((b.choose positions).flatMap (filesOf x)).Nodup := by
  obtain ⟨-, hothers⟩ := List.nodup_flatMap.mp h
  rw [List.pairwise_iff_get] at hothers
  refine List.nodup_flatMap.mpr ⟨fun d _ => nodup_filesOf x d, ?_⟩
  rw [choose, List.pairwise_map]
  refine hpositions.imp fun {i j} hne => ?_
  rcases lt_or_gt_of_ne hne with hlt | hlt
  · exact hothers i j hlt
  · exact (hothers j i hlt).symm

/-- A name chooses the definitions that have it, in the order of the batch. -/
lemma exists_choose_eq_select (b : Batch) (name : String) :
    ∃ positions : List (Fin b.length), positions.Pairwise (· < ·) ∧
      CommandLine.select b name = b.choose positions := by
  refine ⟨(List.finRange b.length).filter fun i =>
    (b.get i).name = name || (b.get i).qualifiedName = name,
    (List.pairwise_lt_finRange b.length).filter _, ?_⟩
  have hfilter := List.filter_map (f := b.get)
    (p := fun d => d.name = name || d.qualifiedName = name) (l := List.finRange b.length)
  rwa [List.map_get_finRange] at hfilter

/-- **Choices**: if every definition of a batch is generated, then so are those at any positions, in
any order and none of them twice, and their pairs are those that the whole batch has there. A name
that is asked for makes such a choice. -/
theorem generate_choose {r : Report} (h : b.generate x .stopAtFirst = .ok r) :
    ∃ hlength : b.length = r.pairs.length,
      (∀ positions : List (Fin b.length), positions.Nodup →
        (b.choose positions).generate x .stopAtFirst =
          .ok { pairs := positions.map fun i => r.pairs.get (i.cast hlength) }) ∧
      ∀ name, ∃ positions : List (Fin b.length), positions.Pairwise (· < ·) ∧
        CommandLine.select b name = b.choose positions := by
  obtain ⟨hfiles, -, hpairs⟩ := generate_stopAtFirst_iff_forall₂.mp h
  obtain ⟨hlength, hget⟩ := List.forall₂_iff_get.mp hpairs
  refine ⟨hlength, fun positions hpositions => ?_, exists_choose_eq_select b⟩
  refine generate_stopAtFirst_iff_forall₂.mpr ⟨nodup_files_choose hpositions hfiles, rfl, ?_⟩
  rw [choose, List.forall₂_map_left_iff, List.forall₂_map_right_iff, List.forall₂_same]
  exact fun i _ => hget i i.isLt (i.cast hlength).isLt

end Batch

/-- Three definitions, one of them in a scope. -/
def threeTypes : Batch := [separators, colors, extremes]

lemma exists_generate_threeTypes : ∃ r, threeTypes.generate {} .stopAtFirst = .ok r := by
  refine Batch.exists_generate_of_checks .stopAtFirst (by decide) (by decide) ?_
  rw [threeTypes, List.forall_mem_cons, List.forall_mem_cons, List.forall_mem_singleton]
  exact ⟨⟨_, check_separators⟩, ⟨_, check_colors⟩, _, check_extremes⟩

/-- The last and the first of them are generated without the one between them, and the name in the
scope chooses the first alone. -/
theorem threeTypes_choose :
    ∃ first second third, threeTypes.generate {} .stopAtFirst = .ok ⟨[first, second, third], []⟩ ∧
      Batch.generate [extremes, separators] {} .stopAtFirst = .ok ⟨[third, first], []⟩ ∧
      (CommandLine.select threeTypes "text::Separator").generate {} .stopAtFirst =
        .ok ⟨[first], []⟩ := by
  obtain ⟨r, hr⟩ := exists_generate_threeTypes
  obtain ⟨hlength, hchoose, -⟩ := Batch.generate_choose hr
  obtain ⟨-, hnone, -⟩ := Batch.generate_stopAtFirst_iff_forall₂.mp hr
  obtain ⟨pairs, failures⟩ := r
  obtain rfl : failures = [] := hnone
  obtain ⟨first, second, third, rfl⟩ := List.length_eq_three.mp hlength.symm
  have hselect : CommandLine.select threeTypes "text::Separator" = [separators] := by decide
  rw [hselect]
  exact ⟨first, second, third, hr, hchoose [⟨2, by decide⟩, ⟨0, by decide⟩] (by decide),
    hchoose [⟨0, by decide⟩] (by decide)⟩

end EnumForge
