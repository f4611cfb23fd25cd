import EnumForge.Batch
import EnumForge.Proofs.Rendering

/-!
The paths of the files that a batch generates. Two checks keep them apart: the files of different
definitions are compared before anything is generated, the two files of one definition when they are
rendered.
-/

namespace EnumForge

def FilePair.paths (pair : FilePair) : List String := [pair.headerPath, pair.sourcePath]

/-- The paths of all files of a report. -/
def Report.paths (r : Report) : List String := r.pairs.flatMap FilePair.paths

open Validation

/-! ### The files of a definition -/

/-- A rendered pair has the name of the definition and its two files, which have different names. -/
lemma Enumeration.names_of_render {e : Enumeration} {x : Extensions} {pair : FilePair}
    (h : e.render x = .ok pair) :
    pair.name = e.definition.qualifiedName ∧
      pair.paths = [x.headerFile e.definition.fileStem, x.sourceFile e.definition.fileStem] ∧
      x.headerFile e.definition.fileStem ≠ x.sourceFile e.definition.fileStem := by
  simp only [render, Lookup.checkSizes_ofConstants] at h
  by_cases hsame : x.headerFile e.definition.fileStem = x.sourceFile e.definition.fileStem
  · rw [if_pos hsame] at h
    cases h
  · rw [if_neg hsame] at h
    cases h
    exact ⟨rfl, rfl, hsame⟩

lemma Definition.generate_eq_ok_iff {d : Definition} {x : Extensions} {pair : FilePair} :
    d.generate x = .ok pair ↔ ∃ e, d.check = .ok e ∧ e.render x = .ok pair := by
  unfold generate
  cases d.check with
  | error cause => simp
  | ok e =>
    cases hrender : e.render x with
    | error cause => simp [hrender]
    | ok files => simp [hrender]

lemma Definition.generate_eq_error_iff {d : Definition} {x : Extensions} {f : Failure} :
    d.generate x = .error f ↔
      (∃ cause, d.check = .error cause ∧ f = ⟨d.qualifiedName, .definition cause⟩) ∨
        ((∃ e, d.check = .ok e) ∧ x.header = x.source ∧
          f = ⟨d.qualifiedName, .render (.samePath (x.headerFile d.fileStem))⟩) := by
  unfold generate
  cases hcheck : d.check with
  | error cause => simp [eq_comm]
  | ok e =>
    obtain ⟨rfl, -⟩ := Enumeration.valid_of_check hcheck
    by_cases hx : x.header = x.source
    · simp [e.render_of_eq hx, hx, eq_comm]
    · simp [e.render_of_ne hx, hx]

lemma Definition.exists_generate {d : Definition} {e : Enumeration} (h : d.check = .ok e)
    {x : Extensions} (hx : x.header ≠ x.source) : ∃ pair, d.generate x = .ok pair := by
  obtain ⟨pair, hpair, -⟩ := e.render_eq_ok hx
  exact ⟨pair, generate_eq_ok_iff.mpr ⟨e, h, hpair⟩⟩

/-- **Failures**: an enumeration, checked or not, cannot be rendered just when its files would have
one path, and this comes from the extensions alone; the sizes of the tables are always right. So a
definition fails by a rule that it breaks, which is told first, or by the extensions. -/
theorem Definition.generate_failures (x : Extensions) :
    (∀ e : Enumeration,
      (∀ table expected actual, e.render x ≠ .error (.wrongTableSize table expected actual)) ∧
      (∀ path, e.render x = .error (.samePath path) ↔
        x.header = x.source ∧ path = x.headerFile e.definition.fileStem) ∧
      ((∃ files, e.render x = .ok files) ↔ x.header ≠ x.source)) ∧
    ∀ d : Definition,
      ((∃ f, d.generate x = .error f) ↔
        (∃ cause, d.check = .error cause) ∨ x.header = x.source) ∧
      ∀ f, d.generate x = .error f ↔
        (∃ cause, d.check = .error cause ∧ f = ⟨d.qualifiedName, .definition cause⟩) ∨
          ((∃ e, d.check = .ok e) ∧ x.header = x.source ∧
            f = ⟨d.qualifiedName, .render (.samePath (x.headerFile d.fileStem))⟩) := by
  refine ⟨fun e => ⟨fun table expected actual => ?_, fun path => ?_, ?_⟩, fun d => ⟨?_, fun f =>
    generate_eq_error_iff⟩⟩
  · rw [ne_eq, Enumeration.render_eq_error_iff]
    rintro ⟨-, ⟨⟩⟩
  · rw [Enumeration.render_eq_error_iff, RenderError.samePath.injEq]
  · constructor
    · rintro ⟨files, hfiles⟩ hx
      rw [e.render_of_eq hx] at hfiles
      cases hfiles
    · exact fun hx => ⟨_, e.render_of_ne hx⟩
  · simp only [generate_eq_error_iff]
    cases d.check with
    | error cause => simp
    | ok e => simp

namespace Batch

lemma paths_of_generate {d : Definition} {x : Extensions} {pair : FilePair}
    (h : d.generate x = .ok pair) : pair.paths = filesOf x d := by
  obtain ⟨e, he, hrender⟩ := Definition.generate_eq_ok_iff.mp h
  obtain ⟨rfl, -⟩ := Enumeration.valid_of_check he
  obtain ⟨-, hpaths, hne⟩ := Enumeration.names_of_render hrender
  rw [hpaths, filesOf, if_neg hne]

lemma nodup_filesOf (x : Extensions) (d : Definition) : (filesOf x d).Nodup := by
  simp only [filesOf]
  split
  · exact List.nodup_singleton _
  · next hne => simpa using hne

/-! ### The files of different definitions -/

/-- The files of a definition are entered just when none of them has an owner. -/
lemma claimFiles_eq_ok_iff {name : String} {owners owners' : List (String × String)}
    {files : List String} (hfiles : files.Nodup) :
    claimFiles name owners files = .ok owners' ↔
      (files.map (·, name)).reverse ++ owners = owners' ∧
        ∀ path ∈ files, path ∉ owners.map Prod.fst := by
  induction files generalizing owners with
  | nil => simp [claimFiles]
  | cons path rest ih =>
    obtain ⟨hpath, hrest⟩ := List.nodup_cons.mp hfiles
    have hlookup : owners.lookup path = none ↔ path ∉ owners.map Prod.fst := by
      rw [List.lookup_eq_none_iff]
      constructor
      · intro h hmem
        obtain ⟨owner, howner, rfl⟩ := List.mem_map.mp hmem
        simpa using h owner howner
      · intro h owner howner
        rw [bne_iff_ne]
        rintro rfl
        exact h (List.mem_map_of_mem howner)
    rw [claimFiles]
    cases hfirst : owners.lookup path with
    | some first =>
      have hmem : ¬ path ∉ owners.map Prod.fst := by
        rw [← hlookup, hfirst]
        simp
      exact iff_of_false (by simp) fun h => hmem (h.2 path List.mem_cons_self)
    | none =>
      have hfree := hlookup.mp hfirst
      have hbehind : (∀ p ∈ rest, p ∉ ((path, name) :: owners).map Prod.fst) ↔
          ∀ p ∈ rest, p ∉ owners.map Prod.fst := by
        refine forall₂_congr fun p hp => ?_
        have hne : p ≠ path := fun heq => hpath (heq ▸ hp)
        rw [List.map_cons, List.mem_cons, not_or]
        exact and_iff_right hne
      simp only
      rw [ih hrest, hbehind, List.forall_mem_cons, and_iff_right hfree, List.map_cons,
        List.reverse_cons, List.append_assoc, List.singleton_append]

lemma checkFilesFrom_eq_ok_iff {x : Extensions} {owners : List (String × String)} {b : Batch} :
    checkFilesFrom x owners b = .ok () ↔
      (b.flatMap (filesOf x)).Nodup ∧
        ∀ path ∈ b.flatMap (filesOf x), path ∉ owners.map Prod.fst := by
  induction b generalizing owners with
  | nil => simp [checkFilesFrom]
  | cons d ds ih =>
    have hnodup := nodup_filesOf x d
    have hkeys (path : String) :
        path ∉ (((filesOf x d).map (·, d.name)).reverse ++ owners).map Prod.fst ↔
          path ∉ filesOf x d ∧ path ∉ owners.map Prod.fst := by
      simp
    rw [checkFilesFrom, bind_eq_ok]
    simp only [claimFiles_eq_ok_iff hnodup, ih]
    rw [List.flatMap_cons, List.nodup_append, List.forall_mem_append]
    constructor
    · rintro ⟨_, ⟨rfl, hfree⟩, hrest, hbehind⟩
      have hbehind' (path : String) (hpath : path ∈ ds.flatMap (filesOf x)) :=
        (hkeys path).mp (hbehind path hpath)
      refine ⟨⟨hnodup, hrest, ?_⟩, hfree, fun path hpath => (hbehind' path hpath).2⟩
      rintro path hpath _ hmem rfl
      exact (hbehind' path hmem).1 hpath
    · rintro ⟨⟨-, hrest, hdisjoint⟩, hfree, hbehind⟩
      refine ⟨_, ⟨rfl, hfree⟩, hrest, fun path hpath => (hkeys path).mpr ⟨?_, hbehind path hpath⟩⟩
      exact fun hmem => hdisjoint path hmem path hpath rfl

/-- No two definitions write one file. -/
theorem checkFiles_eq_ok_iff {b : Batch} {x : Extensions} :
    b.checkFiles x = .ok () ↔ (b.flatMap (filesOf x)).Nodup := by
  rw [checkFiles, checkFilesFrom_eq_ok_iff]
  simp

/-! ### The files of a report -/

/-- A report holds the pairs that were generated, in their order. -/
lemma pairs_of_collect {policy : FailurePolicy} {results : List (Except Failure FilePair)}
    {r : Report} (h : collect policy results = .ok r) :
    r.pairs = results.filterMap Except.toOption := by
  induction results generalizing r with
  | nil =>
    cases h
    rfl
  | cons result rest ih =>
    cases result with
    | ok pair =>
      rw [collect, bind_eq_ok] at h
      obtain ⟨r', hr', h⟩ := h
      cases h
      simp [ih hr', Except.toOption]
    | error f =>
      cases policy with
      | stopAtFirst => cases h
      | keepGoing =>
        rw [collect, bind_eq_ok] at h
        obtain ⟨r', hr', h⟩ := h
        cases h
        rw [List.filterMap_cons_none rfl, ← ih hr']

lemma paths_generated_sublist (b : Batch) (x : Extensions) :
    (((b.map (·.generate x)).filterMap Except.toOption).flatMap FilePair.paths).Sublist
      (b.flatMap (filesOf x)) := by
  induction b with
  | nil => exact List.Sublist.slnil
  | cons d ds ih =>
    cases hd : d.generate x with
    | ok pair =>
      simp only [List.map_cons, List.filterMap_cons, hd, Except.toOption, List.flatMap_cons]
      rw [paths_of_generate hd]
      exact (List.Sublist.refl _).append ih
    | error f =>
      simp only [List.map_cons, List.filterMap_cons, hd, Except.toOption, List.flatMap_cons]
      exact ih.trans (List.sublist_append_right _ _)

section

variable {b : Batch} {x : Extensions} {policy : FailurePolicy} {r : Report}
  (h : b.generate x policy = .ok r)

include h

lemma nodup_files_of_generate : (b.flatMap (filesOf x)).Nodup := by
  rw [generate, bind_eq_ok] at h
  obtain ⟨⟨⟩, hfiles, -⟩ := h
  exact checkFiles_eq_ok_iff.mp hfiles

lemma pairs_of_generate : r.pairs = (b.map (·.generate x)).filterMap Except.toOption := by
  rw [generate, bind_eq_ok] at h
  obtain ⟨⟨⟩, -, hcollect⟩ := h
  exact pairs_of_collect hcollect

lemma paths_sublist_of_generate : r.paths.Sublist (b.flatMap (filesOf x)) := by
  rw [Report.paths, pairs_of_generate h]
  exact paths_generated_sublist b x

/-- **Paths of a report**: no two of its files have one path, be they of one definition or of two,
whatever the extensions are and whatever has failed. -/
theorem nodup_paths_of_generate : r.paths.Nodup :=
  (paths_sublist_of_generate h).nodup (nodup_files_of_generate h)

end

end Batch

/-- Definitions whose files differ only in how often their stems and extensions repeat a part; the
second one declares nothing. -/
def repeatedParts : Batch := [separators, { name := "Empty" },
  { separators with stem := some "Separator.c.c" }]

lemma repeatedParts_generate :
    ∃ first last, repeatedParts.generate ⟨"h", "c.h"⟩ .keepGoing =
        .ok ⟨[first, last], [⟨"Empty", .definition .noValues⟩]⟩ ∧
      first.paths = ["Separator.h", "Separator.c.h"] ∧
      last.paths = ["Separator.c.c.h", "Separator.c.c.c.h"] := by
  obtain ⟨first, hfirst⟩ :=
    Definition.exists_generate check_separators (x := ⟨"h", "c.h"⟩) (by decide)
  have hcheck : ({ separators with stem := some "Separator.c.c" } : Definition).check =
      .ok { separatorsEnumeration with
        definition := { separators with stem := some "Separator.c.c" } } := by cbv
  obtain ⟨last, hlast⟩ := Definition.exists_generate hcheck (x := ⟨"h", "c.h"⟩) (by decide)
  have hempty : ({ name := "Empty" } : Definition).generate ⟨"h", "c.h"⟩ =
      .error ⟨"Empty", .definition .noValues⟩ := by cbv
  have hfiles : repeatedParts.checkFiles ⟨"h", "c.h"⟩ = .ok () :=
    Batch.checkFiles_eq_ok_iff.mpr (by decide)
  refine ⟨first, last, ?_, ?_, ?_⟩
  · rw [Batch.generate, hfiles]
    simp only [repeatedParts, List.map_cons, List.map_nil, hfirst, hlast, hempty]
    rfl
  · rw [Batch.paths_of_generate hfirst]
    decide
  · rw [Batch.paths_of_generate hlast]
    decide

theorem repeatedParts_paths :
    ∃ r, repeatedParts.generate ⟨"h", "c.h"⟩ .keepGoing = .ok r ∧
      r.paths =
        ["Separator.h", "Separator.c.h", "Separator.c.c.h", "Separator.c.c.c.h"] ∧
      r.paths.Nodup := by
  obtain ⟨first, last, hgenerate, hfirst, hlast⟩ := repeatedParts_generate
  refine ⟨_, hgenerate, ?_, Batch.nodup_paths_of_generate hgenerate⟩
  rw [Report.paths, List.flatMap_cons, List.flatMap_cons, List.flatMap_nil, hfirst, hlast]
  rfl

end EnumForge
