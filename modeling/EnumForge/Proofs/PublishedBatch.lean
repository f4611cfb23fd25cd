import EnumForge.Proofs.Obstacles
import EnumForge.Proofs.OutputPaths
import EnumForge.Proofs.Publishing

/-!
What generating writes. The files of a batch have different names, each of them a single step, so
they come to different places of the output directory and the effects of their pairs add up.
-/

namespace EnumForge

open Text (Bytes)

/-! ### Names of generated files -/

lemma Path.isName_of_isFileStem {stem ext : String} (hstem : Identifier.isFileStem stem)
    (hext : '/' ∉ ext.toList) : IsName (stem ++ "." ++ ext) := by
  have hslash : '/' ∉ stem.toList := fun hmem => by
    have hchar := Identifier.mem_of_hasShape hstem hmem
    revert hchar
    decide
  -- a stem does not begin with a dot, so the name is no step up
  have hhead : ∃ c cs, (stem ++ "." ++ ext).toList = c :: cs ∧ c ≠ '.' := by
    rw [Identifier.isFileStem] at hstem
    cases hlist : stem.toList with
    | nil =>
      rw [hlist] at hstem
      cases hstem
    | cons c cs =>
      rw [hlist] at hstem
      refine ⟨c, cs ++ '.' :: ext.toList, by simp [hlist], ?_⟩
      rintro rfl
      cases hstem
  obtain ⟨c, cs, htext, hdot⟩ := hhead
  refine ⟨⟨?_, ?_, ?_⟩, by simp [hslash, hext]⟩
  all_goals
    intro heq
    rw [heq] at htext
    cases htext
  · exact hdot rfl
  · exact hdot rfl

lemma Definition.isName_of_generate {d : Definition} {x : Extensions} {pair : FilePair}
    (h : d.generate x = .ok pair) (hheader : '/' ∉ x.header.toList)
    (hsource : '/' ∉ x.source.toList) : ∀ path ∈ pair.paths, Path.IsName path := by
  obtain ⟨e, he, hrender⟩ := generate_eq_ok_iff.mp h
  obtain ⟨rfl, hvalid⟩ := Enumeration.valid_of_check he
  rw [(Enumeration.names_of_render hrender).2.1, List.forall_mem_cons, List.forall_mem_singleton]
  exact ⟨Path.isName_of_isFileStem hvalid.stem hheader,
    Path.isName_of_isFileStem hvalid.stem hsource⟩

/-! ### Publishing pairs one after another -/

namespace CommandLine

open Disk

variable {d d' : Disk} {dir : String} {pairs : List FilePair}

lemma exists_path_of_mem_filesIn {file : String × Bytes}
    (h : file ∈ pairs.flatMap (FilePair.filesIn dir)) :
    ∃ path ∈ pairs.flatMap FilePair.paths, file.1 = Path.join dir path := by
  obtain ⟨pair, hpair, hfile⟩ := List.mem_flatMap.mp h
  have hpath : file.1 ∈ pair.paths.map (Path.join dir) := List.mem_map_of_mem hfile
  obtain ⟨path, hpath, heq⟩ := List.mem_map.mp hpath
  exact ⟨path, List.mem_flatMap_of_mem hpair hpath, heq.symm⟩

/-- Pairs of different names are all in their places when the last one is published. -/
theorem effect_of_publishAll (hnames : ∀ path ∈ pairs.flatMap FilePair.paths, Path.IsName path)
    (hnodup : (pairs.flatMap FilePair.paths).Nodup)
    (h : publishAll d dir pairs = (.ok (), d')) :
    Effect d d' (pairs.flatMap (FilePair.filesIn dir)) := by
  induction pairs generalizing d with
  | nil =>
    cases h
    exact .nothing _
  | cons pair rest ih =>
    rw [List.flatMap_cons] at hnames hnodup ⊢
    rw [List.forall_mem_append] at hnames
    obtain ⟨hnodupPair, hnodupRest, hdisjoint⟩ := List.nodup_append.mp hnodup
    have hheader := hnames.1 pair.headerPath (by simp [FilePair.paths])
    have hsource := hnames.1 pair.sourcePath (by simp [FilePair.paths])
    have hne : pair.headerPath ≠ pair.sourcePath := by simpa [FilePair.paths] using hnodupPair
    rw [publishAll] at h
    split at h
    · cases h
    · next hpublish =>
      have hpair := effect_of_publish hheader hsource hne hpublish
      refine hpair.append (ih hnames.2 hnodupRest h) fun file hfile file' hfile' => ?_
      rw [← List.flatMap_singleton (FilePair.filesIn dir)] at hfile
      obtain ⟨path, hpath, heq⟩ := exists_path_of_mem_filesIn hfile
      obtain ⟨path', hpath', heq'⟩ := exists_path_of_mem_filesIn hfile'
      rw [List.flatMap_singleton] at hpath
      rw [heq, heq']
      exact apart_of_ne (hnames.1 path hpath) (hnames.2 path' hpath')
        (hdisjoint path hpath path' hpath')

/-- All pairs can be published into a directory that has room and in which no directory has one of
their names. -/
theorem publishAll_of_locate (hnames : ∀ path ∈ pairs.flatMap FilePair.paths, Path.IsName path)
    (hroom : d.room dir = .ok ()) (h : ∀ path ∈ pairs.flatMap FilePair.paths,
      ∃ p, d.locate (Path.join dir path) = .ok p ∧ d.get? p ≠ some .directory) :
    ∃ d', publishAll d dir pairs = (.ok (), d') ∧ SameDirectories d d' := by
  induction pairs generalizing d with
  | nil => exact ⟨d, rfl, .refl d⟩
  | cons pair rest ih =>
    rw [List.flatMap_cons, List.forall_mem_append] at hnames h
    have hheader : pair.headerPath ∈ pair.paths := by simp [FilePair.paths]
    have hsource : pair.sourcePath ∈ pair.paths := by simp [FilePair.paths]
    obtain ⟨outcomes, d₁, hpublish, hsame⟩ := publish_of_locate (hnames.1 _ hheader)
      (hnames.1 _ hsource) hroom (h.1 _ hheader) (h.1 _ hsource)
    have hroom₁ : d₁.room dir = .ok () :=
      (room_eq_of_current_eq hsame.kept.current dir).trans hroom
    obtain ⟨d', hrest, hsame'⟩ := ih hnames.2 hroom₁ fun path hpath =>
      hsame.leadsToFile (h.2 path hpath)
    refine ⟨d', ?_, hsame.trans hsame'⟩
    rw [publishAll, hpublish]
    exact hrest

lemma publishAll_of_reads (hnames : ∀ path ∈ pairs.flatMap FilePair.paths, Path.IsName path)
    (h : ∀ file ∈ pairs.flatMap (FilePair.filesIn dir), d.read file.1 = .ok file.2) :
    publishAll d dir pairs = (.ok (), d) := by
  induction pairs with
  | nil => rfl
  | cons pair rest ih =>
    rw [List.flatMap_cons, List.forall_mem_append] at hnames h
    have hheader := hnames.1 pair.headerPath (by simp [FilePair.paths])
    rw [publishAll, publish_of_reads hheader h.1]
    exact ih hnames.2 h.2

end CommandLine

namespace Batch

open CommandLine Disk

variable {b : Batch} {x : Extensions} {policy : FailurePolicy} {r : Report}

lemma isName_of_generate (h : b.generate x policy = .ok r) (hheader : '/' ∉ x.header.toList)
    (hsource : '/' ∉ x.source.toList) : ∀ path ∈ r.paths, Path.IsName path := by
  intro path hpath
  rw [Report.paths, pairs_of_generate h] at hpath
  obtain ⟨pair, hpair, hpath⟩ := List.mem_flatMap.mp hpath
  obtain ⟨result, hresult, hpair⟩ := List.mem_filterMap.mp hpair
  obtain ⟨d, -, rfl⟩ := List.mem_map.mp hresult
  exact Definition.isName_of_generate (toOption_eq_some_iff.mp hpair) hheader hsource path hpath

theorem effect_of_publishAll (hgenerate : b.generate x policy = .ok r)
    (hheader : '/' ∉ x.header.toList) (hsource : '/' ∉ x.source.toList) {d d' : Disk} {dir : String}
    (hpublish : publishAll d dir r.pairs = (.ok (), d')) :
    Effect d d' (r.pairs.flatMap (FilePair.filesIn dir)) :=
  CommandLine.effect_of_publishAll (isName_of_generate hgenerate hheader hsource)
    ((paths_sublist_of_generate hgenerate).nodup (nodup_files_of_generate hgenerate)) hpublish

/-- **Published files**: once all pairs of a report are published, each of their files holds just
what was generated for it, and all else is as it was but for directories that had to be made. A
second time nothing is written. This is the disk that a run leaves which has loaded the batch. -/
theorem published_of_generate (hgenerate : b.generate x policy = .ok r)
    (hheader : '/' ∉ x.header.toList) (hsource : '/' ∉ x.source.toList) {d d' : Disk} {dir : String}
    (hpublish : publishAll d dir r.pairs = (.ok (), d')) :
    (∀ pair ∈ r.pairs,
      d'.read (Path.join dir pair.headerPath) = .ok (Text.bytes pair.header) ∧
      d'.read (Path.join dir pair.sourcePath) = .ok (Text.bytes pair.source)) ∧
    (∀ p, (∀ path ∈ r.paths, d'.locate (Path.join dir path) ≠ .ok p) →
      d.StaysAt d' p) ∧
    (∀ pair ∈ r.pairs, d'.publish dir pair =
      (.ok [(Path.join dir pair.headerPath, .unchanged),
        (Path.join dir pair.sourcePath, .unchanged)], d')) ∧
    publishAll d' dir r.pairs = (.ok (), d') ∧
    (∀ v : Invocation, v.command = .generate dir policy → v.extensions = x →
      load d v.inputs = .ok b → (run d v).disk = d') := by
  have hnames := isName_of_generate hgenerate hheader hsource
  have heffect := effect_of_publishAll hgenerate hheader hsource hpublish
  have hreads (pair : FilePair) (hpair : pair ∈ r.pairs) :
      ∀ file ∈ pair.filesIn dir, d'.read file.1 = .ok file.2 := fun file hfile =>
    heffect.reads file (List.mem_flatMap_of_mem hpair hfile)
  refine ⟨fun pair hpair => ?_, fun p hp => ?_, fun pair hpair => ?_, ?_, ?_⟩
  · simpa [FilePair.filesIn] using hreads pair hpair
  · refine heffect.elsewhere p fun file hfile => ?_
    obtain ⟨path, hpath, heq⟩ := exists_path_of_mem_filesIn hfile
    rw [heq]
    exact hp path hpath
  · refine publish_of_reads (hnames _ (List.mem_flatMap_of_mem hpair ?_)) (hreads pair hpair)
    exact List.mem_cons_self
  · exact publishAll_of_reads hnames heffect.reads
  · rintro v hcommand rfl hload
    rw [run_generate hcommand hload hgenerate, hpublish]
    rfl

end Batch

/-- Three files with a definition each, a directory with an old form of one of the files generated,
and a file that is none of them. -/
def outdated : Disk where
  entries := [
    (["a.json"], .file (Text.bytes
      ("\x7b\x22enums\x22:[\x7b\x22name\x22:\x22Separator\x22,\x22namespace\x22:\x22text\x22," ++
        "\x22storage\x22:\x22char\x22,\x22values\x22:\x7b\x22COMMA\x22:\x22,\x22," ++
        "\x22QUOTE\x22:\x22\x27\x22,\x22BREAK\x22:\x22\\n\x22\x7d\x7d]\x7d"))),
    (["b.json"], .file (Text.bytes
      "\x7b\x22enums\x22:[\x7b\x22name\x22:\x22Empty\x22\x7d]\x7d")),
    (["c.json"], .file (Text.bytes
      ("\x7b\x22enums\x22:[\x7b\x22name\x22:\x22Separator\x22,\x22namespace\x22:\x22text\x22," ++
        "\x22file\x22:\x22Separator.c.c\x22,\x22storage\x22:\x22char\x22," ++
        "\x22values\x22:\x7b\x22COMMA\x22:\x22,\x22,\x22QUOTE\x22:\x22\x27\x22," ++
        "\x22BREAK\x22:\x22\\n\x22\x7d\x7d]\x7d"))),
    (["out"], .directory), (["out", "Separator.c.h"], .file (Text.bytes "old\n")),
    (["out", "notes"], .file (Text.bytes "none\n"))]

open CommandLine in
set_option maxRecDepth 1000 in
lemma load_outdated : load outdated ["a.json", "b.json", "c.json"] = .ok repeatedParts := by
  have hfirst : loadFile outdated "a.json" = .ok [repeatedParts[0]] :=
    loadFile_eq_ok_iff.mpr ⟨_, rfl, by cbv⟩
  have hempty : loadFile outdated "b.json" = .ok [repeatedParts[1]] :=
    loadFile_eq_ok_iff.mpr ⟨_, rfl, by cbv⟩
  have hlast : loadFile outdated "c.json" = .ok [repeatedParts[2]] :=
    loadFile_eq_ok_iff.mpr ⟨_, rfl, by cbv⟩
  have hplain {input : String} (h : isPathPattern input = false) :=
    resolveInput_of_plain outdated h
  exact load_eq_ok_iff.mpr ⟨[["a.json"], ["b.json"], ["c.json"]], [_, _, _],
    .cons (hplain (by decide)) (.cons (hplain (by decide)) (.cons (hplain (by decide)) .nil)),
    .cons hfirst (.cons hempty (.cons hlast .nil)), rfl⟩

theorem repeatedParts_published :
    ∃ first last d', repeatedParts.generate ⟨"h", "c.h"⟩ .keepGoing =
        .ok ⟨[first, last], [⟨"Empty", .definition .noValues⟩]⟩ ∧
      first.paths = ["Separator.h", "Separator.c.h"] ∧
      last.paths = ["Separator.c.c.h", "Separator.c.c.c.h"] ∧
      CommandLine.publishAll outdated "out" [first, last] = (.ok (), d') ∧
      (∀ pair ∈ [first, last],
        d'.read (Path.join "out" pair.headerPath) = .ok (Text.bytes pair.header) ∧
        d'.read (Path.join "out" pair.sourcePath) = .ok (Text.bytes pair.source)) ∧
      outdated.StaysAt d' ["out", "notes"] ∧
      CommandLine.publishAll d' "out" [first, last] = (.ok (), d') ∧
      (CommandLine.run outdated ⟨.generate "out" .keepGoing, ["a.json", "b.json", "c.json"],
        ⟨"h", "c.h"⟩, 0⟩).disk = d' := by
  obtain ⟨first, last, hgenerate, hfirst, hlast⟩ := repeatedParts_generate
  have hnames := Batch.isName_of_generate hgenerate (by decide) (by decide)
  have hpaths : [first, last].flatMap FilePair.paths =
      ["Separator.h", "Separator.c.h", "Separator.c.c.h", "Separator.c.c.c.h"] := by
    rw [List.flatMap_cons, List.flatMap_singleton, hfirst, hlast]
    rfl
  have hplaces : ∀ path ∈ [first, last].flatMap FilePair.paths,
      outdated.locate (Path.join "out" path) = .ok ["out", path] ∧
        outdated.get? ["out", path] ≠ some .directory ∧ path ≠ "notes" := by
    rw [hpaths]
    simp only [List.forall_mem_cons]
    refine ⟨⟨rfl, ?_⟩, ⟨rfl, ?_⟩, ⟨rfl, ?_⟩, ⟨rfl, ?_⟩, by simp⟩
    all_goals decide
  obtain ⟨d', hpublish, hsame⟩ : ∃ d',
      CommandLine.publishAll outdated "out" [first, last] = (.ok (), d') ∧
        Disk.SameDirectories outdated d' := by
    refine CommandLine.publishAll_of_locate hnames rfl fun path hpath => ⟨["out", path], ?_⟩
    exact ⟨(hplaces path hpath).1, (hplaces path hpath).2.1⟩
  obtain ⟨hreads, helsewhere, -, hagain, hrun⟩ :=
    Batch.published_of_generate hgenerate (by decide) (by decide) hpublish
  refine ⟨first, last, d', hgenerate, hfirst, hlast, hpublish, hreads, ?_, hagain,
    hrun _ rfl rfl load_outdated⟩
  refine helsewhere _ fun path hpath hlocate => (hplaces path hpath).2.2 ?_
  have hplace := (hplaces path hpath).1
  rw [hsame.made.locate hlocate] at hplace
  simpa using hplace.symm

end EnumForge
