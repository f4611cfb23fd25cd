import EnumForge.Proofs.Staging

/-!
What publishing does to a disk. A file is only put to the place that its path leads to, so what has
been published is an effect that brings the files of a pair; if publishing fails, the header alone
may have come.
-/

namespace EnumForge

open Text (Bytes)

namespace Disk

variable {d d' : Disk}

/-! ### Finished files -/

/-- Moves a finished file into a directory that has been found. -/
def moveInto (d : Disk) (staging parent : Place) (name : String) (content : Bytes) :
    Except FileError Disk :=
  if longestName < (Text.bytes name).length then .error .nameTooLong
  else if (parent ++ [name]).isPrefixOf staging then .error .notEmpty
  else
    match d.get? (parent ++ [name]) with
    | some .directory => .error .isDirectory
    | _ => .ok (d.set (parent ++ [name]) (.file content))

section

variable {dir name : String} (h : Path.IsName name)

include h

lemma moveIntoPlace_of_steps {trunk : List String}
    (hsteps : Path.steps (Path.join dir name) = trunk ++ [name]) (staging : Place)
    (content : Bytes) :
    d.moveIntoPlace staging (Path.join dir name) content = (do
      checkPath .invalidArgument (Path.join dir name)
      let parent ← d.walkToDirectory (d.startOf (Path.join dir name)) trunk
      d.moveInto staging parent name content) := by
  simp only [moveIntoPlace, hsteps, withoutTrailing_concat h.ne_empty, List.dropLast_concat,
    List.getLast?_concat, h.ne_here, h.ne_up, decide_false, Bool.or_self, Bool.false_eq_true,
    if_false, lt_irrefl]
  rfl

/-- A file is moved just when there is no directory at its place, nor is it finished below. -/
theorem moveIntoPlace_eq_ok_iff {staging : Place} {content : Bytes} :
    d.moveIntoPlace staging (Path.join dir name) content = .ok d' ↔
      ∃ p, d.locate (Path.join dir name) = .ok p ∧ ¬ p.isPrefixOf staging ∧
        d.get? p ≠ some .directory ∧ d.set p (.file content) = d' := by
  obtain ⟨trunk, hsteps, -⟩ := Path.exists_steps_join dir h
  simp only [moveIntoPlace_of_steps h hsteps, moveInto,
    locate_eq_ok_iff_of_steps h.toIsStepDown hsteps]
  constructor
  · intro hmove
    obtain ⟨⟨⟩, hcheck, hmove⟩ := bind_eq_ok.mp hmove
    obtain ⟨parent, hparent, hmove⟩ := bind_eq_ok.mp hmove
    split at hmove
    · cases hmove
    next hlength =>
      split at hmove
      · cases hmove
      next hstaging =>
        split at hmove
        · cases hmove
        next hfile =>
          have hpath := checkPath_eq_ok_iff.mp hcheck
          exact ⟨_, ⟨checkPath_eq_ok_iff.mpr hpath, parent, hparent, Nat.not_lt.mp hlength, rfl⟩,
            hstaging, hfile, Except.ok.inj hmove⟩
  · rintro ⟨_, ⟨hcheck, parent, hparent, hlength, rfl⟩, hstaging, hfile, rfl⟩
    have hpath := checkPath_eq_ok_iff.mp hcheck
    refine bind_eq_ok.mpr ⟨(), checkPath_eq_ok_iff.mpr hpath, ?_⟩
    refine bind_eq_ok.mpr ⟨parent, hparent, ?_⟩
    rw [if_neg (Nat.not_lt.mpr hlength), if_neg hstaging]
    split
    · next hdirectory => exact absurd hdirectory hfile
    · rfl

end

/-! ### Settling -/

/-- A file that was found as it should be is left alone. -/
lemma settle_of_read {found : Disk} {dir name text : String}
    (hread : found.read (Path.join dir name) = .ok (Text.bytes text)) (d : Disk)
    (staging : Place) :
    d.settle staging (found.draft dir name text) =
      (.ok (Path.join dir name, .unchanged), d) := by
  rw [← toOption_eq_some_iff] at hread
  simp only [settle, draft, hread, if_true]

/-- A file that cannot be settled is named, and nothing has changed. -/
lemma settle_eq_error {staging : Place} {file : Staged} {e : PublishError}
    (hsettle : d.settle staging file = (.error e, d')) :
    d' = d ∧ ∃ cause, e = .move file.path cause := by
  unfold settle at hsettle
  split at hsettle
  · cases hsettle
  · split at hsettle
    · cases hsettle
    · cases hsettle
      exact ⟨rfl, _, rfl⟩

section

variable {dir name : String} (h : Path.IsName name)

include h

/-- Nothing stands in the way of a file at a place that is no directory. -/
lemma settle_of_locate {staging p : Place} (found : Disk) (text : String)
    (hp : d.locate (Path.join dir name) = .ok p) (hfile : d.get? p ≠ some .directory)
    (hstaging : p = staging ++ [name]) :
    ∃ done d', d.settle staging (found.draft dir name text) = (.ok done, d') ∧
      SameDirectories d d' := by
  by_cases hread : found.read (Path.join dir name) = .ok (Text.bytes text)
  · exact ⟨_, d, settle_of_read hread d staging, .refl d⟩
  · have hprefix : ¬ p.isPrefixOf staging := by
      rw [List.isPrefixOf_iff_prefix, hstaging]
      intro hprefix
      simpa using hprefix.length_le
    have hmove : d.moveIntoPlace staging (Path.join dir name) (Text.bytes text) =
        .ok (d.set p (.file (Text.bytes text))) :=
      (moveIntoPlace_eq_ok_iff h).mpr ⟨p, hp, hprefix, hfile, rfl⟩
    rw [← toOption_eq_some_iff] at hread
    simp only [settle, draft, hread, if_false, hmove]
    exact ⟨_, _, rfl, .putFile (ne_nil_of_locate h hp) hfile _⟩

/-- What settling does: a file that was found as it should be is left alone, and any other is put to
the place that its path leads to. -/
theorem settle_eq_ok {found : Disk} {staging : Place} {text : String} {done : String × Outcome}
    (hsettle : d.settle staging (found.draft dir name text) = (.ok done, d')) :
    (done = (Path.join dir name, .unchanged) ∧
        found.read (Path.join dir name) = .ok (Text.bytes text) ∧ d' = d) ∨
      (done = (Path.join dir name, .written) ∧
        found.read (Path.join dir name) ≠ .ok (Text.bytes text) ∧
        ∃ p, d.locate (Path.join dir name) = .ok p ∧ d.get? p ≠ some .directory ∧
          d' = d.set p (.file (Text.bytes text))) := by
  by_cases hread : found.read (Path.join dir name) = .ok (Text.bytes text)
  · rw [settle_of_read hread] at hsettle
    cases hsettle
    exact .inl ⟨rfl, hread, rfl⟩
  · have hstale := hread
    rw [← toOption_eq_some_iff] at hread
    simp only [settle, draft, hread, if_false] at hsettle
    split at hsettle
    · next hmove =>
      cases hsettle
      obtain ⟨p, hp, -, hfile, rfl⟩ := (moveIntoPlace_eq_ok_iff h).mp hmove
      exact .inr ⟨rfl, hstale, p, hp, hfile, rfl⟩
    · cases hsettle

/-- A settled file is in its place, if what was found there when it was staged is still there. -/
lemma effect_of_settle {found : Disk} {staging : Place} {text : String} {done : String × Outcome}
    (hkept : found.read (Path.join dir name) = .ok (Text.bytes text) →
      d.read (Path.join dir name) = .ok (Text.bytes text))
    (hsettle : d.settle staging (found.draft dir name text) = (.ok done, d')) :
    Effect d d' [(Path.join dir name, Text.bytes text)] := by
  obtain ⟨-, hread, rfl⟩ | ⟨-, -, p, hp, hfile, rfl⟩ := settle_eq_ok h hsettle
  · exact .refl (by simpa using hkept hread)
  · exact .putFile hp (ne_nil_of_locate h hp) hfile _

lemma apart_of_ne {other : String} (hother : Path.IsName other) (hne : name ≠ other) :
    d.Apart (Path.join dir name) (Path.join dir other) :=
  fun hp hp' => hne (name_eq_of_locate h hother hp hp')

end

/-! ### Pairs -/

/-- All that happens when a pair is published. -/
lemma publish_eq_ok {dir : String} {pair : FilePair} {outcomes : List (String × Outcome)}
    (h : d.publish dir pair = (.ok outcomes, d')) :
    ∃ d₁ d₂ header source, d.ensureDirectory dir = (.ok (), d₁) ∧
      d₁.settle (d₁.stagingPlace dir) (d₁.draft dir pair.headerPath pair.header) =
        (.ok header, d₂) ∧
      d₂.settle (d₁.stagingPlace dir) (d₁.draft dir pair.sourcePath pair.source) =
        (.ok source, d') ∧
      outcomes = [header, source] := by
  unfold publish at h
  split at h
  · cases h
  next d₁ hensure =>
    split at h
    · cases h
    next header source hstage =>
      obtain ⟨hdrafts, -⟩ := stagePair_eq_ok_iff.mp hstage
      cases hdrafts
      simp only at h
      split at h
      · cases h
      next header d₂ hsettle =>
        split at h
        · cases h
        next source d₃ hsettle' =>
          cases h
          exact ⟨d₁, d₂, header, source, hensure, hsettle, hsettle', rfl⟩

/-- The steps at which a pair can fail to be published, and the tree that each of them leaves. -/
lemma publish_eq_error {dir : String} {pair : FilePair} {e : PublishError}
    (h : d.publish dir pair = (.error e, d')) :
    (∃ cause, d.ensureDirectory dir = (.error cause, d') ∧ e = .directory dir cause) ∨
      (d.ensureDirectory dir = (.ok (), d') ∧ d'.stagePair dir pair = .error e) ∨
      (d.ensureDirectory dir = (.ok (), d') ∧
        ∃ cause, e = .move (Path.join dir pair.headerPath) cause) ∨
      ∃ d₁ header, d.ensureDirectory dir = (.ok (), d₁) ∧
        d₁.settle (d₁.stagingPlace dir) (d₁.draft dir pair.headerPath pair.header) =
          (.ok header, d') ∧
        ∃ cause, e = .move (Path.join dir pair.sourcePath) cause := by
  unfold publish at h
  split at h
  · next cause d₁ hensure =>
    cases h
    exact .inl ⟨cause, hensure, rfl⟩
  next d₁ hensure =>
    refine .inr ?_
    split at h
    · next hstage =>
      cases h
      exact .inl ⟨hensure, hstage⟩
    next header source hstage =>
      obtain ⟨hdrafts, -⟩ := stagePair_eq_ok_iff.mp hstage
      cases hdrafts
      refine .inr ?_
      simp only at h
      split at h
      · next hsettle =>
        cases h
        obtain ⟨rfl, hcause⟩ := settle_eq_error hsettle
        exact .inl ⟨hensure, hcause⟩
      next header d₂ hsettle =>
        split at h
        · next hsettle' =>
          cases h
          obtain ⟨rfl, hcause⟩ := settle_eq_error hsettle'
          exact .inr ⟨d₁, header, hensure, hsettle, hcause⟩
        · cases h

/-- An error tells at which step publishing has failed, and for which path. -/
lemma exists_cause_of_publish {dir : String} {pair : FilePair} {e : PublishError}
    (h : d.publish dir pair = (.error e, d')) :
    ∃ cause, e = .directory dir cause ∨
      ∃ file ∈ pair.filesIn dir, e = .stage file.1 cause ∨ e = .move file.1 cause := by
  obtain ⟨cause, -, rfl⟩ | ⟨-, hstage⟩ | ⟨-, cause, rfl⟩ | ⟨_, _, -, -, cause, rfl⟩ :=
    publish_eq_error h
  · exact ⟨cause, .inl rfl⟩
  · obtain ⟨cause, file, -, hfile, rfl⟩ := stagePair_eq_error_iff.mp hstage
    exact ⟨cause, .inr ⟨file, List.mem_of_find?_eq_some hfile, .inl rfl⟩⟩
  · exact ⟨cause, .inr ⟨_, List.mem_cons_self, .inr rfl⟩⟩
  · exact ⟨cause, .inr ⟨_, List.mem_cons_of_mem _ List.mem_cons_self, .inr rfl⟩⟩

/-- Publishing ends in staging just when the directory is there, has no room and would need some.
-/
theorem publish_eq_error_stage_iff {dir path : String} {pair : FilePair} {cause : FileError} :
    d.publish dir pair = (.error (.stage path cause), d') ↔
      d.ensureDirectory dir = (.ok (), d') ∧ d'.room dir = .error cause ∧
        ∃ content, d'.stale? dir pair = some (path, content) := by
  have hstage : d'.stagePair dir pair = .error (.stage path cause) ↔
      d'.room dir = .error cause ∧ ∃ content, d'.stale? dir pair = some (path, content) := by
    rw [stagePair_eq_error_iff]
    constructor
    · rintro ⟨_, ⟨_, content⟩, hroom, hstale, heq⟩
      cases heq
      exact ⟨hroom, content, hstale⟩
    · rintro ⟨hroom, content, hstale⟩
      exact ⟨cause, _, hroom, hstale, rfl⟩
  constructor
  · intro h
    obtain ⟨_, -, hne⟩ | ⟨hensure, herror⟩ | ⟨-, _, hne⟩ | ⟨_, _, -, -, _, hne⟩ :=
      publish_eq_error h
    · cases hne
    · exact ⟨hensure, hstage.mp herror⟩
    · cases hne
    · cases hne
  · rintro ⟨hensure, herror⟩
    simp only [publish, hensure, hstage.mpr herror]

section

variable {dir : String} {pair : FilePair} (hheader : Path.IsName pair.headerPath)
  (hsource : Path.IsName pair.sourcePath) (hne : pair.headerPath ≠ pair.sourcePath)

include hheader

/-- A pair that is in its places is left alone. -/
lemma publish_of_reads
    (h : ∀ file ∈ pair.filesIn dir, d.read file.1 = .ok file.2) :
    d.publish dir pair =
      (.ok [(Path.join dir pair.headerPath, .unchanged),
        (Path.join dir pair.sourcePath, .unchanged)], d) := by
  have hstage := stagePair_eq_ok_iff.mpr ⟨rfl, .inl (stale?_eq_none_iff.mpr h)⟩
  simp only [FilePair.filesIn, List.forall_mem_cons] at h
  obtain ⟨hreadHeader, hreadSource, -⟩ := h
  obtain ⟨p, hp, -⟩ := read_eq_ok_iff.mp hreadHeader
  simp only [publish, ensureDirectory_of_locate hheader hp, hstage, settle_of_read hreadHeader,
    settle_of_read hreadSource]

include hsource

/-- A pair can be published into a directory that has room and in which no directory has one of its
names. -/
theorem publish_of_locate (hroom : d.room dir = .ok ())
    (hp : ∃ p, d.locate (Path.join dir pair.headerPath) = .ok p ∧ d.get? p ≠ some .directory)
    (hp' : ∃ p, d.locate (Path.join dir pair.sourcePath) = .ok p ∧ d.get? p ≠ some .directory) :
    ∃ outcomes d', d.publish dir pair = (.ok outcomes, d') ∧ SameDirectories d d' := by
  obtain ⟨p, hlocate, hfile⟩ := hp
  obtain ⟨done, d₂, hsettle, hsame⟩ := settle_of_locate hheader d pair.header hlocate hfile
    (eq_stagingPlace_concat hheader hlocate)
  obtain ⟨p', hlocate', hfile'⟩ := hp'
  obtain ⟨done', d₃, hsettle', hsame'⟩ := settle_of_locate hsource d pair.source
    (hsame.kept.locate hlocate') (mt (hsame.made.directory p') hfile')
    (eq_stagingPlace_concat hsource hlocate')
  refine ⟨[done, done'], d₃, ?_, hsame.trans hsame'⟩
  have hstage : d.stagePair dir pair = .ok _ := stagePair_eq_ok_iff.mpr ⟨rfl, .inr hroom⟩
  simp only [publish, ensureDirectory_of_locate hheader hlocate, hstage, hsettle, hsettle']

include hne

/-- A published pair is in its places. -/
theorem effect_of_publish {outcomes : List (String × Outcome)}
    (h : d.publish dir pair = (.ok outcomes, d')) : Effect d d' (pair.filesIn dir) := by
  obtain ⟨d₁, d₂, header, source, hensure, hsettle, hsettle', -⟩ := publish_eq_ok h
  have hfirst := effect_of_settle hheader id hsettle
  -- the source was staged before the header was moved, which has to have left it alone
  have hsecond : Effect d₂ d' [(Path.join dir pair.sourcePath, Text.bytes pair.source)] := by
    refine effect_of_settle hsource (fun hread => hfirst.read hread ?_) hsettle'
    rw [List.forall_mem_singleton]
    exact apart_of_ne hsource hheader hne.symm
  refine (effect_of_ensureDirectory hensure).append (hfirst.append hsecond ?_) (by simp)
  rw [List.forall_mem_singleton, List.forall_mem_singleton]
  exact apart_of_ne hheader hsource hne

/-- What has happened when a pair cannot be published: only if it is the source that could not be
moved, the header has come to its place. -/
theorem effect_of_publish_error {e : PublishError} (h : d.publish dir pair = (.error e, d')) :
    (Effect d d' [] ∧ ∀ cause, e ≠ .move (Path.join dir pair.sourcePath) cause) ∨
      ((∃ cause, e = .move (Path.join dir pair.sourcePath) cause) ∧
        Effect d d' [(Path.join dir pair.headerPath, Text.bytes pair.header)]) := by
  obtain ⟨cause, hensure, rfl⟩ | ⟨hensure, hstage⟩ | ⟨hensure, cause, rfl⟩ |
    ⟨d₁, header, hensure, hsettle, hmove⟩ := publish_eq_error h
  · exact .inl ⟨effect_of_ensureDirectory hensure, by simp⟩
  · obtain ⟨cause, _, -, -, rfl⟩ := stagePair_eq_error_iff.mp hstage
    exact .inl ⟨effect_of_ensureDirectory hensure, by simp⟩
  · refine .inl ⟨effect_of_ensureDirectory hensure, fun cause' heq => ?_⟩
    exact hne (Path.join_injective hheader hsource (PublishError.move.inj heq).1)
  · refine .inr ⟨hmove, ?_⟩
    exact (effect_of_ensureDirectory hensure).append (effect_of_settle hheader id hsettle) (by simp)

/-- **Failed publishing**: an error is of making the directory, or of staging or moving one of the
files. It leaves alone all that is not at the place of the header. It leaves the header alone as
well unless what failed is the move of the source: then the new header is there already, and
whatever else stood there is lost. -/
theorem publish_error_spares {e : PublishError} (h : d.publish dir pair = (.error e, d')) :
    (∃ cause, e = .directory dir cause ∨
      ∃ file ∈ pair.filesIn dir, e = .stage file.1 cause ∨ e = .move file.1 cause) ∧
      (∀ path cause, e = .stage path cause ↔ d.ensureDirectory dir = (.ok (), d') ∧
        d'.room dir = .error cause ∧ ∃ content, d'.stale? dir pair = some (path, content)) ∧
      (∀ p, d'.locate (Path.join dir pair.headerPath) ≠ .ok p → StaysAt d d' p) ∧
      Spares d d' (Path.join dir pair.sourcePath) ∧
      (∀ cause, e = .move (Path.join dir pair.sourcePath) cause →
        d'.read (Path.join dir pair.headerPath) = .ok (Text.bytes pair.header)) ∧
      (Spares d d' (Path.join dir pair.headerPath) ↔
        ∀ cause p, e = .move (Path.join dir pair.sourcePath) cause →
          d'.locate (Path.join dir pair.headerPath) = .ok p →
          d.get? p = some (.file (Text.bytes pair.header))) := by
  have hapart : d'.Apart (Path.join dir pair.sourcePath) (Path.join dir pair.headerPath) :=
    apart_of_ne hsource hheader hne.symm
  refine ⟨exists_cause_of_publish h, fun path cause => ?_, ?_⟩
  · rw [← publish_eq_error_stage_iff, h]
    simp
  obtain ⟨heffect, he⟩ | ⟨⟨cause, rfl⟩, heffect⟩ := effect_of_publish_error hheader hsource hne h
  · have hstays (p : Place) : StaysAt d d' p := heffect.elsewhere p (by simp)
    refine ⟨fun p _ => hstays p, fun p _ => hstays p, fun cause heq => absurd heq (he cause), ?_⟩
    exact iff_of_true (fun p _ => hstays p) fun cause p heq => absurd heq (he cause)
  · have helsewhere (p : Place) (hp : d'.locate (Path.join dir pair.headerPath) ≠ .ok p) :
        StaysAt d d' p := heffect.elsewhere p (by simpa using hp)
    have hread := List.forall_mem_singleton.mp heffect.reads
    refine ⟨helsewhere, fun p hp => helsewhere p (hapart hp), fun _ _ => hread, ?_⟩
    obtain ⟨p, hp, hnew⟩ := read_eq_ok_iff.mp hread
    constructor
    · intro hspares _ q _ hq
      rw [hp] at hq
      cases hq
      exact ((hspares p hp).file_iff _).mp hnew
    · intro hold q hq
      rw [hp] at hq
      cases hq
      exact .inl (hnew.trans (hold cause p rfl hp).symm)

end

/-- An old header, and a directory where its source should be. -/
def blockedSource : Disk where
  entries := [(["out"], .directory), (["out", "E.hpp"], .file (Text.bytes "// old header\n")),
    (["out", "E.cpp"], .directory)]

/-- The same with a new header. -/
def freshHeader : Disk where
  entries := [(["out", "E.hpp"], .file (Text.bytes "// new header\n")), (["out"], .directory),
    (["out", "E.cpp"], .directory)]

def newPair : FilePair := ⟨"E", "E.hpp", "// new header\n", "E.cpp", "// new source\n"⟩

lemma isName_header_newPair : Path.IsName newPair.headerPath :=
  ⟨⟨by decide, by decide, by decide⟩, by decide⟩

lemma isName_source_newPair : Path.IsName newPair.sourcePath :=
  ⟨⟨by decide, by decide, by decide⟩, by decide⟩

lemma publish_blockedSource :
    blockedSource.publish "out" newPair =
      (.error (.move "out/E.cpp" .isDirectory), freshHeader) := by rfl

theorem blockedSource_spares :
    Spares blockedSource freshHeader "out/E.cpp" ∧
      ¬ Spares blockedSource freshHeader "out/E.hpp" := by
  obtain ⟨-, -, -, hsource, -, hheader⟩ := publish_error_spares isName_header_newPair
    isName_source_newPair (by decide) publish_blockedSource
  refine ⟨hsource, fun hspares => ?_⟩
  have hold : blockedSource.get? ["out", "E.hpp"] = some (.file (Text.bytes newPair.header)) :=
    hheader.mp hspares .isDirectory _ rfl rfl
  revert hold
  decide

/-- An error of publishing can leave a new header beside an old source: here nothing could be moved
to the place of the source, and the old header is lost all the same. -/
theorem publish_error_replaces_header :
    Path.IsName newPair.headerPath ∧ Path.IsName newPair.sourcePath ∧
      newPair.headerPath ≠ newPair.sourcePath ∧
      ∃ e d', blockedSource.publish "out" newPair = (.error e, d') ∧
        blockedSource.read "out/E.hpp" = .ok (Text.bytes "// old header\n") ∧
        d'.read "out/E.hpp" = .ok (Text.bytes "// new header\n") :=
  ⟨isName_header_newPair, isName_source_newPair, by decide, _, _, publish_blockedSource, rfl, rfl⟩

end Disk

end EnumForge
