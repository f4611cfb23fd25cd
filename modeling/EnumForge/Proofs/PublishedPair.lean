import EnumForge.Proofs.TemporaryFiles

/-!
All that a published pair of files leaves behind: the two files with what was done to each, the
directory with those that lead to it, and nothing else. A second time there is nothing left to do.
-/

namespace EnumForge

open Text (Bytes)

/-! ### Ways to a directory -/

namespace Path

/-- A step that is not passed over. -/
def isStride (step : String) : Bool := step ≠ "" && step ≠ "."

/-- Where steps lead from a place if all on the way are directories. -/
def follow (p : Place) (steps : List String) : Place :=
  steps.foldl (fun p step =>
    if !isStride step then p else if step = ".." then p.dropLast else p ++ [step]) p

lemma follow_filter (p : Place) (steps : List String) :
    follow p (steps.filter isStride) = follow p steps := by
  rw [follow, List.foldl_filter, follow]
  congr
  funext q step
  cases isStride step <;> rfl

/-- A part keeps the text of the step that it stands for. -/
lemma ofStep_cases (s : String) :
    (isStride s = false ∧ Part.ofStep s = none) ∨
      (isStride s = true ∧ ∃ part, Part.ofStep s = some part ∧ part ≠ .root ∧ part.text = s) := by
  unfold Part.ofStep
  split
  · exact .inl ⟨rfl, rfl⟩
  · exact .inl ⟨rfl, rfl⟩
  · exact .inr ⟨rfl, _, rfl, by simp, rfl⟩
  · next hempty hhere _ =>
    exact .inr ⟨by simpa [isStride] using ⟨hempty, hhere⟩, _, rfl, by simp, rfl⟩

/-- The steps of a path that lead somewhere are those of its parts. -/
lemma filter_text_parts (path : String) :
    (((parts path).filter (· != .root)).map (·.text)).filter isStride =
      (steps path).filter isStride := by
  have hinner (ss : List String) :
      (((ss.filterMap Part.ofStep).filter (· != .root)).map (·.text)).filter isStride =
        ss.filter isStride := by
    induction ss with
    | nil => rfl
    | cons s ss ih =>
      obtain ⟨hpassed, hnone⟩ | ⟨hstride, part, hsome, hroot, rfl⟩ := ofStep_cases s
      · simp [hnone, hpassed, ih]
      · simp [hsome, hstride, hroot, ih]
  unfold parts
  split
  · exact hinner (steps path)
  · split
    · simpa [Part.text, isStride] using hinner (steps path)
    · exact hinner (steps path)

end Path

namespace Disk

variable {d d' : Disk}

/-- Each shorter path on the way goes as far as some of the first steps do. -/
lemma exists_prefix_of_mem_ancestors {path : String} {steps : List String}
    (h : steps ∈ ancestors path) :
    ∃ trunk, trunk <+: Path.steps path ∧
      steps.filter Path.isStride = trunk.filter Path.isStride := by
  unfold ancestors at h
  rw [List.mem_cons] at h
  rcases h with rfl | h
  · exact ⟨_, List.prefix_rfl, rfl⟩
  · obtain ⟨n, -, rfl⟩ := List.mem_map.mp h
    rw [← List.prefix_filter_iff, ← Path.filter_text_parts]
    exact (List.take_prefix n _).filter _

lemma walk_eq_follow {p q : Place} {steps : List String} (h : d.walk p steps = .ok q) :
    q = Path.follow p steps := by
  fun_induction Disk.walk d p steps with
  | case1 p => exact (Except.ok.inj h).symm
  | case2 p step rest hnone => cases h
  | case3 p step rest content hfile => cases h
  | case4 p step rest hdir hhere ih =>
    have hpassed : Path.isStride step = false := by
      simpa [Path.isStride, or_iff_not_imp_left] using hhere
    simpa [Path.follow, hpassed] using ih h
  | case5 p rest hdir hhere ih => exact ih h
  | case6 p step rest hdir hhere hup hlong => cases h
  | case7 p step rest hdir hhere hup hlong ih =>
    have hstride : Path.isStride step = true := by
      simpa [Path.isStride] using hhere
    simpa [Path.follow, hstride, hup] using ih h

/-- Each step on the way to a directory is taken from a directory. -/
lemma exists_walkToDirectory_of_prefix {start q : Place} {steps trunk : List String}
    (h : d.walkToDirectory start steps = .ok q) (htrunk : trunk <+: steps) :
    ∃ r, d.walkToDirectory start trunk = .ok r := by
  obtain ⟨rest, rfl⟩ := htrunk
  cases rest with
  | nil => exact ⟨q, by rwa [List.append_nil] at h⟩
  | cons step rest =>
    obtain ⟨hwalk, -⟩ := walkToDirectory_eq_ok_iff.mp h
    rw [List.append_cons, walk_append] at hwalk
    obtain ⟨next, hnext, -⟩ := bind_eq_ok.mp hwalk
    obtain ⟨r, hr, -⟩ := walk_concat_eq_ok_iff.mp hnext
    exact ⟨r, hr⟩

/-- A place that some of the first steps of a path lead to. -/
def OnTheWay (d : Disk) (path : String) (p : Place) : Prop :=
  ∃ trunk, trunk <+: Path.steps path ∧ d.walkToDirectory (d.startOf path) trunk = .ok p

/-- All directories that are made for a directory lead to it. -/
lemma onTheWay_of_mem_ancestors {dir : String} {steps : List String} {p q : Place}
    (hdir : d.directoryAt dir = .ok q) (hsteps : steps ∈ ancestors dir)
    (hp : d.walkToDirectory (d.startOf dir) steps = .ok p) : d.OnTheWay dir p := by
  obtain ⟨trunk, htrunk, hstrides⟩ := exists_prefix_of_mem_ancestors hsteps
  obtain ⟨r, hr⟩ := exists_walkToDirectory_of_prefix hdir htrunk
  have hsame : p = r := by
    rw [walk_eq_follow (walkToDirectory_eq_ok_iff.mp hp).1, ← Path.follow_filter, hstrides,
      Path.follow_filter, walk_eq_follow (walkToDirectory_eq_ok_iff.mp hr).1]
  exact ⟨trunk, htrunk, hsame ▸ hr⟩

/-! ### Single files -/

/-- What has become of a file: it is in its place, and it counts as unchanged just if it was there
with its text before. -/
structure Published (d d' : Disk) (path : String) (content : Bytes) (outcome : Outcome)
    (p : Place) : Prop where
  located : d'.locate path = .ok p
  holds : d'.get? p = some (.file content)
  unchanged_iff : outcome = .unchanged ↔ d.get? p = some (.file content)

/-- A file is settled by what was found when it was staged. In the meantime files elsewhere may have
come, but not to its own place. -/
lemma published_of_settle {found : Disk} {dir name text : String} {staging : Place}
    {done : String × Outcome} (h : Path.IsName name) (hsame : SameDirectories found d)
    (hkept : ∀ p, found.locate (Path.join dir name) = .ok p → d.get? p = found.get? p)
    (hsettle : d.settle staging (found.draft dir name text) = (.ok done, d')) :
    ∃ outcome p, done = (Path.join dir name, outcome) ∧
      Published found d' (Path.join dir name) (Text.bytes text) outcome p ∧
      SameDirectories d d' ∧ ∀ q, q ≠ p → d'.get? q = d.get? q := by
  obtain ⟨rfl, hread, rfl⟩ | ⟨rfl, hstale, p, hp, hfile, rfl⟩ := settle_eq_ok h hsettle
  · obtain ⟨p, hp, hholds⟩ := read_eq_ok_iff.mp hread
    refine ⟨_, p, rfl, ⟨hsame.kept.locate hp, ?_, iff_of_true rfl hholds⟩, .refl _, fun _ _ => rfl⟩
    rw [hkept p hp, hholds]
  · have hroot := ne_nil_of_locate h hp
    have hput := SameDirectories.putFile hroot hfile (Text.bytes text)
    have hfound := hsame.made.locate hp
    refine ⟨_, p, rfl, ⟨hput.kept.locate hp, get?_set_self d _ hroot, ?_⟩, hput,
      fun q hq => get?_set_of_ne d _ hq⟩
    exact iff_of_false (by simp) fun hholds => hstale (read_eq_ok_iff.mpr ⟨p, hfound, hholds⟩)

/-! ### Pairs -/

section

variable {dir : String} {pair : FilePair} {outcomes : List (String × Outcome)}
  (hheader : Path.IsName pair.headerPath) (hsource : Path.IsName pair.sourcePath)
  (hne : pair.headerPath ≠ pair.sourcePath) (h : d.publish dir pair = (.ok outcomes, d'))

include hheader hsource hne h

/-- What has become of a pair, seen from the tree in which its directory has been made. -/
lemma exists_published :
    ∃ d₁ header source p q,
      d.ensureDirectory dir = (.ok (), d₁) ∧ SameDirectories d₁ d' ∧ p ≠ q ∧
      outcomes =
        [(Path.join dir pair.headerPath, header), (Path.join dir pair.sourcePath, source)] ∧
      Published d₁ d' (Path.join dir pair.headerPath) (Text.bytes pair.header) header p ∧
      Published d₁ d' (Path.join dir pair.sourcePath) (Text.bytes pair.source) source q ∧
      ∀ r, r ≠ p → r ≠ q → d'.get? r = d₁.get? r := by
  obtain ⟨d₁, d₂, _, _, hensure, hsettle, hsettle', rfl⟩ := publish_eq_ok h
  obtain ⟨header, p, rfl, hpublished, hsame, hframe⟩ :=
    published_of_settle hheader (.refl d₁) (fun _ _ => rfl) hsettle
  have hapart {q : Place} (hq : d₂.locate (Path.join dir pair.sourcePath) = .ok q) : q ≠ p := by
    rintro rfl
    exact hne (name_eq_of_locate hheader hsource hpublished.located hq)
  obtain ⟨source, q, rfl, hpublished', hsame', hframe'⟩ := published_of_settle hsource hsame
    (fun q hq => hframe q (hapart (hsame.kept.locate hq))) hsettle'
  have hpq : p ≠ q := (hapart (hsame'.made.locate hpublished'.located)).symm
  refine ⟨d₁, header, source, p, q, hensure, hsame.trans hsame', hpq, rfl,
    ⟨hsame'.kept.locate hpublished.located, ?_, hpublished.unchanged_iff⟩, hpublished', ?_⟩
  · rw [hframe' p hpq, hpublished.holds]
  · intro r hp hq
    rw [hframe' r hq, hframe r hp]

/-- **Published pairs**: both files are in their places, at different ones, and each counts as
unchanged just if it was there with its text before. All else is as it was, apart from the directory
and those that lead to it, which are there now. It makes no difference if the unfinished files are
entered in the tree under free names, and none of them is left. A second time both files are
unchanged, and so is the tree. -/
theorem publish_exact :
    ∃ header source p q,
      outcomes =
        [(Path.join dir pair.headerPath, header), (Path.join dir pair.sourcePath, source)] ∧
      Published d d' (Path.join dir pair.headerPath) (Text.bytes pair.header) header p ∧
      Published d d' (Path.join dir pair.sourcePath) (Text.bytes pair.source) source q ∧
      p ≠ q ∧
      (∀ r, r ≠ p → r ≠ q → d'.get? r = d.get? r ∨
        (d.get? r = none ∧ d'.get? r = some .directory ∧ d'.OnTheWay dir r)) ∧
      (∀ trunk, trunk <+: Path.steps dir →
        ∃ r, d'.walkToDirectory (d'.startOf dir) trunk = .ok r) ∧
      d'.current = d.current ∧
      (∀ forHeader forSource,
        (d.ensureDirectory dir).2.FreeNames dir pair forHeader forSource →
          d.publishThrough dir pair forHeader forSource = (.ok outcomes, d') ∧
          ∀ s, d'.directoryAt dir = .ok s → ∀ name ∈ [forHeader, forSource],
            d'.get? (s ++ [name]) = none) ∧
      d'.publish dir pair =
        (.ok [(Path.join dir pair.headerPath, .unchanged),
          (Path.join dir pair.sourcePath, .unchanged)], d') := by
  obtain ⟨d₁, header, source, p, q, hensure, hsame, hpq, houtcomes, hpublished, hpublished',
    hframe⟩ := exists_published hheader hsource hne h
  have hmakes := makes_of_ensureDirectory hensure
  have heffect := effect_of_publish hheader hsource hne h
  obtain ⟨-, s, hdir, -, hp⟩ := (locate_join_eq_ok_iff hheader).mp hpublished.located
  obtain ⟨-, s', hdir', -, hq⟩ := (locate_join_eq_ok_iff hsource).mp hpublished'.located
  have hold {path : String} {content : Bytes} {outcome : Outcome} {p : Place}
      (h : Published d₁ d' path content outcome p) : Published d d' path content outcome p :=
    ⟨h.located, h.holds, h.unchanged_iff.trans ((hmakes.staysAt p).file_iff content)⟩
  have hstart : d'.startOf dir = d.startOf dir := by rw [startOf, heffect.current, startOf]
  refine ⟨header, source, p, q, houtcomes, hold hpublished, hold hpublished', hpq, ?_, ?_,
    heffect.current, ?_, publish_of_reads hheader heffect.reads⟩
  · intro r hrp hrq
    rw [hframe r hrp hrq]
    refine (hmakes.made r).imp_right ?_
    rintro ⟨hnone, hdirectory, steps, hsteps, hwalk⟩
    refine ⟨hnone, hdirectory, onTheWay_of_mem_ancestors hdir hsteps ?_⟩
    rw [hstart]
    exact hsame.kept.walkToDirectory hwalk
  · exact fun trunk htrunk => exists_walkToDirectory_of_prefix hdir htrunk
  · intro forHeader forSource hfree
    have hstaging := directoryAt_of_locate hheader (hsame.made.locate hpublished.located)
    constructor
    · rw [← h]
      refine publishThrough_of_directoryAt hheader hsource hfree fun _ hensure' => ?_
      rw [hensure] at hensure'
      cases hensure'
      exact hstaging
    · intro t ht name hname
      rw [hsame.kept.directoryAt hstaging] at ht hdir hdir'
      cases ht
      cases hdir
      cases hdir'
      rw [hensure] at hfree
      obtain ⟨hheaderNe, hsourceNe⟩ := hfree.apart name hname
      rw [hframe _ (by simpa [hp] using hheaderNe.symm) (by simpa [hq] using hsourceNe.symm)]
      exact hfree.free name hname

end

/-- An old header beside the new source, and a file elsewhere. -/
def staleHeader : Disk where
  entries := [(["out"], .directory), (["out", "E.hpp"], .file (Text.bytes "// old header\n")),
    (["out", "E.cpp"], .file (Text.bytes "// new source\n")), (["notes"], .file [])]

/-- The same with the new header, and with the directory that the path leads through. -/
def renewedHeader : Disk where
  entries := [(["out", "E.hpp"], .file (Text.bytes "// new header\n")), (["new"], .directory),
    (["out"], .directory), (["out", "E.cpp"], .file (Text.bytes "// new source\n")),
    (["notes"], .file [])]

lemma publish_staleHeader :
    staleHeader.publish "new/../out" newPair =
      (.ok [("new/../out/E.hpp", .written), ("new/../out/E.cpp", .unchanged)], renewedHeader) := by
  rfl

theorem staleHeader_renewed :
    staleHeader.publishThrough "new/../out" newPair ".tmpA1" ".tmpB2" =
        (.ok [("new/../out/E.hpp", .written), ("new/../out/E.cpp", .unchanged)], renewedHeader) ∧
      renewedHeader.publish "new/../out" newPair =
        (.ok [("new/../out/E.hpp", .unchanged), ("new/../out/E.cpp", .unchanged)],
          renewedHeader) := by
  obtain ⟨_, _, _, _, -, -, -, -, -, -, -, htemporary, hagain⟩ :=
    publish_exact isName_header_newPair isName_source_newPair (by decide) publish_staleHeader
  exact ⟨(htemporary ".tmpA1" ".tmpB2" ⟨by decide, by decide, by decide⟩).1, hagain⟩

end Disk

end EnumForge
