import Mathlib.Data.List.DropRight
import EnumForge.Publish
import EnumForge.Proofs.Acceptance
import EnumForge.Proofs.Places

/-!
What changes from one disk to another. An effect is said by the files that it brings to the places
that their paths lead to; effects on different places add up. Making a directory makes those that
lead to it, only where nothing was, and files are finished in the directory that was made.
-/

namespace EnumForge

open Text (Bytes)

namespace Disk

variable {d d' : Disk}

/-! ### Effects -/

/-- A place holds what it held, or a directory was made there in place of nothing. -/
def StaysAt (d d' : Disk) (p : Place) : Prop :=
  d'.get? p = d.get? p ∨ (d.get? p = none ∧ d'.get? p = some .directory)

namespace StaysAt

variable {p : Place}

lemma refl (d : Disk) (p : Place) : StaysAt d d p := .inl rfl

lemma trans {d'' : Disk} (h : StaysAt d d' p) (h' : StaysAt d' d'' p) : StaysAt d d'' p := by
  rcases h' with heq' | ⟨hnone', hdirectory'⟩
  · rcases h with heq | ⟨hnone, hdirectory⟩
    · exact .inl (heq'.trans heq)
    · exact .inr ⟨hnone, heq'.trans hdirectory⟩
  · rcases h with heq | ⟨hnone, hdirectory⟩
    · exact .inr ⟨heq.symm.trans hnone', hdirectory'⟩
    · rw [hdirectory] at hnone'
      cases hnone'

lemma file_iff (h : StaysAt d d' p) (content : Bytes) :
    d'.get? p = some (.file content) ↔ d.get? p = some (.file content) := by
  rcases h with heq | ⟨hnone, hdirectory⟩
  · rw [heq]
  · rw [hnone, hdirectory]
    simp

end StaysAt

/-- What stood at the place that a path leads to still stands there, and if nothing stood there no
file has come. -/
def Spares (d d' : Disk) (path : String) : Prop := ∀ p, d'.locate path = .ok p → StaysAt d d' p

/-- Two paths that do not lead to one place. -/
def Apart (d : Disk) (path path' : String) : Prop :=
  ∀ {p}, d.locate path = .ok p → d.locate path' ≠ .ok p

/-- All that changes from one disk to another: files come to the places that their paths lead to,
and elsewhere directories are made. -/
structure Effect (d d' : Disk) (files : List (String × Bytes)) : Prop
    extends KeepsDirectories d d' where
  reads : ∀ file ∈ files, d'.read file.1 = .ok file.2
  elsewhere : ∀ p, (∀ file ∈ files, d'.locate file.1 ≠ .ok p) → StaysAt d d' p

namespace Effect

variable {files : List (String × Bytes)}

/-- Nothing changes. What is there already may be counted as brought. -/
lemma refl (h : ∀ file ∈ files, d.read file.1 = .ok file.2) : Effect d d files :=
  ⟨.refl d, h, fun p _ => .refl d p⟩

lemma nothing (d : Disk) : Effect d d [] := .refl (by simp)

/-- Where no file comes to, a file stays readable. -/
lemma read (h : Effect d d' files) {path : String} {content : Bytes}
    (hread : d.read path = .ok content) (hapart : ∀ file ∈ files, d'.Apart path file.1) :
    d'.read path = .ok content := by
  obtain ⟨p, hp, hcontent⟩ := read_eq_ok_iff.mp hread
  have hp' := h.toKeepsDirectories.locate hp
  have hstays := h.elsewhere p fun file hfile => hapart file hfile hp'
  exact read_eq_ok_iff.mpr ⟨p, hp', (hstays.file_iff content).mpr hcontent⟩

lemma putFile {path : String} {p : Place} (hp : d.locate path = .ok p) (hroot : p ≠ [])
    (h : d.get? p ≠ some .directory) (content : Bytes) :
    Effect d (d.set p (.file content)) [(path, content)] := by
  have hkeeps : KeepsDirectories d (d.set p (.file content)) := .set h _
  refine ⟨hkeeps, ?_, fun q hq => ?_⟩
  · rw [List.forall_mem_singleton]
    exact read_eq_ok_iff.mpr ⟨p, hkeeps.locate hp, get?_set_self d _ hroot⟩
  · rw [List.forall_mem_singleton, hkeeps.locate hp] at hq
    exact .inl (get?_set_of_ne d _ fun heq => hq (heq ▸ rfl))

/-- Two effects, one after the other, that bring files to different places. -/
theorem append {d'' : Disk} {later : List (String × Bytes)} (h : Effect d d' files)
    (h' : Effect d' d'' later)
    (hapart : ∀ file ∈ files, ∀ file' ∈ later, d''.Apart file.1 file'.1) :
    Effect d d'' (files ++ later) where
  toKeepsDirectories := h.toKeepsDirectories.trans h'.toKeepsDirectories
  reads := by
    rw [List.forall_mem_append]
    exact ⟨fun file hfile => h'.read (h.reads file hfile) (hapart file hfile), h'.reads⟩
  elsewhere p hp := by
    rw [List.forall_mem_append] at hp
    refine StaysAt.trans (h.elsewhere p fun file hfile hlocate => ?_) (h'.elsewhere p hp.2)
    exact hp.1 file hfile (h'.toKeepsDirectories.locate hlocate)

end Effect

/-! ### Making directories -/

lemma withoutTrailing_concat {front : List String} {name : String} (h : name ≠ "") :
    withoutTrailing (front ++ [name]) = front ++ [name] :=
  List.rdropWhile_concat_neg _ _ _ (by simpa using h)

lemma walkToDirectory_withoutTrailing {start q : Place} {steps : List String} :
    d.walkToDirectory start (withoutTrailing steps) = .ok q ↔
      d.walkToDirectory start steps = .ok q := by
  induction steps using List.reverseRecOn with
  | nil => rfl
  | append_singleton front name ih =>
    by_cases hname : name = ""
    · subst hname
      have htrailing : withoutTrailing (front ++ [""]) = withoutTrailing front :=
        List.rdropWhile_concat_pos _ _ _ rfl
      rw [htrailing, ih, walkToDirectory_concat_empty]
    · rw [withoutTrailing_concat hname]

lemma ne_empty_of_withoutTrailing {steps front : List String} {name : String}
    (h : withoutTrailing steps = front ++ [name]) : name ≠ "" := by
  have h' : steps.rdropWhile (· == "") = front ++ [name] := h
  have hlast := List.rdropWhile_last_not (· == "") steps (by simp [h'])
  simpa [h'] using hlast

/-- A directory that is there is not made again. -/
lemma makeDirectory_of_directory {start q : Place} {steps : List String}
    (h : d.walkToDirectory start steps = .ok q) :
    d.makeDirectory start steps = .error .alreadyExists := by
  rw [← walkToDirectory_withoutTrailing] at h
  rw [makeDirectory]
  cases hlast : (withoutTrailing steps).getLast? with
  | none => rfl
  | some name =>
    obtain ⟨front, hfront⟩ := List.getLast?_eq_some_iff.mp hlast
    rw [hfront] at h
    obtain ⟨hwalk, hdirectory⟩ := walkToDirectory_eq_ok_iff.mp h
    obtain ⟨parent, hparent, hstep⟩ := walk_concat_eq_ok_iff.mp hwalk
    simp only [hfront, List.dropLast_concat, hparent]
    by_cases hdots : name = "." ∨ name = ".."
    · simp [bind, Except.bind, hdots]
    · obtain ⟨hhere, hup⟩ := not_or.mp hdots
      have hparent' := (walkToDirectory_eq_ok_iff.mp hparent).2
      obtain ⟨hlength, rfl⟩ := (walk_stepDown_eq_ok_iff
        ⟨ne_empty_of_withoutTrailing hfront, hhere, hup⟩ hparent').mp hstep
      simp [bind, Except.bind, hhere, hup, Nat.not_lt.mpr hlength, hdirectory]

/-- All that making directories changes: at a place that the steps of one of the lists lead to, a
directory was made in place of nothing. -/
structure Makes (d d' : Disk) (start : Place) (lists : List (List String)) : Prop
    extends KeepsDirectories d d' where
  made : ∀ p, d'.get? p = d.get? p ∨ (d.get? p = none ∧ d'.get? p = some .directory ∧
    ∃ steps ∈ lists, d'.walkToDirectory start steps = .ok p)

namespace Makes

variable {start : Place} {lists : List (List String)}

lemma refl (d : Disk) (start : Place) (lists : List (List String)) : Makes d d start lists :=
  ⟨.refl d, fun _ => .inl rfl⟩

lemma trans {d'' : Disk} (h : Makes d d' start lists) (h' : Makes d' d'' start lists) :
    Makes d d'' start lists := by
  refine ⟨h.toKeepsDirectories.trans h'.toKeepsDirectories, fun p => ?_⟩
  rcases h'.made p with heq' | ⟨hnone', hmade'⟩
  · rcases h.made p with heq | ⟨hnone, hdirectory, steps, hsteps, hwalk⟩
    · exact .inl (heq'.trans heq)
    · exact .inr ⟨hnone, heq'.trans hdirectory, steps, hsteps,
        h'.toKeepsDirectories.walkToDirectory hwalk⟩
  · rcases h.made p with heq | ⟨-, hdirectory, -⟩
    · exact .inr ⟨heq.symm.trans hnone', hmade'⟩
    · rw [hdirectory] at hnone'
      cases hnone'

lemma mono {more : List (List String)} (h : Makes d d' start lists) (hsub : lists ⊆ more) :
    Makes d d' start more := by
  refine ⟨h.toKeepsDirectories, fun p => (h.made p).imp_right ?_⟩
  rintro ⟨hnone, hdirectory, steps, hsteps, hwalk⟩
  exact ⟨hnone, hdirectory, steps, hsub hsteps, hwalk⟩

lemma staysAt (h : Makes d d' start lists) (p : Place) : StaysAt d d' p :=
  (h.made p).imp_right fun ⟨hnone, hdirectory, _⟩ => ⟨hnone, hdirectory⟩

lemma effect (h : Makes d d' start lists) : Effect d d' [] :=
  ⟨h.toKeepsDirectories, by simp, fun p _ => h.staysAt p⟩

end Makes

/-- A directory is made where nothing was, and the steps lead to it from then on. -/
lemma exists_of_makeDirectory {start : Place} {steps : List String}
    (h : d.makeDirectory start steps = .ok d') :
    ∃ p, p ≠ [] ∧ d.get? p = none ∧ d' = d.set p .directory ∧
      d'.walkToDirectory start steps = .ok p := by
  simp only [makeDirectory] at h
  split at h
  · cases h
  next name hlast =>
    obtain ⟨parent, hparent, h⟩ := bind_eq_ok.mp h
    obtain ⟨front, hfront⟩ := List.getLast?_eq_some_iff.mp hlast
    rw [hfront, List.dropLast_concat] at hparent
    split at h
    · cases h
    next hdots =>
      split at h
      · cases h
      next hlength =>
        split at h
        · cases h
        next hnone =>
          cases h
          have hroot : parent ++ [name] ≠ [] := by simp
          have hkeeps : KeepsDirectories d (d.set (parent ++ [name]) .directory) :=
            .set (by simp [hnone]) _
          have hparent' := hkeeps.walkToDirectory hparent
          refine ⟨_, hroot, hnone, rfl, ?_⟩
          obtain ⟨hhere, hup⟩ := not_or.mp (by simpa using hdots)
          have hstep := (walk_stepDown_eq_ok_iff
            ⟨ne_empty_of_withoutTrailing hfront, hhere, hup⟩
            (walkToDirectory_eq_ok_iff.mp hparent').2).mpr ⟨Nat.not_lt.mp hlength, rfl⟩
          rw [← walkToDirectory_withoutTrailing, hfront, walkToDirectory_eq_ok_iff]
          exact ⟨walk_concat_eq_ok_iff.mpr ⟨parent, hparent', hstep⟩, get?_set_self d _ hroot⟩

lemma makes_of_makeDirectory {start : Place} {steps : List String}
    (h : d.makeDirectory start steps = .ok d') : Makes d d' start [steps] := by
  obtain ⟨p, hroot, hnone, rfl, hwalk⟩ := exists_of_makeDirectory h
  refine ⟨.set (by simp [hnone]) _, fun q => ?_⟩
  by_cases hq : q = p
  · subst hq
    exact .inr ⟨hnone, get?_set_self d _ hroot, steps, List.mem_singleton_self _, hwalk⟩
  · exact .inl (get?_set_of_ne d _ hq)

/-- Nothing but directories has been made when it ends, be it in an error. -/
lemma makes_of_makeDirectories {start : Place} {lists : List (List String)}
    {result : Except FileError Unit} (h : d.makeDirectories start lists = (result, d')) :
    Makes d d' start lists := by
  induction lists generalizing d d' result with
  | nil =>
    cases h
    exact .refl _ _ _
  | cons steps shorter ih =>
    have hshorter {d d' : Disk} {result : Except FileError Unit}
        (h : d.makeDirectories start shorter = (result, d')) :
        Makes d d' start (steps :: shorter) :=
      (ih h).mono (List.subset_cons_self steps shorter)
    have hsteps {d d' : Disk} (h : d.makeDirectory start steps = .ok d') :
        Makes d d' start (steps :: shorter) :=
      (makes_of_makeDirectory h).mono (by simp)
    simp only [makeDirectories] at h
    split at h
    · next hmake =>
      cases h
      exact hsteps hmake
    · split at h
      · next hfirst =>
        cases h
        exact hshorter hfirst
      · next hfirst =>
        split at h
        · next hmake =>
          cases h
          exact (hshorter hfirst).trans (hsteps hmake)
        · split at h
          · cases h
            exact hshorter hfirst
          · cases h
            exact hshorter hfirst
    · split at h
      · cases h
        exact .refl _ _ _
      · cases h
        exact .refl _ _ _

/-- When it ends without an error the steps lead to a directory. -/
lemma exists_walkToDirectory_of_makeDirectories {start : Place} {steps : List String}
    {shorter : List (List String)} (h : d.makeDirectories start (steps :: shorter) = (.ok (), d')) :
    ∃ q, d'.walkToDirectory start steps = .ok q := by
  have hmade {d d' : Disk} (h : d.makeDirectory start steps = .ok d') :
      ∃ q, d'.walkToDirectory start steps = .ok q := by
    obtain ⟨p, -, -, -, hwalk⟩ := exists_of_makeDirectory h
    exact ⟨p, hwalk⟩
  simp only [makeDirectories] at h
  split at h
  · next hmake =>
    cases h
    exact hmade hmake
  · split at h
    · cases h
    · split at h
      · next hmake =>
        cases h
        exact hmade hmake
      · split at h
        · next q hwalk =>
          cases h
          exact ⟨q, hwalk⟩
        · cases h
  · split at h
    · next q hwalk =>
      cases h
      exact ⟨q, hwalk⟩
    · cases h

lemma makes_of_ensureDirectory {dir : String} {result : Except FileError Unit}
    (h : d.ensureDirectory dir = (result, d')) : Makes d d' (d.startOf dir) (ancestors dir) := by
  unfold ensureDirectory at h
  split at h
  · cases h
    exact .refl _ _ _
  · split at h
    · cases h
      exact .refl _ _ _
    · exact makes_of_makeDirectories h

lemma effect_of_ensureDirectory {dir : String} {result : Except FileError Unit}
    (h : d.ensureDirectory dir = (result, d')) : Effect d d' [] :=
  (makes_of_ensureDirectory h).effect

/-- The directory is there once it has been made, and files are finished in it. -/
lemma directoryAt_of_ensureDirectory {dir : String} (hcurrent : d.get? d.current = some .directory)
    (h : d.ensureDirectory dir = (.ok (), d')) :
    d'.directoryAt dir = .ok (d'.stagingPlace dir) := by
  unfold ensureDirectory at h
  split at h
  · next hempty =>
    cases h
    rw [String.isEmpty_iff.mp hempty]
    have hwalk : d.walkToDirectory d.current [] = .ok d.current :=
      walkToDirectory_eq_ok_iff.mpr ⟨rfl, hcurrent⟩
    exact walkToDirectory_concat_empty.mpr hwalk
  · split at h
    · cases h
    next hcheck =>
      obtain ⟨q, hq⟩ := exists_walkToDirectory_of_makeDirectories h
      have hstart : d'.startOf dir = d.startOf dir := by
        rw [startOf, (makes_of_makeDirectories h).current, startOf]
      rw [← hstart] at hq
      have hlocate : d'.locate dir = .ok q :=
        locate_eq_ok_iff.mpr ⟨hcheck, (walkToDirectory_eq_ok_iff.mp hq).1⟩
      rw [stagingPlace, hlocate]
      exact hq

lemma makeDirectories_of_directory {start q : Place} {steps : List String}
    (h : d.walkToDirectory start steps = .ok q) (shorter : List (List String)) :
    d.makeDirectories start (steps :: shorter) = (.ok (), d) := by
  simp only [makeDirectories, makeDirectory_of_directory h, h]

section

variable {dir name : String} (h : Path.IsName name)

include h

lemma checkPath_of_join {dir : String} (hdir : dir ≠ "")
    (hcheck : checkPath .nulInPath (Path.join dir name) = .ok ()) :
    checkPath .nulInPath dir = .ok () := by
  obtain ⟨rest, hjoin⟩ := Path.exists_join_eq_append hdir h
  rw [hjoin, checkPath_eq_ok_iff, String.toList_append, List.mem_append, not_or,
    Text.bytes_append, List.length_append] at hcheck
  exact checkPath_eq_ok_iff.mpr ⟨hdir, hcheck.2.1.1, by omega⟩

/-- A directory in which a file can be found is not made again. -/
lemma ensureDirectory_of_locate {p : Place} (hp : d.locate (Path.join dir name) = .ok p) :
    d.ensureDirectory dir = (.ok (), d) := by
  obtain ⟨hcheck, q, hdirectory, -⟩ := (locate_join_eq_ok_iff h).mp hp
  by_cases hdir : dir = ""
  · simp [ensureDirectory, hdir]
  · simp only [ensureDirectory, String.isEmpty_iff, hdir, if_false, checkPath_of_join h hdir hcheck]
    exact makeDirectories_of_directory hdirectory _

/-- Files are finished in the directory that they go to. -/
lemma eq_stagingPlace_concat {p : Place} (hp : d.locate (Path.join dir name) = .ok p) :
    p = d.stagingPlace dir ++ [name] := by
  obtain ⟨hcheck, q, hdirectory, -, rfl⟩ := (locate_join_eq_ok_iff h).mp hp
  obtain ⟨hwalk, hget⟩ := walkToDirectory_eq_ok_iff.mp hdirectory
  rw [stagingPlace]
  by_cases hdir : dir = ""
  · subst hdir
    have hlocate : d.locate "" = .error .notFound := rfl
    have hstart : d.walk (d.startOf "") (Path.steps "") = d.walk d.current [""] := rfl
    rw [hstart, walk] at hwalk
    split at hwalk
    · cases hwalk
    · cases hwalk
    · cases hwalk
      rw [hlocate]
  · rw [locate_eq_ok_iff.mpr ⟨checkPath_of_join h hdir hcheck, hwalk⟩]

lemma directoryAt_of_locate {p : Place} (hp : d.locate (Path.join dir name) = .ok p) :
    d.directoryAt dir = .ok (d.stagingPlace dir) := by
  have hstaging := eq_stagingPlace_concat h hp
  obtain ⟨-, q, hdirectory, -, rfl⟩ := (locate_join_eq_ok_iff h).mp hp
  rw [hdirectory, List.append_cancel_right hstaging]

end

end Disk

end EnumForge
