import Mathlib.Data.List.Basic
import Mathlib.Tactic.Lemma
import EnumForge.Disk

/-!
Where paths lead on a disk. Steps are followed one after another, so what a path leads to depends on
the directories on its way only, and a path to a name in a directory leads to the place of the
directory and then down to the name.
-/

namespace EnumForge

open Text (Bytes)

namespace Path

/-! ### Names in a directory -/

/-- A step that leads down. -/
structure IsStepDown (s : String) : Prop where
  ne_empty : s ≠ ""
  ne_here : s ≠ "."
  ne_up : s ≠ ".."

/-- A path of one step that leads down. -/
structure IsName (s : String) : Prop extends IsStepDown s where
  noSlash : '/' ∉ s.toList

variable {name : String}

lemma isAbsolute_of_noSlash (h : '/' ∉ name.toList) : isAbsolute name = false := by
  rw [isAbsolute, beq_eq_false_iff_ne]
  exact fun hhead => h (List.mem_of_head? hhead)

/-- The path to a name in a directory has the steps to the directory and then the name. An empty
step at the end of the former is left out. -/
lemma exists_steps_join (dir : String) (h : IsName name) :
    ∃ trunk, steps (join dir name) = trunk ++ [name] ∧
      (steps dir = trunk ∨ steps dir = trunk ++ [""]) := by
  have hsingle : name.toList.splitOn '/' = [name.toList] := List.splitOn_eq_singleton h.noSlash
  have hrelative := isAbsolute_of_noSlash h.noSlash
  by_cases hempty : dir = ""
  · refine ⟨[], ?_, .inr ?_⟩
    · simp [steps, join, hempty, hsingle]
    · simp [steps, hempty]
  by_cases hslash : dir.toList.getLast? = some '/'
  · obtain ⟨front, hfront⟩ := List.getLast?_eq_some_iff.mp hslash
    refine ⟨(front.splitOn '/').map .ofList, ?_, .inr ?_⟩
    · simp [steps, join, hempty, hrelative, hfront, List.splitOn_append_cons_self, hsingle]
    · simp [steps, hfront, List.splitOn_append_cons_self]
  · refine ⟨steps dir, ?_, .inl rfl⟩
    simp [steps, join, hempty, hrelative, hslash, List.splitOn_append_cons_self, hsingle]

lemma exists_join_eq_append {dir : String} (hdir : dir ≠ "") (h : IsName name) :
    ∃ rest, join dir name = dir ++ rest := by
  have hrelative := isAbsolute_of_noSlash h.noSlash
  simp only [join, hrelative, Bool.false_or, String.isEmpty_iff, hdir, if_false]
  split
  · exact ⟨name, rfl⟩
  · exact ⟨"/" ++ name, by rw [String.append_assoc]⟩

lemma isAbsolute_join (dir : String) (h : IsName name) :
    isAbsolute (join dir name) = isAbsolute dir := by
  by_cases hdir : dir = ""
  · have hrelative := isAbsolute_of_noSlash h.noSlash
    rw [join, hrelative, hdir]
    exact hrelative
  · obtain ⟨rest, hjoin⟩ := exists_join_eq_append hdir h
    rw [hjoin, isAbsolute, String.toList_append, List.head?_append_of_ne_nil, isAbsolute]
    simpa using hdir

lemma join_injective {other : String} {dir : String} (h : IsName name) (hother : IsName other)
    (heq : join dir name = join dir other) : name = other := by
  obtain ⟨trunk, hsteps, -⟩ := exists_steps_join dir h
  obtain ⟨trunk', hsteps', -⟩ := exists_steps_join dir hother
  rw [heq, hsteps'] at hsteps
  simpa using (List.append_inj' hsteps rfl).2.symm

end Path

namespace Disk

variable {d d' : Disk}

/-! ### Following steps -/

lemma walk_append (d : Disk) (p : Place) (first second : List String) :
    d.walk p (first ++ second) = d.walk p first >>= fun q => d.walk q second := by
  induction first generalizing p with
  | nil => rfl
  | cons step rest ih =>
    simp only [List.cons_append, walk]
    split
    · rfl
    · rfl
    · split
      · exact ih p
      · split
        · exact ih p.dropLast
        · split
          · rfl
          · exact ih (p ++ [step])

lemma walkToDirectory_eq_ok_iff {p q : Place} {steps : List String} :
    d.walkToDirectory p steps = .ok q ↔ d.walk p steps = .ok q ∧ d.get? q = some .directory := by
  unfold walkToDirectory
  cases d.walk p steps with
  | error e => simp [bind, Except.bind]
  | ok r =>
    simp only [bind, Except.bind, Except.ok.injEq]
    constructor
    · intro h
      split at h
      · cases h
      · cases h
      · next hr =>
        cases h
        exact ⟨rfl, hr⟩
    · rintro ⟨rfl, hr⟩
      rw [hr]

/-- One more step is taken from a directory. -/
lemma walk_concat_eq_ok_iff {p r : Place} {steps : List String} {step : String} :
    d.walk p (steps ++ [step]) = .ok r ↔
      ∃ q, d.walkToDirectory p steps = .ok q ∧ d.walk q [step] = .ok r := by
  simp only [walkToDirectory_eq_ok_iff, walk_append]
  cases d.walk p steps with
  | error e => simp [bind, Except.bind]
  | ok q =>
    simp only [bind, Except.bind, Except.ok.injEq]
    constructor
    · intro h
      refine ⟨q, ⟨rfl, ?_⟩, h⟩
      unfold walk at h
      split at h
      · cases h
      · cases h
      · assumption
    · rintro ⟨_, ⟨rfl, -⟩, h⟩
      exact h

lemma walk_stepDown_eq_ok_iff {q r : Place} {name : String} (h : Path.IsStepDown name)
    (hq : d.get? q = some .directory) :
    d.walk q [name] = .ok r ↔ (Text.bytes name).length ≤ longestName ∧ r = q ++ [name] := by
  unfold walk
  rw [hq]
  simp only [h.ne_empty, h.ne_here, h.ne_up, decide_false, Bool.or_self, Bool.false_eq_true,
    if_false]
  split
  · next hlong => simp [Nat.not_le.mpr hlong]
  · next hshort => simp [walk, Nat.not_lt.mp hshort, eq_comm]

lemma walkToDirectory_concat_empty {p q : Place} {steps : List String} :
    d.walkToDirectory p (steps ++ [""]) = .ok q ↔ d.walkToDirectory p steps = .ok q := by
  rw [walkToDirectory_eq_ok_iff, walk_concat_eq_ok_iff]
  constructor
  · rintro ⟨⟨r, hr, hwalk⟩, -⟩
    have hdir := (walkToDirectory_eq_ok_iff.mp hr).2
    rw [walk, hdir] at hwalk
    cases hwalk
    exact hr
  · intro hq
    have hdir := (walkToDirectory_eq_ok_iff.mp hq).2
    refine ⟨⟨q, hq, ?_⟩, hdir⟩
    rw [walk, hdir]
    rfl

/-! ### Paths -/

/-- The directory that a path leads to; the empty path leads to the current one. -/
def directoryAt (d : Disk) (dir : String) : Except FileError Place :=
  d.walkToDirectory (d.startOf dir) (Path.steps dir)

lemma checkPath_eq_ok_iff {nul : FileError} {path : String} :
    checkPath nul path = .ok () ↔
      path ≠ "" ∧ '\x00' ∉ path.toList ∧ (Text.bytes path).length ≤ longestPath := by
  unfold checkPath
  split
  · next hempty => simp [String.isEmpty_iff.mp hempty]
  · next hempty =>
    rw [String.isEmpty_iff] at hempty
    split
    · next hnul => simpa [hempty] using fun h => absurd hnul (by simpa using h)
    · next hnul =>
      rw [List.contains_iff_mem] at hnul
      split
      · next hlong => simp [hlong]
      · next hshort => simp [hempty, hnul, Nat.not_lt.mp hshort]

lemma locate_eq_ok_iff {path : String} {p : Place} :
    d.locate path = .ok p ↔ checkPath .nulInPath path = .ok () ∧
      d.walk (d.startOf path) (Path.steps path) = .ok p := by
  unfold locate
  cases checkPath .nulInPath path with
  | error e => simp [bind, Except.bind]
  | ok u => simp [bind, Except.bind]

/-- A path whose last step leads down leads to the directory before and then down. -/
lemma locate_eq_ok_iff_of_steps {path name : String} {trunk : List String} {p : Place}
    (hname : Path.IsStepDown name) (hsteps : Path.steps path = trunk ++ [name]) :
    d.locate path = .ok p ↔ checkPath .nulInPath path = .ok () ∧
      ∃ q, d.walkToDirectory (d.startOf path) trunk = .ok q ∧
        (Text.bytes name).length ≤ longestName ∧ p = q ++ [name] := by
  rw [locate_eq_ok_iff, hsteps, walk_concat_eq_ok_iff]
  refine and_congr_right fun _ => exists_congr fun q => and_congr_right fun hq => ?_
  exact walk_stepDown_eq_ok_iff hname (walkToDirectory_eq_ok_iff.mp hq).2

section

variable {dir name : String} (h : Path.IsName name)

include h

/-- The steps to a name lead to the directory before the last of them. -/
lemma exists_trunk_join (d : Disk) (dir : String) :
    ∃ trunk, Path.steps (Path.join dir name) = trunk ++ [name] ∧
      ∀ q, d.walkToDirectory (d.startOf (Path.join dir name)) trunk = .ok q ↔
        d.directoryAt dir = .ok q := by
  obtain ⟨trunk, hsteps, htrunk⟩ := Path.exists_steps_join dir h
  refine ⟨trunk, hsteps, fun q => ?_⟩
  rw [startOf, Path.isAbsolute_join dir h, ← startOf]
  rcases htrunk with htrunk | htrunk
  · rw [directoryAt, htrunk]
  · rw [directoryAt, htrunk, walkToDirectory_concat_empty]

/-- A path to a name leads to the directory and then down to the name. -/
theorem locate_join_eq_ok_iff {p : Place} :
    d.locate (Path.join dir name) = .ok p ↔
      checkPath .nulInPath (Path.join dir name) = .ok () ∧
      ∃ q, d.directoryAt dir = .ok q ∧
        (Text.bytes name).length ≤ longestName ∧ p = q ++ [name] := by
  obtain ⟨trunk, hsteps, hdirectory⟩ := exists_trunk_join h d dir
  simp only [locate_eq_ok_iff_of_steps h.toIsStepDown hsteps, hdirectory]

/-- Different names in one directory are at different places. -/
lemma name_eq_of_locate {other : String} (hother : Path.IsName other) {p : Place}
    (hp : d.locate (Path.join dir name) = .ok p) (hp' : d.locate (Path.join dir other) = .ok p) :
    name = other := by
  obtain ⟨-, q, -, -, rfl⟩ := (locate_join_eq_ok_iff h).mp hp
  obtain ⟨-, q', -, -, heq⟩ := (locate_join_eq_ok_iff hother).mp hp'
  simpa using (List.append_inj' heq rfl).2

lemma ne_nil_of_locate {p : Place} (hp : d.locate (Path.join dir name) = .ok p) : p ≠ [] := by
  obtain ⟨-, q, -, -, rfl⟩ := (locate_join_eq_ok_iff h).mp hp
  simp

end

lemma read_eq_ok_iff {path : String} {content : Bytes} :
    d.read path = .ok content ↔
      ∃ p, d.locate path = .ok p ∧ d.get? p = some (.file content) := by
  unfold read entryAt
  cases d.locate path with
  | error e => simp [bind, Except.bind]
  | ok p =>
    simp only [bind, Except.bind, Except.ok.injEq, exists_eq_left']
    cases hp : d.get? p with
    | none => simp
    | some entry =>
      cases entry with
      | directory => simp
      | file c => simp

/-! ### Directories that stay -/

/-- Every directory is still there, the current one too. -/
structure KeepsDirectories (d d' : Disk) : Prop where
  current : d'.current = d.current
  directory : ∀ p, d.get? p = some .directory → d'.get? p = some .directory

namespace KeepsDirectories

lemma refl (d : Disk) : KeepsDirectories d d := ⟨rfl, fun _ hp => hp⟩

lemma trans {d'' : Disk} (h : KeepsDirectories d d') (h' : KeepsDirectories d' d'') :
    KeepsDirectories d d'' :=
  ⟨h'.current.trans h.current, fun p hp => h'.directory p (h.directory p hp)⟩

/-- A place that is no directory may be filled. -/
lemma set {p : Place} (hp : d.get? p ≠ some .directory) (e : Entry) :
    KeepsDirectories d (d.set p e) := by
  refine ⟨rfl, fun q hq => ?_⟩
  have hne : q ≠ p := fun heq => hp (heq ▸ hq)
  rw [get?_set_of_ne d e hne, hq]

variable (h : KeepsDirectories d d')

include h

lemma walk {p q : Place} {steps : List String} (hq : d.walk p steps = .ok q) :
    d'.walk p steps = .ok q := by
  fun_induction Disk.walk d p steps with
  | case1 p => exact hq
  | case2 p step rest hnone => cases hq
  | case3 p step rest content hfile => cases hq
  | case4 p step rest hdir hhere ih =>
    rw [Disk.walk, h.directory p hdir]
    simp only [hhere, if_true]
    exact ih hq
  | case5 p rest hdir hhere ih =>
    rw [Disk.walk, h.directory p hdir]
    simp only [hhere, if_true]
    exact ih hq
  | case6 p step rest hdir hhere hup hlong => cases hq
  | case7 p step rest hdir hhere hup hlong ih =>
    rw [Disk.walk, h.directory p hdir]
    simp only [hhere, hup, hlong, if_false]
    exact ih hq

lemma walkToDirectory {p q : Place} {steps : List String}
    (hq : d.walkToDirectory p steps = .ok q) : d'.walkToDirectory p steps = .ok q := by
  obtain ⟨hwalk, hdirectory⟩ := walkToDirectory_eq_ok_iff.mp hq
  exact walkToDirectory_eq_ok_iff.mpr ⟨h.walk hwalk, h.directory q hdirectory⟩

lemma locate {path : String} {p : Place} (hp : d.locate path = .ok p) :
    d'.locate path = .ok p := by
  obtain ⟨hcheck, hwalk⟩ := locate_eq_ok_iff.mp hp
  refine locate_eq_ok_iff.mpr ⟨hcheck, ?_⟩
  rw [startOf, h.current]
  exact h.walk hwalk

end KeepsDirectories

/-- The directories of both are the same. -/
structure SameDirectories (d d' : Disk) : Prop where
  kept : KeepsDirectories d d'
  made : KeepsDirectories d' d

namespace SameDirectories

lemma refl (d : Disk) : SameDirectories d d := ⟨.refl d, .refl d⟩

lemma trans {d'' : Disk} (h : SameDirectories d d') (h' : SameDirectories d' d'') :
    SameDirectories d d'' :=
  ⟨h.kept.trans h'.kept, h'.made.trans h.made⟩

/-- A file at a place that is no directory makes no difference. -/
lemma putFile {p : Place} (hroot : p ≠ []) (hfile : d.get? p ≠ some .directory) (content : Bytes) :
    SameDirectories d (d.set p (.file content)) := by
  refine ⟨.set hfile _, rfl, fun q hq => ?_⟩
  have hne : q ≠ p := by
    rintro rfl
    rw [get?_set_self d _ hroot] at hq
    cases hq
  rwa [get?_set_of_ne d _ hne] at hq

/-- A path that leads to no directory still does. -/
lemma leadsToFile (h : SameDirectories d d') {path : String}
    (hpath : ∃ p, d.locate path = .ok p ∧ d.get? p ≠ some .directory) :
    ∃ p, d'.locate path = .ok p ∧ d'.get? p ≠ some .directory := by
  obtain ⟨p, hp, hfile⟩ := hpath
  exact ⟨p, h.kept.locate hp, mt (h.made.directory p) hfile⟩

end SameDirectories

end Disk

end EnumForge
