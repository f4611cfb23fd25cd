import EnumForge.Proofs.Publishing

/-!
Publishing with the unfinished files entered in the tree: each is written under a temporary name in
the directory that it goes to, and renamed when both are finished. Temporary files with names that
are free there leave no trace, whether publishing succeeds or not: all comes out as if the contents
had been moved from nowhere.
-/

namespace EnumForge

open Text (Bytes)

namespace Disk

variable {d d' : Disk}

/-! ### Removing -/

/-- The tree without what is at a place. -/
def remove (d : Disk) (p : Place) : Disk := { d with entries := d.entries.filter (·.1 != p) }

lemma get?_remove_of_ne (d : Disk) {p q : Place} (h : q ≠ p) : (d.remove p).get? q = d.get? q := by
  rw [← get?_set_of_ne d .directory h]
  have hb : (q == p) = false := by simpa using h
  simp [get?, set, remove, List.lookup_cons, hb]

lemma get?_remove_self (d : Disk) {p : Place} (h : p ≠ []) : (d.remove p).get? p = none := by
  simp only [get?, remove, List.isEmpty_iff, h, if_false, List.lookup_eq_none_iff]
  intro entry hentry
  exact bne_iff_ne.mpr (bne_iff_ne.mp (List.mem_filter.mp hentry).2).symm

/-- What is put to a free place can be taken away again. -/
lemma remove_set_self (d : Disk) {p : Place} (h : d.get? p = none) (e : Entry) :
    (d.set p e).remove p = d := by
  have hfree (entry : Place × Entry) (hentry : entry ∈ d.entries) : entry.1 ≠ p := by
    unfold get? at h
    split at h
    · cases h
    · exact (bne_iff_ne.mp (List.lookup_eq_none_iff.mp h entry hentry)).symm
  have hfilter : d.entries.filter (·.1 != p) = d.entries :=
    List.filter_eq_self.mpr fun entry hentry => by simpa using hfree entry hentry
  simp [remove, set, hfilter]

lemma remove_set_of_ne (d : Disk) {p q : Place} (h : p ≠ q) (e : Entry) :
    (d.set p e).remove q = (d.remove q).set p e := by
  simp [set, remove, h, Bool.and_comm]

lemma remove_remove_comm (d : Disk) (p q : Place) :
    (d.remove p).remove q = (d.remove q).remove p := by
  simp [remove, Bool.and_comm]

lemma KeepsDirectories.remove {p : Place} (h : d.get? p ≠ some .directory) :
    KeepsDirectories d (d.remove p) := by
  refine ⟨rfl, fun q hq => ?_⟩
  have hne : q ≠ p := fun heq => h (heq ▸ hq)
  rw [get?_remove_of_ne d hne, hq]

lemma KeepsDirectories.directoryAt (h : KeepsDirectories d d') {dir : String} {s : Place}
    (hs : d.directoryAt dir = .ok s) : d'.directoryAt dir = .ok s := by
  rw [Disk.directoryAt, startOf, h.current]
  exact h.walkToDirectory hs

/-! ### Staging in the tree -/

/-- Moves the file at a place to a path. -/
def rename (d : Disk) (p : Place) (path : String) : Except FileError Disk :=
  match d.get? p with
  | some (.file content) => (d.remove p).moveIntoPlace p.dropLast path content
  | _ => .error .notFound

/-- Enters the content of a staged file, if there is any, at a place of its own. -/
def enterAt (d : Disk) (p : Place) (file : Staged) : Disk :=
  match file.content with
  | none => d
  | some content => d.set p (.file content)

/-- Gives up a file that was staged at a place. -/
def discard (d : Disk) (p : Place) (file : Staged) : Disk :=
  match file.content with
  | none => d
  | some _ => d.remove p

/-- Renames a file that was staged at a place; if that fails it is given up. -/
def settleFrom (d : Disk) (p : Place) (file : Staged) :
    Except PublishError (String × Outcome) × Disk :=
  match file.content with
  | none => (.ok (file.path, .unchanged), d)
  | some _ =>
    match d.rename p file.path with
    | .ok d => (.ok (file.path, .written), d)
    | .error e => (.error (.move file.path e), d.remove p)

/-- Writes a pair of files by way of temporary files with the given names. -/
def publishThrough (d : Disk) (dir : String) (pair : FilePair) (forHeader forSource : String) :
    Except PublishError (List (String × Outcome)) × Disk :=
  match d.ensureDirectory dir with
  | (.error e, d) => (.error (.directory dir e), d)
  | (.ok (), d) =>
    let first := d.stagingPlace dir ++ [forHeader]
    let second := d.stagingPlace dir ++ [forSource]
    match d.stage dir pair.headerPath pair.header with
    | .error e => (.error e, d)
    | .ok header =>
      let d := d.enterAt first header
      match d.stage dir pair.sourcePath pair.source with
      | .error e => (.error e, d.discard first header)
      | .ok source =>
        let d := d.enterAt second source
        match d.settleFrom first header with
        | (.error e, d) => (.error e, d.discard second source)
        | (.ok h, d) =>
          match d.settleFrom second source with
          | (.error e, d) => (.error e, d)
          | (.ok s, d) => (.ok [h, s], d)

/-! ### A file beside -/

/-- A tree that has a file at a place if there is a content, and is another one apart from that. -/
inductive Beside (d : Disk) (p : Place) : Option Bytes → Disk → Prop
  | nothing : Beside d p none d
  | file {x : Disk} {content : Bytes} (hget : x.get? p = some (.file content))
    (hrest : x.remove p = d) : Beside d p (some content) x

namespace Beside

variable {x : Disk} {p q : Place} {content : Option Bytes}

lemma get?_of_ne (h : Beside d p content x) (hq : q ≠ p) : x.get? q = d.get? q := by
  cases h with
  | nothing => rfl
  | file hget hrest => rw [← hrest, get?_remove_of_ne x hq]

lemma keepsDirectories (h : Beside d p content x) : KeepsDirectories d x := by
  cases h with
  | nothing => exact .refl d
  | file hget hrest =>
    subst hrest
    refine ⟨rfl, fun q hq => ?_⟩
    have hroot : p ≠ [] := by
      rintro rfl
      cases hget
    have hne : q ≠ p := by
      rintro rfl
      rw [get?_remove_self x hroot] at hq
      cases hq
    rwa [get?_remove_of_ne x hne] at hq

lemma enterAt (h : d.get? p = none) (file : Staged) :
    Beside d p file.content (d.enterAt p file) := by
  have hroot : p ≠ [] := by
    rintro rfl
    cases h
  unfold Disk.enterAt
  cases file.content with
  | none => exact .nothing
  | some content => exact .file (get?_set_self d _ hroot) (remove_set_self d h _)

/-- A file that was staged beside is settled as one that comes from nowhere. -/
lemma settleFrom_self {file : Staged} (h : Beside d p file.content x) :
    x.settleFrom p file = d.settle p.dropLast file := by
  unfold settleFrom settle
  generalize hcontent : file.content = content at h
  cases h with
  | nothing => rfl
  | @file _ written hget hrest =>
    cases hmove : d.moveIntoPlace p.dropLast file.path written with
    | error e => simp only [Disk.rename, hget, hrest, hmove]
    | ok moved => simp only [Disk.rename, hget, hrest, hmove]

lemma discard {file : Staged} (h : Beside d p file.content x) : x.discard p file = d := by
  unfold Disk.discard
  generalize hcontent : file.content = content at h
  cases h with
  | nothing => rfl
  | file hget hrest => exact hrest

lemma remove (h : Beside d p content x) (hq : q ≠ p) :
    Beside (d.remove q) p content (x.remove q) := by
  cases h with
  | nothing => exact .nothing
  | file hget hrest =>
    subst hrest
    exact .file (by rwa [get?_remove_of_ne x hq.symm]) (remove_remove_comm x q p)

lemma set (h : Beside d p content x) (hq : q ≠ p) (e : Entry) :
    Beside (d.set q e) p content (x.set q e) := by
  cases h with
  | nothing => exact .nothing
  | file hget hrest =>
    subst hrest
    exact .file (by rwa [get?_set_of_ne x e hq.symm]) (remove_set_of_ne x hq e)

section

variable {dir name : String} (hname : Path.IsName name) {s : Place}

include hname

/-- A file beside makes no difference to moving another one. -/
lemma moveIntoPlace (h : Beside d p content x) (hdir : d.directoryAt dir = .ok s)
    (hne : s ++ [name] ≠ p) (staging : Place) (text : Bytes) :
    (∃ e, d.moveIntoPlace staging (Path.join dir name) text = .error e ∧
        x.moveIntoPlace staging (Path.join dir name) text = .error e) ∨
      ∃ y y', d.moveIntoPlace staging (Path.join dir name) text = .ok y ∧
        x.moveIntoPlace staging (Path.join dir name) text = .ok y' ∧ Beside y p content y' := by
  obtain ⟨trunk, hsteps, htrunk⟩ := exists_trunk_join hname d dir
  have hwalk := (htrunk s).mpr hdir
  have hwalk' : x.walkToDirectory (x.startOf (Path.join dir name)) trunk = .ok s := by
    rw [startOf, h.keepsDirectories.current, ← startOf]
    exact h.keepsDirectories.walkToDirectory hwalk
  simp only [moveIntoPlace_of_steps hname hsteps, hwalk, hwalk']
  cases checkPath .invalidArgument (Path.join dir name) with
  | error e => exact .inl ⟨e, rfl, rfl⟩
  | ok =>
    simp only [bind, Except.bind, moveInto, h.get?_of_ne hne]
    split
    · exact .inl ⟨_, rfl, rfl⟩
    · split
      · exact .inl ⟨_, rfl, rfl⟩
      · split
        · exact .inl ⟨_, rfl, rfl⟩
        · exact .inr ⟨_, _, rfl, rfl, h.set hne _⟩

/-- A file beside makes no difference to renaming another one. -/
lemma rename (h : Beside d p content x) (hdir : d.directoryAt dir = .ok s)
    (hne : s ++ [name] ≠ p) (hq : q ≠ p) :
    (∃ e, d.rename q (Path.join dir name) = .error e ∧
        x.rename q (Path.join dir name) = .error e) ∨
      ∃ y y', d.rename q (Path.join dir name) = .ok y ∧
        x.rename q (Path.join dir name) = .ok y' ∧ Beside y p content y' := by
  unfold Disk.rename
  rw [h.get?_of_ne hq]
  cases hget : d.get? q with
  | none => exact .inl ⟨_, rfl, rfl⟩
  | some entry =>
    cases entry with
    | directory => exact .inl ⟨_, rfl, rfl⟩
    | file written =>
      have hkeeps : KeepsDirectories d (d.remove q) := .remove (by simp [hget])
      exact (h.remove hq).moveIntoPlace hname (hkeeps.directoryAt hdir) hne q.dropLast written

lemma settleFrom (h : Beside d p content x) (hdir : d.directoryAt dir = .ok s)
    (hne : s ++ [name] ≠ p) (hq : q ≠ p) {file : Staged} (hfile : file.path = Path.join dir name) :
    ∃ r y y', d.settleFrom q file = (r, y) ∧ x.settleFrom q file = (r, y') ∧
      Beside y p content y' := by
  unfold Disk.settleFrom
  rw [hfile]
  cases file.content with
  | none => exact ⟨_, _, _, rfl, rfl, h⟩
  | some _ =>
    obtain ⟨e, he, he'⟩ | ⟨y, y', hy, hy', hbeside⟩ := h.rename hname hdir hne hq
    · rw [he, he']
      exact ⟨_, _, _, rfl, rfl, h.remove hq⟩
    · rw [hy, hy']
      exact ⟨_, _, _, rfl, rfl, hbeside⟩

/-- A file beside makes no difference to what is staged. -/
lemma stage (h : Beside d p content x) (hdir : d.directoryAt dir = .ok s)
    (hne : s ++ [name] ≠ p) (text : String) :
    x.stage dir name text = d.stage dir name text := by
  have hdir' := h.keepsDirectories.directoryAt hdir
  have hread (c : Bytes) :
      x.read (Path.join dir name) = .ok c ↔ d.read (Path.join dir name) = .ok c := by
    simp only [read_eq_ok_iff, locate_join_eq_ok_iff hname, hdir, hdir', Except.ok.injEq]
    constructor
    · rintro ⟨_, ⟨hcheck, _, rfl, hlength, rfl⟩, hget⟩
      exact ⟨_, ⟨hcheck, _, rfl, hlength, rfl⟩, by rwa [← h.get?_of_ne hne]⟩
    · rintro ⟨_, ⟨hcheck, _, rfl, hlength, rfl⟩, hget⟩
      exact ⟨_, ⟨hcheck, _, rfl, hlength, rfl⟩, by rwa [h.get?_of_ne hne]⟩
  simp only [Disk.stage, draft, toOption_eq_some_iff, hread,
    room_eq_of_current_eq h.keepsDirectories.current]

end

end Beside

/-! ### Free names -/

/-- Two different names that nothing in a directory has, and no file of a pair will have. -/
structure FreeNames (d : Disk) (dir : String) (pair : FilePair) (forHeader forSource : String) :
    Prop where
  free : ∀ name ∈ [forHeader, forSource], d.get? (d.stagingPlace dir ++ [name]) = none
  apart : ∀ name ∈ [forHeader, forSource], pair.headerPath ≠ name ∧ pair.sourcePath ≠ name
  distinct : forHeader ≠ forSource

section

variable {dir : String} {pair : FilePair} {forHeader forSource : String}
  (hheader : Path.IsName pair.headerPath) (hsource : Path.IsName pair.sourcePath)
  (hfree : (d.ensureDirectory dir).2.FreeNames dir pair forHeader forSource)

include hheader hsource hfree

lemma publishThrough_of_directoryAt
    (h : ∀ d₁, d.ensureDirectory dir = (.ok (), d₁) →
      d₁.directoryAt dir = .ok (d₁.stagingPlace dir)) :
    d.publishThrough dir pair forHeader forSource = d.publish dir pair := by
  rcases hensure : d.ensureDirectory dir with ⟨_ | _, d₁⟩
  · simp only [publishThrough, publish, hensure]
  · have hdir := h d₁ hensure
    rw [hensure] at hfree
    obtain ⟨hfree, hapart, hdistinct⟩ := hfree
    generalize hs : d₁.stagingPlace dir = s at hdir
    simp only [hs] at hfree
    have hheaderNe := (hapart forSource (by simp)).1
    have hsourceNe := (hapart forHeader (by simp)).2
    have hne {name free : String} (h : name ≠ free) : s ++ [name] ≠ s ++ [free] := by simpa
    simp only [publishThrough, publish, hensure, hs, stagePair]
    cases hstage : d₁.stage dir pair.headerPath pair.header with
    | error e => rfl
    | ok header =>
      -- the header is entered in the tree, and then the source beside it
      have hbeside := Beside.enterAt (hfree forHeader (by simp)) header
      have hfreeSource : (d₁.enterAt (s ++ [forHeader]) header).get? (s ++ [forSource]) = none := by
        rw [hbeside.get?_of_ne (hne hdistinct.symm), hfree forSource (by simp)]
      simp only [hbeside.stage hsource hdir (hne hsourceNe)]
      cases hstage' : d₁.stage dir pair.sourcePath pair.source with
      | error e => simp [hbeside.discard, bind, Except.bind]
      | ok source =>
        have hbeside' := Beside.enterAt hfreeSource source
        -- with the source beside, the header is settled as without; the source is left beside
        obtain ⟨r, y, y', hsettle, hsettle', hleft⟩ := hbeside'.settleFrom hheader
          (hbeside.keepsDirectories.directoryAt hdir) (hne hheaderNe) (hne hdistinct)
          (path_of_stage hstage)
        rw [hbeside.settleFrom_self, List.dropLast_concat] at hsettle
        simp only [hsettle, hsettle', bind, Except.bind, pure, Except.pure]
        cases r with
        | error e => simp only [hleft.discard]
        | ok done =>
          rcases hlast : y.settle s source with ⟨_ | _, z⟩
          · simp only [hleft.settleFrom_self, List.dropLast_concat, hlast]
          · simp only [hleft.settleFrom_self, List.dropLast_concat, hlast]

/-- **Temporary files leave no trace**: with free names for them, publishing gives the same result
and the same tree whether the unfinished files are entered or not, also when it fails. -/
theorem publishThrough_eq_publish (hcurrent : d.get? d.current = some .directory) :
    d.publishThrough dir pair forHeader forSource = d.publish dir pair :=
  publishThrough_of_directoryAt hheader hsource hfree fun _ hensure =>
    directoryAt_of_ensureDirectory hcurrent hensure

end

end Disk

end EnumForge
