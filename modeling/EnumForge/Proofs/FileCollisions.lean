import EnumForge.Proofs.OutputPaths

/-!
Which collision of files is reported. The table of owners holds the files of all definitions so far,
each with the one that writes it, so the first definition that shares a file is found, at its header
if that is shared and else at its source, and the file has only one owner in front of it.
-/

namespace EnumForge

/-- The files of a definition, be they two or one. -/
def Definition.fileSet (d : Definition) (x : Extensions) : Finset String :=
  {x.headerFile d.fileStem, x.sourceFile d.fileStem}

namespace Batch

lemma mem_filesOf_iff {x : Extensions} {d : Definition} {path : String} :
    path ∈ filesOf x d ↔ path ∈ d.fileSet x := by
  rw [filesOf, Definition.fileSet, Finset.mem_insert, Finset.mem_singleton]
  split
  · next heq => rw [List.mem_singleton, heq, or_self]
  · rw [List.mem_cons, List.mem_singleton]

lemma disjoint_filesOf_iff {x : Extensions} {c d : Definition} :
    (filesOf x c).Disjoint (filesOf x d) ↔ Disjoint (c.fileSet x) (d.fileSet x) := by
  simp only [List.disjoint_left, Finset.disjoint_left, mem_filesOf_iff]

/-! ### The table of owners -/

/-- The files of the definitions, each with the name of the one that writes it. -/
def owned (x : Extensions) (b : Batch) : List (String × String) :=
  b.flatMap fun d => (filesOf x d).map (·, d.name)

lemma map_fst_owned (x : Extensions) (b : Batch) :
    (owned x b).map Prod.fst = b.flatMap (filesOf x) := by
  simp [owned, List.map_flatMap, Function.comp_def]

lemma mem_owned_iff {x : Extensions} {b : Batch} {path name : String} :
    (path, name) ∈ owned x b ↔ ∃ d ∈ b, path ∈ d.fileSet x ∧ d.name = name := by
  simp [owned, mem_filesOf_iff]

/-- Where no file has two owners, the table tells the one that it has. -/
lemma lookup_eq_some_iff_mem {owners : List (String × String)} (h : (owners.map Prod.fst).Nodup)
    {path name : String} : owners.lookup path = some name ↔ (path, name) ∈ owners := by
  rw [List.lookup_eq_some_iff]
  constructor
  · rintro ⟨before, after, rfl, -⟩
    exact List.mem_append_right _ List.mem_cons_self
  · intro hmem
    obtain ⟨before, after, rfl⟩ := List.append_of_mem hmem
    refine ⟨before, after, rfl, fun owner howner => bne_iff_ne.mpr ?_⟩
    rintro rfl
    rw [List.map_append, List.nodup_append] at h
    exact h.2.2 _ (List.mem_map_of_mem howner) _ (List.mem_map_of_mem List.mem_cons_self) rfl

/-- A collision is reported at the first file that has an owner. -/
lemma claimFiles_eq_error_iff {name : String} {owners : List (String × String)}
    {files : List String} (hfiles : files.Nodup) {e : BatchError} :
    claimFiles name owners files = .error e ↔ ∃ path first,
      files.find? (fun path => (owners.lookup path).isSome) = some path ∧
      owners.lookup path = some first ∧ e = .collision path first name := by
  induction files generalizing owners with
  | nil => simp [claimFiles]
  | cons path rest ih =>
    obtain ⟨hpath, hrest⟩ := List.nodup_cons.mp hfiles
    rw [claimFiles]
    cases hfirst : owners.lookup path with
    | some first =>
      rw [List.find?_cons_of_pos (by simp [hfirst])]
      simp [hfirst, eq_comm]
    | none =>
      have hlookup : ∀ p ∈ rest, ((path, name) :: owners).lookup p = owners.lookup p := by
        intro p hp
        have hne : (p == path) = false := beq_false_of_ne fun heq => hpath (heq ▸ hp)
        rw [List.lookup_cons, hne]
      have hfind : rest.find? (fun p => (((path, name) :: owners).lookup p).isSome) =
          rest.find? fun p => (owners.lookup p).isSome :=
        List.find?_congr fun p hp => by rw [hlookup p hp]
      simp only
      rw [ih hrest, hfind, List.find?_cons_of_neg (by simp [hfirst])]
      refine exists_congr fun p => exists_congr fun first => and_congr_right fun hp => ?_
      rw [hlookup p (List.mem_of_find?_eq_some hp)]

/-- The definitions in front of the first collision pass, and their files are in the table. -/
lemma checkFilesFrom_eq_error_iff {x : Extensions} {owners : List (String × String)} {b : Batch}
    {e : BatchError} :
    checkFilesFrom x owners b = .error e ↔ ∃ j : Fin b.length,
      checkFilesFrom x owners (b.take j) = .ok () ∧
      claimFiles (b.get j).name ((owned x (b.take j)).reverse ++ owners) (filesOf x (b.get j)) =
        .error e := by
  induction b generalizing owners with
  | nil => simp [checkFilesFrom]
  | cons d ds ih =>
    have howners (rows : List (String × String)) (front : Batch) :
        (owned x front).reverse ++ (((filesOf x d).map (·, d.name)).reverse ++ rows) =
          (owned x (d :: front)).reverse ++ rows := by
      simp [owned]
    rw [checkFilesFrom, bind_eq_error_iff]
    refine (or_congr ?_ ?_).trans Fin.exists_fin_succ.symm
    · simp [checkFilesFrom, owned]
    · simp only [ih, claimFiles_eq_ok_iff (nodup_filesOf x d)]
      constructor
      · rintro ⟨_, ⟨rfl, hfree⟩, j, hfront, hj⟩
        rw [howners] at hj
        refine ⟨j, bind_eq_ok.mpr ⟨_, ?_, hfront⟩, hj⟩
        exact (claimFiles_eq_ok_iff (nodup_filesOf x d)).mpr ⟨rfl, hfree⟩
      · rintro ⟨j, hfront, hj⟩
        obtain ⟨_, hclaim, hfront⟩ := bind_eq_ok.mp hfront
        obtain ⟨rfl, hfree⟩ := (claimFiles_eq_ok_iff (nodup_filesOf x d)).mp hclaim
        refine ⟨_, ⟨rfl, hfree⟩, j, hfront, ?_⟩
        rw [howners]
        exact hj

/-! ### The first collision -/

/-- Definition `j` is the first one that shares a file with one in front of it, and `path` is what it
shares with `i` alone: its header if that is shared, or else its source. -/
structure FirstCollision (b : Batch) (x : Extensions) (i j : Fin b.length) (path : String) :
    Prop where
  lt : i < j
  apart : ∀ k l, k < l → l < j → Disjoint ((b.get k).fileSet x) ((b.get l).fileSet x)
  owner : ∀ k, k < j → (path ∈ (b.get k).fileSet x ↔ k = i)
  header : (∃ k, k < j ∧ x.headerFile (b.get j).fileStem ∈ (b.get k).fileSet x) →
    path = x.headerFile (b.get j).fileStem
  source : (∀ k, k < j → x.headerFile (b.get j).fileStem ∉ (b.get k).fileSet x) →
    path = x.sourceFile (b.get j).fileStem

lemma find?_filesOf (x : Extensions) (d : Definition) (p : String → Bool) :
    (filesOf x d).find? p =
      if p (x.headerFile d.fileStem) then some (x.headerFile d.fileStem)
      else if p (x.sourceFile d.fileStem) then some (x.sourceFile d.fileStem)
      else none := by
  rw [filesOf]
  by_cases heq : x.headerFile d.fileStem = x.sourceFile d.fileStem
  · rw [if_pos heq, ← heq, List.find?_singleton]
    cases p (x.headerFile d.fileStem) <;> rfl
  · rw [if_neg heq, List.find?_cons, List.find?_singleton]
    cases p (x.headerFile d.fileStem) <;> rfl

section

variable {b : Batch} {x : Extensions} {j : Fin b.length}

lemma mem_take_iff {d : Definition} : d ∈ b.take j ↔ ∃ k, k < j ∧ b.get k = d := by
  rw [List.mem_take_iff_getElem]
  constructor
  · rintro ⟨k, hk, rfl⟩
    have hkj : k < j := by omega
    exact ⟨⟨k, by omega⟩, hkj, rfl⟩
  · rintro ⟨k, hk, rfl⟩
    exact ⟨k, by omega, rfl⟩

lemma pairwise_take_iff {R : Definition → Definition → Prop} :
    (b.take j).Pairwise R ↔ ∀ k l, k < l → l < j → R (b.get k) (b.get l) := by
  rw [List.pairwise_iff_getElem]
  simp only [List.length_take, List.getElem_take]
  constructor
  · exact fun h k l hkl hlj => h k l (by omega) (by omega) hkl
  · intro h k l hk hl hkl
    have hlj : l < j := by omega
    exact h ⟨k, by omega⟩ ⟨l, by omega⟩ hkl hlj

lemma checkFiles_eq_ok_iff_pairwise :
    b.checkFiles x = .ok () ↔ b.Pairwise fun c d => Disjoint (c.fileSet x) (d.fileSet x) := by
  rw [checkFiles_eq_ok_iff, List.nodup_flatMap, and_iff_right fun d _ => nodup_filesOf x d]
  exact iff_of_eq (congrArg (List.Pairwise · b) (funext₂ fun c d => propext disjoint_filesOf_iff))

/-- Where the definitions in front of `j` pass, each file in the table has one owner. -/
lemma lookup_owned_iff (h : (b.take j).Pairwise fun c d => Disjoint (c.fileSet x) (d.fileSet x))
    {path name : String} : ((owned x (b.take j)).reverse).lookup path = some name ↔
      ∃ k, k < j ∧ path ∈ (b.get k).fileSet x ∧ (b.get k).name = name := by
  have hnodup : ((owned x (b.take j)).reverse.map Prod.fst).Nodup := by
    rw [List.map_reverse, List.nodup_reverse, map_fst_owned, ← checkFiles_eq_ok_iff,
      checkFiles_eq_ok_iff_pairwise]
    exact h
  rw [lookup_eq_some_iff_mem hnodup, List.mem_reverse, mem_owned_iff]
  constructor
  · rintro ⟨d, hd, hpath, rfl⟩
    obtain ⟨k, hk, rfl⟩ := mem_take_iff.mp hd
    exact ⟨k, hk, hpath, rfl⟩
  · rintro ⟨k, hk, hpath, rfl⟩
    exact ⟨_, mem_take_iff.mpr ⟨k, hk, rfl⟩, hpath, rfl⟩

lemma isSome_lookup_owned_iff
    (h : (b.take j).Pairwise fun c d => Disjoint (c.fileSet x) (d.fileSet x)) {path : String} :
    ((owned x (b.take j)).reverse.lookup path).isSome ↔
      ∃ k, k < j ∧ path ∈ (b.get k).fileSet x := by
  rw [Option.isSome_iff_exists]
  simp only [lookup_owned_iff h]
  constructor
  · rintro ⟨_, k, hk, hpath, -⟩
    exact ⟨k, hk, hpath⟩
  · rintro ⟨k, hk, hpath⟩
    exact ⟨_, k, hk, hpath, rfl⟩

lemma eq_of_mem_fileSet
    (h : ∀ k l, k < l → l < j → Disjoint ((b.get k).fileSet x) ((b.get l).fileSet x))
    {i k : Fin b.length} (hi : i < j) (hk : k < j) {path : String}
    (hpath : path ∈ (b.get i).fileSet x) (hpath' : path ∈ (b.get k).fileSet x) : k = i := by
  rcases lt_trichotomy k i with hlt | heq | hlt
  · exact absurd hpath (Finset.disjoint_left.mp (h k i hlt hi) hpath')
  · exact heq
  · exact absurd hpath' (Finset.disjoint_left.mp (h i k hlt hk) hpath)

/-- Behind definitions that pass, the files of `j` are refused just when it is the first to share
one. -/
lemma claimFiles_eq_error_iff_firstCollision
    (h : (b.take j).Pairwise fun c d => Disjoint (c.fileSet x) (d.fileSet x)) {e : BatchError} :
    claimFiles (b.get j).name (owned x (b.take j)).reverse (filesOf x (b.get j)) = .error e ↔
      ∃ i path, b.FirstCollision x i j path ∧
        e = .collision path (b.get i).name (b.get j).name := by
  have hapart := pairwise_take_iff.mp h
  rw [claimFiles_eq_error_iff (nodup_filesOf x _), find?_filesOf]
  constructor
  · rintro ⟨path, first, hfind, hfirst, rfl⟩
    obtain ⟨i, hi, hpath, rfl⟩ := (lookup_owned_iff h).mp hfirst
    refine ⟨i, path, ⟨hi, hapart, fun k hk => ⟨eq_of_mem_fileSet hapart hi hk hpath, ?_⟩,
      fun hshared => ?_, fun hfree => ?_⟩, rfl⟩
    · rintro rfl
      exact hpath
    · rw [if_pos ((isSome_lookup_owned_iff h).mpr hshared)] at hfind
      exact (Option.some.inj hfind).symm
    · rw [if_neg ((isSome_lookup_owned_iff h).not.mpr (by simpa using hfree))] at hfind
      split at hfind
      · exact (Option.some.inj hfind).symm
      · cases hfind
  · rintro ⟨i, path, hcollision, rfl⟩
    have hpath := (hcollision.owner i hcollision.lt).mpr rfl
    refine ⟨path, _, ?_, (lookup_owned_iff h).mpr ⟨i, hcollision.lt, hpath, rfl⟩, rfl⟩
    by_cases hshared : ∃ k, k < j ∧ x.headerFile (b.get j).fileStem ∈ (b.get k).fileSet x
    · rw [if_pos ((isSome_lookup_owned_iff h).mpr hshared), hcollision.header hshared]
    · have hsource := hcollision.source (by simpa using hshared)
      rw [if_neg ((isSome_lookup_owned_iff h).not.mpr hshared), ← hsource,
        if_pos ((isSome_lookup_owned_iff h).mpr ⟨i, hcollision.lt, hpath⟩)]

end

/-- **Collisions**: a batch passes just when no two definitions share a file, whatever one definition
writes twice; and otherwise the first definition that shares a file is reported with it and with its
owner. -/
theorem checkFiles_exact (b : Batch) (x : Extensions) :
    (b.checkFiles x = .ok () ↔
      ∀ i j, i < j → Disjoint ((b.get i).fileSet x) ((b.get j).fileSet x)) ∧
    (∀ d : Definition, checkFiles [d] x = .ok ()) ∧
    ∀ e, b.checkFiles x = .error e ↔ ∃ i j path, b.FirstCollision x i j path ∧
      e = .collision path (b.get i).name (b.get j).name := by
  refine ⟨?_, fun d => ?_, fun e => ?_⟩
  · rw [checkFiles_eq_ok_iff_pairwise, List.pairwise_iff_get]
  · exact checkFiles_eq_ok_iff_pairwise.mpr (List.pairwise_singleton _ _)
  · rw [checkFiles, checkFilesFrom_eq_error_iff]
    simp only [List.append_nil]
    constructor
    · rintro ⟨j, hfront, hj⟩
      obtain ⟨i, path, hcollision, he⟩ :=
        (claimFiles_eq_error_iff_firstCollision (checkFiles_eq_ok_iff_pairwise.mp hfront)).mp hj
      exact ⟨i, j, path, hcollision, he⟩
    · rintro ⟨i, j, path, hcollision, he⟩
      have hfront : (b.take j).Pairwise fun c d => Disjoint (c.fileSet x) (d.fileSet x) :=
        pairwise_take_iff.mpr hcollision.apart
      exact ⟨j, checkFiles_eq_ok_iff_pairwise.mpr hfront,
        (claimFiles_eq_error_iff_firstCollision hfront).mpr ⟨i, path, hcollision, he⟩⟩

/-- The header of one definition is the source of another one. -/
example : checkFiles [{ name := "A", stem := some "x.c" }, { name := "B", stem := some "x" }]
    ⟨"h", "c.h"⟩ = .error (.collision "x.c.h" "A" "B") := by cbv

end Batch

end EnumForge
