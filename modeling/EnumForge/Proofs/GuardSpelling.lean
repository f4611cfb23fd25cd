import EnumForge.Proofs.DerivedNames
import EnumForge.Proofs.GuardMacro

/-!
How guards are spelled. Each underscore of a guard stands between two codes, and no code is empty or
holds one, so no guard is a spelling that C++ keeps for its implementations. A guard can still be a
word that C++ has taken: the parts of one are as good as others.
-/

namespace EnumForge.IncludeGuard

open Identifier

variable {scope : List String} {name extension : String}

/-! ### Underscores -/

lemma ofParts_eq_empty_iff : ofParts scope name extension = "" ↔
    ∀ p ∈ scope ++ [name, extension], p = "" := by
  have hparts : parts scope name extension = [] ↔ ∀ p ∈ scope ++ [name, extension], p = "" := by
    rw [parts, List.filter_eq_nil_iff]
    simp
  rw [← hparts]
  constructor
  · exact fun h => by_contra fun hne => ofParts_ne_empty hne h
  · intro h
    rw [← String.toList_inj, toList_ofParts, h]
    rfl

/-- What stands between two underscores, or at an end of a guard, is the code of a part. -/
lemma ne_nil_of_mem_splitOn (hparts : parts scope name extension ≠ []) {piece : List Char}
    (h : piece ∈ (ofParts scope name extension).toList.splitOn '_') : piece ≠ [] := by
  rw [(ofParts_eq_iff_splitOn hparts).mp rfl] at h
  obtain ⟨p, hp, rfl⟩ := List.mem_map.mp h
  refine encode_ne_nil ?_
  simpa using (List.mem_filter.mp hp).2

/-- An underscore has a code on either side. -/
lemma ne_nil_of_underscore {before behind : List Char}
    (h : (ofParts scope name extension).toList = before ++ '_' :: behind) :
    before ≠ [] ∧ behind.head? ≠ some '_' ∧ behind ≠ [] := by
  have hparts : parts scope name extension ≠ [] := by
    intro hnil
    rw [toList_ofParts, hnil] at h
    simp at h
  have hpieces : ∀ piece ∈ before.splitOn '_' ++ behind.splitOn '_', piece ≠ [] := by
    intro piece hpiece
    rw [← List.splitOn_append_cons_self, ← h] at hpiece
    exact ne_nil_of_mem_splitOn hparts hpiece
  rw [List.forall_mem_append] at hpieces
  refine ⟨?_, fun hhead => ?_, ?_⟩
  · rintro rfl
    exact hpieces.1 [] (by simp) rfl
  · obtain ⟨rest, rfl⟩ := List.head?_eq_some_iff.mp hhead
    have hsplit : ('_' :: rest).splitOn '_' = [].splitOn '_' ++ rest.splitOn '_' :=
      List.splitOn_append_cons_self [] rest
    exact hpieces.2 [] (by simp [hsplit]) rfl
  · rintro rfl
    exact hpieces.2 [] (by simp) rfl

lemma head?_ofParts_ne : (ofParts scope name extension).toList.head? ≠ some '_' := by
  intro h
  obtain ⟨rest, hrest⟩ := List.head?_eq_some_iff.mp h
  rw [← List.nil_append ('_' :: rest)] at hrest
  exact (ne_nil_of_underscore hrest).1 rfl

lemma getLast?_ofParts_ne : (ofParts scope name extension).toList.getLast? ≠ some '_' := by
  intro h
  obtain ⟨front, hfront⟩ := List.getLast?_eq_some_iff.mp h
  exact (ne_nil_of_underscore hfront).2.2 rfl

lemma hasDoubleUnderscore_ofParts (scope : List String) (name extension : String) :
    hasDoubleUnderscore (ofParts scope name extension).toList = false := by
  rw [hasDoubleUnderscore_eq_false_iff, List.isChain_iff_forall_rel_of_append_cons_cons]
  rintro _ _ before behind hguard ⟨rfl, rfl⟩
  exact (ne_nil_of_underscore hguard).2.1 rfl

lemma isReserved_ofParts (scope : List String) (name extension : String) :
    isReserved (ofParts scope name extension).toList = false := by
  have hhead := @head?_ofParts_ne scope name extension
  rw [isReserved, hasDoubleUnderscore_ofParts, Bool.false_or]
  cases hcs : (ofParts scope name extension).toList with
  | nil => rfl
  | cons a cs =>
    rw [hcs, List.head?_cons, ne_eq, Option.some.injEq] at hhead
    cases cs with
    | nil => rfl
    | cons b cs => simp [startsReserved, hhead]

/-! ### Guards of names -/

/-- The code of a name begins with a letter, for an underscore too. -/
lemma exists_encode_eq_cons {p : String} (h : isIdentifier p) :
    ∃ c cs, encode p = c :: cs ∧ isLetter c := by
  have hshape := (isIdentifier_iff.mp h).1
  rw [encode]
  cases hp : p.toList with
  | nil =>
    rw [hp] at hshape
    cases hshape
  | cons c cs =>
    rw [hp, hasShape, Bool.and_eq_true, Bool.or_eq_true, beq_iff_eq] at hshape
    have hz : isLetter 'Z' := by decide
    rw [List.flatMap_cons]
    unfold encodeChar
    split_ifs with hc hc' hc''
    · exact ⟨_, _, rfl, hz⟩
    · exact ⟨_, _, rfl, hz⟩
    · exact ⟨_, _, rfl, hshape.1.resolve_right hc'⟩
    · exact ⟨_, _, rfl, hz⟩

section

variable (hscope : ∀ s ∈ scope, isIdentifier s) (hname : isIdentifier name)

include hscope hname

lemma exists_parts_eq_cons (extension : String) :
    ∃ p rest, parts scope name extension = p :: rest ∧ isIdentifier p := by
  have hparts := parts_of_names (fun s hs => ne_empty (hscope s hs)) (ne_empty hname) extension
  cases scope with
  | nil => exact ⟨name, _, hparts, hname⟩
  | cons s rest => exact ⟨s, _, hparts, hscope s List.mem_cons_self⟩

lemma exists_head?_ofParts (extension : String) :
    ∃ c, (ofParts scope name extension).toList.head? = some c ∧ isLetter c := by
  obtain ⟨p, rest, hparts, hp⟩ := exists_parts_eq_cons hscope hname extension
  obtain ⟨c, cs, hcode, hc⟩ := exists_encode_eq_cons hp
  refine ⟨c, ?_, hc⟩
  rw [toList_ofParts, hparts, List.map_cons, hcode]
  cases rest with
  | nil => rfl
  | cons q rest => rw [List.map_cons, List.intercalate_cons_cons]; rfl

/-- Behind the first letter come letters, digits and underscores. -/
lemma hasShape_ofParts (extension : String) :
    hasShape isLetter (fun c => isLetter c || isDigit c || c == '_')
      (ofParts scope name extension).toList := by
  obtain ⟨c, hhead, hc⟩ := exists_head?_ofParts hscope hname extension
  obtain ⟨cs, hcs⟩ := List.head?_eq_some_iff.mp hhead
  rw [hcs, hasShape, hc, Bool.true_and, List.all_eq_true]
  intro c hc
  by_contra hmark
  refine not_mem_ofParts (c := c) ?_ scope name extension (by simp [hcs, hc])
  simpa [isMark] using hmark

/-- The only thing that keeps a guard from being a name is that it is a word which is taken. -/
lemma isIdentifier_ofParts_iff (extension : String) :
    isIdentifier (ofParts scope name extension) ↔
      ∀ w ∈ keywords ++ standardMacros,
        w.toList.splitOn '_' ≠ (parts scope name extension).map encode := by
  have hparts : parts scope name extension ≠ [] := by
    obtain ⟨p, rest, hparts, -⟩ := exists_parts_eq_cons hscope hname extension
    simp [hparts]
  have hshape : hasShape (fun c => isLetter c || c == '_') (fun c => !isMark c)
      (ofParts scope name extension).toList := by
    have hletter := hasShape_ofParts hscope hname extension
    cases hcs : (ofParts scope name extension).toList with
    | nil =>
      rw [hcs] at hletter
      cases hletter
    | cons c cs =>
      rw [hcs, hasShape, Bool.and_eq_true] at hletter
      simpa [hasShape, isMark, hletter.1] using hletter.2
  have htaken : (∀ w ∈ keywords ++ standardMacros,
        w.toList.splitOn '_' ≠ (parts scope name extension).map encode) ↔
      ofParts scope name extension ∉ keywords ++ standardMacros := by
    simp only [ne_eq, ← ofParts_eq_iff_splitOn hparts]
    exact List.forall_mem_ne
  rw [htaken, isIdentifier_iff, List.mem_append, not_or]
  simp only [hshape, isReserved_ofParts, and_true, true_and]

end

/-- **Spelling of guards**: a guard is made of letters, digits and underscores, with neither an
underscore at an end nor two next to each other, and it is empty only if all its parts are. Behind a
scope and in front of an extension of whatever sort, the guard of a name begins with a letter and is
not kept for implementations. It is a name itself unless the codes of its parts stand between the
underscores of a word that is taken. -/
theorem ofParts_spelling (scope : List String) (name extension : String) :
    (∀ c ∈ (ofParts scope name extension).toList, isLetter c ∨ isDigit c ∨ c = '_') ∧
    (ofParts scope name extension).toList.head? ≠ some '_' ∧
    (ofParts scope name extension).toList.getLast? ≠ some '_' ∧
    hasDoubleUnderscore (ofParts scope name extension).toList = false ∧
    ((∃ p ∈ scope ++ [name, extension], p ≠ "") → ofParts scope name extension ≠ "") ∧
    ((∀ s ∈ scope, isIdentifier s) → isIdentifier name →
      hasShape isLetter (fun c => isLetter c || isDigit c || c == '_')
        (ofParts scope name extension).toList ∧
      isReserved (ofParts scope name extension).toList = false ∧
      (isIdentifier (ofParts scope name extension) ↔
        ∀ w ∈ keywords ++ standardMacros, w.toList.splitOn '_' ≠
          ((scope ++ [name, extension]).filter (!·.isEmpty)).map encode)) := by
  refine ⟨fun c hc => ?_, head?_ofParts_ne, getLast?_ofParts_ne,
    hasDoubleUnderscore_ofParts _ _ _, fun hne hempty => ?_, fun hscope hname => ?_⟩
  · by_contra hmark
    refine not_mem_ofParts (c := c) ?_ scope name extension hc
    simpa [isMark, and_assoc] using hmark
  · obtain ⟨p, hp, hne⟩ := hne
    exact hne (ofParts_eq_empty_iff.mp hempty p hp)
  · exact ⟨hasShape_ofParts hscope hname extension, isReserved_ofParts scope name extension,
      isIdentifier_ofParts_iff hscope hname extension⟩

/-- Underscores at the ends of all parts: the code of each begins with a letter. -/
theorem guard_of_underscores_spelled :
    ofParts ["a_", "_b"] "_x" "h__" = "aZU_ZUb_ZUx_hZUZU" ∧
      isReserved "aZU_ZUb_ZUx_hZUZU".toList = false ∧ isIdentifier "aZU_ZUb_ZUx_hZUZU" := by
  have hguard : ofParts ["a_", "_b"] "_x" "h__" = "aZU_ZUb_ZUx_hZUZU" := by decide +kernel
  obtain ⟨-, -, -, -, -, hnames⟩ := ofParts_spelling ["a_", "_b"] "_x" "h__"
  obtain ⟨-, hreserved, hname⟩ := hnames (by decide +kernel) (by decide +kernel)
  rw [hguard] at hreserved hname
  exact ⟨hguard, hreserved, hname.mpr (by decide +kernel)⟩

/-- A type that is named like the front of a keyword. -/
def wideCharacter : Definition where
  name := "wchar"
  values := some (.names ["NARROW", "WIDE"])

/-- The extension can make a keyword of the guard: the header of an accepted type defines it. -/
theorem keyword_as_guard :
    isIdentifier "wchar" ∧ ofParts [] "wchar" "t" = "wchar_t" ∧ "wchar_t" ∈ keywords ∧
      isIdentifier "wchar_t" = false ∧
      ∃ e files, wideCharacter.check = .ok e ∧
        wideCharacter.generate { header := "t" } = .ok files ∧
        Reading.guard? files.header = some "wchar_t" := by
  have hcheck : wideCharacter.check =
      .ok ⟨wideCharacter, [⟨"NARROW", .integer 0⟩, ⟨"WIDE", .integer 1⟩]⟩ := by cbv
  have hguard : ofParts [] "wchar" "t" = "wchar_t" := by decide
  obtain ⟨files, hfiles⟩ := Definition.exists_generate hcheck (x := { header := "t" }) (by decide)
  refine ⟨by decide +kernel, hguard, by decide +kernel, by decide +kernel, _, files, hcheck, hfiles,
    ?_⟩
  rw [Reading.guard?_of_generate hfiles]
  exact congrArg some hguard

end EnumForge.IncludeGuard
