import EnumForge.Generated
import EnumForge.Proofs.Rendering

/-!
The names that are derived from the name of a type by putting a word behind it. Each is a name in
its own right unless the seam makes it one that C++ keeps for its implementations, which depends on
how the name of the type ends.
-/

namespace EnumForge

namespace Identifier

/-! ### Names that are kept for implementations -/

lemma hasDoubleUnderscore_eq_false_iff {cs : List Char} :
    hasDoubleUnderscore cs = false ↔ cs.IsChain fun a b => ¬ (a = '_' ∧ b = '_') := by
  induction cs with
  | nil => simp [hasDoubleUnderscore]
  | cons a cs ih =>
    cases cs with
    | nil => simp [hasDoubleUnderscore]
    | cons b cs =>
      rw [hasDoubleUnderscore, Bool.or_eq_false_iff, ih, List.isChain_cons_cons]
      simp

/-- Only the last character of a name can make a double underscore with what is put behind it. -/
lemma hasDoubleUnderscore_append_cons {cs ds : List Char} {d : Char}
    (hcs : hasDoubleUnderscore cs = false) (hds : hasDoubleUnderscore (d :: ds) = false) :
    hasDoubleUnderscore (cs ++ d :: ds) ↔ cs.getLast? = some '_' ∧ d = '_' := by
  rw [← not_iff_not, Bool.not_eq_true, hasDoubleUnderscore_eq_false_iff, List.isChain_append]
  rw [hasDoubleUnderscore_eq_false_iff] at hcs hds
  simp only [hcs, hds, true_and, List.head?_cons, Option.mem_some_iff, forall_eq']
  constructor
  · rintro h ⟨hlast, hd⟩
    exact h '_' hlast ⟨rfl, hd⟩
  · rintro h x hx ⟨rfl, hd⟩
    exact h ⟨hx, hd⟩

/-- An underscore alone is followed by the first character of what is put behind it. -/
lemma startsReserved_append_cons {cs ds : List Char} {d : Char} (hne : cs ≠ [])
    (hcs : startsReserved cs = false) :
    startsReserved (cs ++ d :: ds) ↔ cs = ['_'] ∧ 'A' ≤ d ∧ d ≤ 'Z' := by
  cases cs with
  | nil => exact absurd rfl hne
  | cons a cs =>
    cases cs with
    | nil => simp [startsReserved, and_assoc]
    | cons b cs =>
      have hsame : startsReserved (a :: b :: cs ++ d :: ds) = startsReserved (a :: b :: cs) := rfl
      rw [hsame, hcs]
      simp

/-! ### A word behind a name -/

lemma hasShape_append {start rest : Char → Bool} {cs ds : List Char} (hcs : hasShape start rest cs)
    (hds : ds.all rest) : hasShape start rest (cs ++ ds) := by
  cases cs with
  | nil => cases hcs
  | cons c cs => simpa [hasShape, hds] using hcs

/-- No word that is taken ends in the suffix. -/
def EndsNoTakenWord (suffix : String) : Prop :=
  ∀ w ∈ keywords ++ standardMacros, ¬ suffix.toList <:+ w.toList

instance (suffix : String) : Decidable (EndsNoTakenWord suffix) :=
  inferInstanceAs (Decidable (∀ w ∈ keywords ++ standardMacros, ¬ suffix.toList <:+ w.toList))

/-- Of all that a name has to be, only not being reserved can be lost at the seam. -/
lemma isIdentifier_append_iff {s suffix : String} (hs : isIdentifier s)
    (hchars : suffix.toList.all fun c => !isMark c) (htaken : EndsNoTakenWord suffix) :
    isIdentifier (s ++ suffix) ↔ isReserved (s ++ suffix).toList = false := by
  have hends : suffix.toList <:+ (s ++ suffix).toList := by
    rw [String.toList_append]
    exact List.suffix_append _ _
  have hkeyword : s ++ suffix ∉ keywords := fun hmem =>
    htaken _ (List.mem_append_left _ hmem) hends
  have hmacro : s ++ suffix ∉ standardMacros := fun hmem =>
    htaken _ (List.mem_append_right _ hmem) hends
  have hshape := hasShape_append (isIdentifier_iff.mp hs).1 hchars
  rw [← String.toList_append] at hshape
  rw [isIdentifier_iff]
  simp only [hshape, hkeyword, hmacro, not_false_eq_true, true_and]

lemma isReserved_append_iff {s suffix : String} {d : Char} {ds : List Char} (hs : isIdentifier s)
    (hsuffix : suffix.toList = d :: ds) (hds : hasDoubleUnderscore (d :: ds) = false) :
    isReserved (s ++ suffix).toList ↔
      (s.toList.getLast? = some '_' ∧ d = '_') ∨ (s.toList = ['_'] ∧ 'A' ≤ d ∧ d ≤ 'Z') := by
  obtain ⟨-, -, -, hreserved⟩ := isIdentifier_iff.mp hs
  rw [isReserved, Bool.or_eq_false_iff] at hreserved
  have hne : s.toList ≠ [] := mt String.toList_eq_nil_iff.mp (ne_empty hs)
  rw [isReserved, Bool.or_eq_true, String.toList_append, hsuffix,
    hasDoubleUnderscore_append_cons hreserved.1 hds, startsReserved_append_cons hne hreserved.2]

end Identifier

open Identifier Generated

/-- **Derived names**: the exception and the namespace of the tables of an accepted type have names
that may be declared, unless the name of the type is an underscore or, for the namespace, ends in
one. Then they are names that C++ keeps for its implementations. -/
theorem Definition.derived_names_iff {d : Definition} {e : Enumeration} (h : d.check = .ok e) :
    (isIdentifier (lookupError d.name) ↔ d.name ≠ "_") ∧
      (isReserved (lookupError d.name).toList ↔ d.name = "_") ∧
      (isIdentifier (tablesNamespace d.name) ↔ d.name.toList.getLast? ≠ some '_') ∧
      (isReserved (tablesNamespace d.name).toList ↔ d.name.toList.getLast? = some '_') := by
  obtain ⟨rfl, he⟩ := Enumeration.valid_of_check h
  have herror : isReserved (lookupError e.definition.name).toList ↔ e.definition.name = "_" := by
    have hsuffix : "LookupError".toList = 'L' :: "ookupError".toList := rfl
    have hname : e.definition.name.toList = ['_'] ↔ e.definition.name = "_" := by
      rw [← String.toList_inj]
      rfl
    rw [lookupError, isReserved_append_iff he.typeName hsuffix (by decide), hname]
    simp +decide
  have htables : isReserved (tablesNamespace e.definition.name).toList ↔
      e.definition.name.toList.getLast? = some '_' := by
    have hsuffix : "_tables".toList = '_' :: "tables".toList := rfl
    rw [tablesNamespace, isReserved_append_iff he.typeName hsuffix (by decide)]
    simp +decide
  refine ⟨?_, herror, ?_, htables⟩
  · rw [ne_eq, ← herror, Bool.not_eq_true]
    exact isIdentifier_append_iff he.typeName (by decide) (by decide +kernel)
  · rw [ne_eq, ← htables, Bool.not_eq_true]
    exact isIdentifier_append_iff he.typeName (by decide) (by decide +kernel)

/-- A type whose name ends in an underscore. -/
def openEnd : Definition where
  name := "Color_"
  values := some (.names ["RED"])

/-- A type whose name is nothing but an underscore. -/
def onlyUnderscore : Definition := { openEnd with name := "_" }

lemma check_openEnd : openEnd.check = .ok ⟨openEnd, [⟨"RED", .integer 0⟩]⟩ := by cbv

lemma check_onlyUnderscore :
    onlyUnderscore.check = .ok ⟨onlyUnderscore, [⟨"RED", .integer 0⟩]⟩ := by cbv

theorem openEnd_derived :
    isIdentifier (lookupError "Color_") ∧ ¬ isIdentifier (tablesNamespace "Color_") ∧
      isReserved (lookupError "_").toList := by
  obtain ⟨herror, -, htables, -⟩ := Definition.derived_names_iff check_openEnd
  obtain ⟨-, hreserved, -, -⟩ := Definition.derived_names_iff check_onlyUnderscore
  exact ⟨herror.mpr (by decide), fun h => htables.mp h (by decide), hreserved.mpr rfl⟩

/-- A type can be accepted and a name that is derived from it not be one. -/
theorem derived_names_reserved :
    (∃ e, openEnd.check = .ok e ∧ ¬ isIdentifier (tablesNamespace openEnd.name)) ∧
      ∃ e, onlyUnderscore.check = .ok e ∧ ¬ isIdentifier (lookupError onlyUnderscore.name) :=
  ⟨⟨_, check_openEnd, by decide +kernel⟩, _, check_onlyUnderscore, by decide +kernel⟩

end EnumForge
