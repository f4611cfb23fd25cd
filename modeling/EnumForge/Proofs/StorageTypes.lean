import EnumForge.Proofs.Acceptance
import EnumForge.Proofs.Tokens

/-!
The storage types that C++ knows itself, read from their tokens: the built-in integer types, whose
words may stand in any order, and the types of fixed width. The check of the range knows them by
their spelling, with a space between two words, so it is passed over wherever the words stand in
another order, a space stands inside a qualified name, or a spelling is missing.
-/

namespace EnumForge

open Text Identifier Token

namespace Storage

/-! ### Integer types -/

inductive IntegerType
  /-- `char`, which has a sign or not. -/
  | plainChar
  | signed (bits : Nat)
  | unsigned (bits : Nat)
  deriving DecidableEq

namespace IntegerType

def least : IntegerType → Int
  | plainChar => 0
  | signed bits => -2 ^ (bits - 1)
  | unsigned _ => 0

/-- A plain `char` holds for sure what both kinds of it hold. -/
def greatest : IntegerType → Int
  | plainChar => 127
  | signed bits => 2 ^ (bits - 1) - 1
  | unsigned bits => 2 ^ bits - 1

def Holds (t : IntegerType) (i : Int) : Prop := t.least ≤ i ∧ i ≤ t.greatest

instance (t : IntegerType) (i : Int) : Decidable (t.Holds i) :=
  inferInstanceAs (Decidable (_ ∧ _))

end IntegerType

/-- The words for the integers of a size, without a sign or with one, and with `int` or not. -/
def sized (size : List String) (bits : Nat) : List (List String × IntegerType) :=
  [([], .signed bits), (["signed"], .signed bits), (["unsigned"], .unsigned bits)].flatMap
    fun (sign, t) => [(sign ++ size, t), (sign ++ size ++ ["int"], t)]

/-- The built-in types, each with its words in the usual order. -/
def builtIn : List (List String × IntegerType) :=
  [(["char"], .plainChar), (["signed", "char"], .signed 8), (["unsigned", "char"], .unsigned 8)] ++
    (sized ["short"] 16 ++ sized [] 32 ++ sized ["long"] 64 ++ sized ["long", "long"] 64).filter
      (!·.1.isEmpty)

def fixedWidth : List (String × IntegerType) := [
  ("int8_t", .signed 8), ("int16_t", .signed 16), ("int32_t", .signed 32), ("int64_t", .signed 64),
  ("uint8_t", .unsigned 8), ("uint16_t", .unsigned 16), ("uint32_t", .unsigned 32),
  ("uint64_t", .unsigned 64)]

/-- The tokens are a name of the type. -/
inductive Denotes : List Token → IntegerType → Prop
  | builtIn {usual ws : List String} {t : IntegerType} (h : (usual, t) ∈ builtIn)
    (horder : ws.Perm usual) : Denotes (ws.map word) t
  | fixedWidth {name : String} {t : IntegerType} (h : (name, t) ∈ fixedWidth) :
    Denotes [word name] t
  | qualified {name : String} {t : IntegerType} (h : (name, t) ∈ fixedWidth) :
    Denotes [word "std", scope, word name] t

/-! ### Spellings -/

/-- The words of the names that are listed with their ranges: the built-in types in the usual order,
unless they have `signed` and a size and `int`, and the types of fixed width, in the scope of the
standard library or without it. -/
def listed : List (List String) :=
  (builtIn.map Prod.fst).filter (fun ws => ¬ ("signed" ∈ ws ∧ "int" ∈ ws ∧ 2 < ws.length)) ++
    fixedWidth.flatMap fun (name, _) => [[name], ["std::" ++ name]]

/-- All ways to put things into groups that keep their order. -/
def groupings {α : Type} : List α → List (List (List α))
  | [] => [[]]
  | x :: xs => (groupings xs).flatMap fun
    | [] => [[[x]]]
    | g :: gs => [[x] :: g :: gs, (x :: g) :: gs]

lemma mem_groupings {α : Type} {xs : List α} {groups : List (List α)}
    (h : groups.flatten = xs) (hne : ∀ g ∈ groups, g ≠ []) : groups ∈ groupings xs := by
  induction xs generalizing groups with
  | nil =>
    rw [groupings, List.mem_singleton, List.eq_nil_iff_forall_not_mem]
    exact fun g hg => hne g hg (List.flatten_eq_nil_iff.mp h g hg)
  | cons x xs ih =>
    cases groups with
    | nil => cases h
    | cons g gs =>
      obtain ⟨hg, hgs⟩ := List.forall_mem_cons.mp hne
      rcases g with _ | ⟨y, _ | ⟨z, g⟩⟩
      · exact absurd rfl hg
      · -- the first group is one thing alone
        obtain ⟨rfl, hrest⟩ := List.cons.inj h
        refine List.mem_flatMap.mpr ⟨gs, ih hrest hgs, ?_⟩
        cases gs <;> simp
      · obtain ⟨rfl, hrest⟩ := List.cons.inj h
        have hmem : (z :: g) :: gs ∈ groupings xs :=
          ih hrest (List.forall_mem_cons.mpr ⟨List.cons_ne_nil z g, hgs⟩)
        exact List.mem_flatMap.mpr ⟨_, hmem, by simp⟩

/-- All lists of words that a text of these tokens can have. -/
def spacings (ts : List Token) : List (List String) :=
  (groupings ts).map fun groups => groups.map fun group => .ofList (group.flatMap spell)

lemma words_mem_spacings (s : String) : words s ∈ spacings (ofText s) := by
  obtain ⟨parts, hflatten, hne, hwords⟩ := exists_parts s
  rw [hwords]
  exact List.mem_map_of_mem (mem_groupings hflatten hne)

/-- The words of the names of types. -/
def wordings : List (List String × IntegerType) :=
  builtIn.flatMap (fun (usual, t) => usual.permutations'.map (·, t)) ++
    fixedWidth.flatMap fun (name, t) =>
      ([name] :: spacings [word "std", scope, word name]).map (·, t)

lemma mem_wordings_of_denotes {s : String} {t : IntegerType} (h : Denotes (ofText s) t) :
    (words s, t) ∈ wordings := by
  generalize hts : ofText s = ts at h
  cases h with
  | builtIn h horder =>
    rw [words_eq_of_ofText hts]
    refine List.mem_append_left _ (List.mem_flatMap.mpr ⟨_, h, ?_⟩)
    exact List.mem_map_of_mem (List.mem_permutations'.mpr horder)
  | @fixedWidth name _ h =>
    have hwords : words s = [name] := words_eq_of_ofText hts
    rw [hwords]
    refine List.mem_append_right _ (List.mem_flatMap.mpr ⟨_, h, ?_⟩)
    exact List.mem_map_of_mem List.mem_cons_self
  | @qualified name _ h =>
    have hwords := words_mem_spacings s
    rw [hts] at hwords
    refine List.mem_append_right _ (List.mem_flatMap.mpr ⟨_, h, ?_⟩)
    exact List.mem_map_of_mem (List.mem_cons_of_mem _ hwords)

lemma lookup_of_mem_wordings : ∀ p ∈ wordings,
    known.lookup (dropStandardScope (" ".intercalate p.1)) =
      if p.1 ∈ listed then some (p.2.least, p.2.greatest) else none := by
  decide +kernel

/-- The range of a type is known just where its spelling is listed, and then it is right. -/
theorem range?_of_denotes {s : String} {t : IntegerType} (h : Denotes (ofText s) t) :
    range? s = if words s ∈ listed then some (t.least, t.greatest) else none := by
  rw [range?, lookup_of_mem_wordings _ (mem_wordings_of_denotes h)]

lemma not_holds_of_denotes {ts : List Token} {t : IntegerType} (h : Denotes ts t) :
    ¬ t.Holds (2 ^ 64) := by
  have hbuiltIn : ∀ p ∈ builtIn, ¬ p.2.Holds (2 ^ 64) := by decide +kernel
  have hfixedWidth : ∀ p ∈ fixedWidth, ¬ p.2.Holds (2 ^ 64) := by decide +kernel
  cases h with
  | builtIn h _ => exact hbuiltIn _ h
  | fixedWidth h => exact hfixedWidth _ h
  | qualified h => exact hfixedWidth _ h

end Storage

open Storage

/-- An enumeration of one constant. -/
def single (storage : String) (i : Int) : Definition where
  name := "E"
  storage := some storage
  values := some (.mapping [("A", .integer i)])

/-- A type of an unknown range takes every value. -/
lemma check_single {s : String} (hs : isTypeName (trim s)) (hrange : range? s = none) (i : Int) :
    (single s i).check = .ok ⟨single s i, [⟨"A", .integer i⟩]⟩ := by
  have hname : isIdentifier "E" := by decide +kernel
  have hstem : isFileStem "E" := by decide +kernel
  have hlabel : isIdentifier "A" := by decide +kernel
  have hrules : (single s i).KeepsRules (.mapping [("A", .integer i)]) :=
    { written := rfl
      nonempty := List.cons_ne_nil _ _
      typeName := hname
      scope := nofun
      stem := hstem
      labels := by simpa [WrittenValues.labels] using hlabel
      oneKind := by simp [WrittenValues.OneKind]
      asciiTexts := by simp [WrittenValues.AsciiTexts]
      distinctNames := List.nodup_singleton _
      distinctValues := List.nodup_singleton _
      inRange := by
        intro low high h
        rw [single, Option.getD_some, hrange] at h
        cases h
      storage := by
        rintro _ ⟨⟩
        exact hs }
  refine Definition.check_eq_ok_iff.mpr ⟨_, hrules, ?_⟩
  rw [WrittenValues.constants]
  exact congrArg (Enumeration.mk _) (List.mergeSort_singleton _).symm

/-- **Storage types**: where the storage type of an accepted definition is one that C++ knows
itself, it holds all values, provided that its spelling is listed; under any other spelling of such
a type a definition is accepted with values that the type does not hold. -/
theorem Storage.holds_accepted_values_iff {s : String} (hs : isTypeName (trim s)) {t : IntegerType}
    (ht : Denotes (ofText s) t) :
    (∀ d e, Definition.storage d = some s → d.check = .ok e →
        ∀ c ∈ e.constants, t.Holds c.value.toInt) ↔
      words s ∈ listed := by
  have hrange := range?_of_denotes ht
  constructor
  · intro hall
    by_contra hlisted
    rw [if_neg hlisted] at hrange
    have hcheck := check_single hs hrange (2 ^ 64)
    exact not_holds_of_denotes ht (hall _ _ rfl hcheck _ List.mem_cons_self)
  · intro hlisted d e hd he c hc
    rw [if_pos hlisted] at hrange
    obtain ⟨vs, hr, rfl⟩ := Definition.check_eq_ok_iff.mp he
    have hin := (WrittenValues.forall_constants_iff hr.distinctNames hr.asciiTexts).mpr
      (hr.inRange t.least t.greatest (by rw [hd, Option.getD_some, hrange]))
    exact hin c hc

lemma denotes_signedShortInt : Denotes (ofText "signed short int") (.signed 16) := by
  have hmem : (["signed", "short", "int"], .signed 16) ∈ builtIn := by decide
  exact .builtIn hmem (.refl _)

theorem spellings_of_storage :
    (∀ d e, Definition.storage d = some "unsigned  long" → d.check = .ok e →
        ∀ c ∈ e.constants, (IntegerType.unsigned 64).Holds c.value.toInt) ∧
      ¬ ∀ d e, Definition.storage d = some "signed short int" → d.check = .ok e →
        ∀ c ∈ e.constants, (IntegerType.signed 16).Holds c.value.toInt := by
  have hlong : Denotes (ofText "unsigned  long") (.unsigned 64) := by
    have hmem : (["unsigned", "long"], .unsigned 64) ∈ builtIn := by decide
    exact .builtIn hmem (.refl _)
  constructor
  · exact (Storage.holds_accepted_values_iff (by decide +kernel) hlong).mpr (by decide +kernel)
  · rw [Storage.holds_accepted_values_iff (by decide +kernel) denotes_signedShortInt]
    decide +kernel

/-- A value that the type does not hold is accepted where the spelling of the type has `signed` and
`int` at a size, has its words in another order, or has a space in front of the double colon. -/
theorem unlisted_storage_unchecked :
    (Denotes (ofText "signed short int") (.signed 16) ∧
      ∃ e, (single "signed short int" 40000).check = .ok e ∧
        ∃ c ∈ e.constants, ¬ (IntegerType.signed 16).Holds c.value.toInt) ∧
    (Denotes (ofText "int unsigned") (.unsigned 32) ∧
      ∃ e, (single "int unsigned" (-1)).check = .ok e ∧
        ∃ c ∈ e.constants, ¬ (IntegerType.unsigned 32).Holds c.value.toInt) ∧
    Denotes (ofText "std ::uint8_t") (.unsigned 8) ∧
      ∃ e, (single "std ::uint8_t" 256).check = .ok e ∧
        ∃ c ∈ e.constants, ¬ (IntegerType.unsigned 8).Holds c.value.toInt := by
  have haccepted {s : String} {i : Int} {t : IntegerType} (hs : isTypeName (trim s))
      (hrange : range? s = none) (hi : ¬ t.Holds i) : ∃ e, (single s i).check = .ok e ∧
        ∃ c ∈ e.constants, ¬ t.Holds c.value.toInt :=
    ⟨_, check_single hs hrange i, _, List.mem_cons_self, hi⟩
  refine ⟨⟨denotes_signedShortInt, ?_⟩, ⟨?_, ?_⟩, ?_, ?_⟩
  · exact haccepted (by decide +kernel) (by decide +kernel) (by decide)
  · have hmem : (["unsigned", "int"], .unsigned 32) ∈ builtIn := by decide
    exact .builtIn hmem (.swap _ _ _)
  · exact haccepted (by decide +kernel) (by decide +kernel) (by decide)
  · exact .qualified (by decide)
  · exact haccepted (by decide +kernel) (by decide +kernel) (by decide)

end EnumForge
