import EnumForge.Proofs.Rendering

/-!
The codes that a guard is made of, read back. The code of a character ends where the character ends,
and no code holds an underscore, so the parts of a guard are found again between its underscores:
two guards are the same just when they have the same parts.
-/

namespace EnumForge.IncludeGuard

/-! ### Digits -/

/-- The value of an upper-case hexadecimal digit. -/
def hexValue (c : Char) : Nat := if c.toNat < 58 then c.toNat - 48 else c.toNat - 55

/-- The number that hexadecimal digits spell. -/
def ofHex (cs : List Char) : Nat := cs.foldl (fun n c => 16 * n + hexValue c) 0

lemma hexValue_hexDigit (n : Nat) : hexValue (hexDigit (n % 16)) = n % 16 := by
  have hall : ∀ m : Fin 16, hexValue (hexDigit m) = m := by decide
  exact hall ⟨n % 16, Nat.mod_lt n (by decide)⟩

lemma length_hexDigits (count n : Nat) : (hexDigits count n).length = count := by
  induction count generalizing n with
  | zero => rfl
  | succ count ih => rw [hexDigits, List.length_append, ih, List.length_singleton]

lemma ofHex_hexDigits {count n : Nat} (h : n < 16 ^ count) : ofHex (hexDigits count n) = n := by
  induction count generalizing n with
  | zero =>
    rw [pow_zero] at h
    rw [hexDigits, ofHex, List.foldl_nil]
    omega
  | succ count ih =>
    rw [pow_succ] at h
    have hfront : ofHex (hexDigits count (n / 16)) = n / 16 := ih (by omega)
    rw [ofHex] at hfront
    rw [hexDigits, ofHex, List.foldl_append, hfront, List.foldl_cons, List.foldl_nil,
      hexValue_hexDigit]
    omega

/-! ### Characters -/

/-- The character at whose code a text begins, and what stands behind the code. -/
def decodeChar? : List Char → Option (Char × List Char)
  | 'Z' :: 'Z' :: rest => some ('Z', rest)
  | 'Z' :: 'U' :: rest => some ('_', rest)
  | 'Z' :: 'X' :: rest => some (.ofNat (ofHex (rest.take 6)), rest.drop 6)
  | 'Z' :: _ => none
  | c :: rest => some (c, rest)
  | [] => none

/-- A code is read to its end, whatever stands behind it. -/
lemma decodeChar?_encodeChar (c : Char) (rest : List Char) :
    decodeChar? (encodeChar c ++ rest) = some (c, rest) := by
  unfold encodeChar
  split
  · next hc =>
    rw [hc]
    rfl
  · next hz =>
    split
    · next hc =>
      rw [hc]
      rfl
    · split
      · simp [decodeChar?, hz]
      · have hlength := length_hexDigits 6 c.toNat
        have hmax : c.toNat < 16 ^ 6 := Nat.lt_trans (Text.toNat_lt c) (by decide)
        rw [List.cons_append, List.cons_append, decodeChar?, List.take_left' hlength,
          List.drop_left' hlength, ofHex_hexDigits hmax, Char.ofNat_toNat]

/-- No code holds the underscore that stands between the parts. -/
lemma underscore_not_mem_encodeChar (c : Char) : '_' ∉ encodeChar c := by
  intro hmem
  cases plain_of_mem_encodeChar hmem

/-! ### Parts -/

lemma encode_injective : Function.Injective encode :=
  (Text.flatMap_injective_of_read rfl decodeChar?_encodeChar).comp fun _ _ h =>
    String.toList_inj.mp h

/-- Of names only the extension can be empty. -/
lemma parts_of_names {scope : List String} {name : String} (hscope : ∀ s ∈ scope, s ≠ "")
    (hname : name ≠ "") (extension : String) :
    parts scope name extension = (scope ++ [name]) ++ [extension].filter (!·.isEmpty) := by
  have hfront : (scope ++ [name]).filter (!·.isEmpty) = scope ++ [name] := by
    simpa [List.filter_eq_self, or_imp, forall_and, hname] using hscope
  rw [parts, List.append_cons scope name [extension], List.filter_append, hfront]

section

variable {scope : List String} {name extension : String}

/-- A text is the guard just when the codes of the parts stand between its underscores. -/
lemma ofParts_eq_iff_splitOn (hparts : parts scope name extension ≠ []) {s : String} :
    ofParts scope name extension = s ↔
      s.toList.splitOn '_' = (parts scope name extension).map encode := by
  constructor
  · rintro rfl
    rw [toList_ofParts]
    refine List.splitOn_intercalate '_' (List.forall_mem_map.mpr fun p _ hmem => ?_)
      (by simpa using hparts)
    obtain ⟨c, -, hc⟩ := List.mem_flatMap.mp hmem
    exact underscore_not_mem_encodeChar c hc
  · intro h
    rw [← String.toList_inj, toList_ofParts, ← h]
    exact List.intercalate_splitOn '_'

/-- A guard tells its parts, and that there are none. -/
theorem parts_eq_of_ofParts_eq {scope' : List String} {name' extension' : String}
    (h : ofParts scope name extension = ofParts scope' name' extension') :
    parts scope name extension = parts scope' name' extension' := by
  have hempty {s : List String} {n x : String} (hparts : parts s n x = []) :
      ofParts s n x = "" := by
    rw [← String.toList_inj, toList_ofParts, hparts]
    rfl
  by_cases hparts : parts scope name extension = []
  · by_contra hne
    rw [hparts] at hne
    exact ofParts_ne_empty (Ne.symm hne) (h.symm.trans (hempty hparts))
  · by_cases hparts' : parts scope' name' extension' = []
    · exact absurd (h.trans (hempty hparts')) (ofParts_ne_empty hparts)
    · have hsplit := (ofParts_eq_iff_splitOn hparts).mp h
      rw [(ofParts_eq_iff_splitOn hparts').mp rfl] at hsplit
      exact (List.map_injective_iff.mpr encode_injective hsplit).symm

/-- **Guards apart**: two guards are the same just when scope, name and extension make the same
sequence of texts, empty ones left out. Where none of the texts is empty, each guard has only one
scope, one name and one extension. -/
theorem ofParts_eq_ofParts_iff (scope scope' : List String)
    (name name' extension extension' : String) :
    (ofParts scope name extension = ofParts scope' name' extension' ↔
      (scope ++ [name, extension]).filter (!·.isEmpty) =
        (scope' ++ [name', extension']).filter (!·.isEmpty)) ∧
    ((∀ p ∈ scope ++ [name, extension], p ≠ "") →
      (∀ p ∈ scope' ++ [name', extension'], p ≠ "") →
      ofParts scope name extension = ofParts scope' name' extension' →
      scope = scope' ∧ name = name' ∧ extension = extension') := by
  refine ⟨⟨parts_eq_of_ofParts_eq, fun h => ?_⟩, fun hne hne' h => ?_⟩
  · have hparts : parts scope name extension = parts scope' name' extension' := h
    rw [← String.toList_inj, toList_ofParts, toList_ofParts, hparts]
  · have hparts := parts_eq_of_ofParts_eq h
    have hall {ps : List String} (hps : ∀ p ∈ ps, p ≠ "") : ps.filter (!·.isEmpty) = ps := by
      simpa [List.filter_eq_self] using hps
    rw [parts, parts, hall hne, hall hne'] at hparts
    obtain ⟨hscope, hrest⟩ := List.append_inj' hparts rfl
    exact ⟨hscope, by simpa using hrest⟩

/-- The underscore inside a part is not the one between two parts, and an empty part leaves no
trace. -/
theorem guards_of_underscores_apart :
    ofParts ["a", "b"] "C" "hpp" ≠ ofParts ["a"] "b_C" "hpp" ∧
      ofParts ["a"] "C" "" = ofParts [""] "a" "C" := by
  refine ⟨fun h => ?_, (ofParts_eq_ofParts_iff ["a"] [""] "C" "a" "" "C").1.mpr (by decide)⟩
  obtain ⟨hscope, -⟩ := (ofParts_eq_ofParts_iff ["a", "b"] ["a"] "C" "b_C" "hpp" "hpp").2
    (by decide) (by decide) h
  cases hscope

/-! ### A guard that is one of its parts -/

lemma length_le_length_encode (cs : List Char) : cs.length ≤ (cs.flatMap encodeChar).length := by
  induction cs with
  | nil => exact Nat.zero_le _
  | cons c cs ih =>
    have hc := length_encodeChar_pos c
    rw [List.flatMap_cons, List.length_append, List.length_cons]
    omega

lemma encodeChar_eq_self_iff {c : Char} : encodeChar c = [c] ↔
    c ≠ 'Z' ∧ (Identifier.isLetter c || Identifier.isDigit c) = true := by
  unfold encodeChar
  split
  · next hc => simp [hc]
  · next hz =>
    split
    · next hc =>
      rw [hc]
      decide
    · split
      · next hc => simp [hz, hc]
      · next hc => simp [hc]

/-- Letters other than `Z` and digits stand for themselves, and only they do. -/
lemma encode_eq_self_iff {p : String} : encode p = p.toList ↔
    ∀ c ∈ p.toList, c ≠ 'Z' ∧ (Identifier.isLetter c || Identifier.isDigit c) = true := by
  rw [encode]
  induction p.toList with
  | nil => simp
  | cons c cs ih =>
    rw [List.flatMap_cons, List.forall_mem_cons, ← ih, ← encodeChar_eq_self_iff]
    constructor
    · intro h
      have happend : encodeChar c ++ cs.flatMap encodeChar = [c] ++ cs := h
      -- no code is empty, so both of these have their least length
      have hc := length_encodeChar_pos c
      have hcs := length_le_length_encode cs
      have hlength := congrArg List.length happend
      rw [List.length_append, List.length_append, List.length_singleton] at hlength
      have hone : (encodeChar c).length = [c].length := by
        rw [List.length_singleton]
        omega
      exact List.append_inj happend hone
    · rintro ⟨hc, hcs⟩
      rw [hc, hcs]
      rfl

/-- A guard is longer than each of its parts by what stands for the others. -/
lemma length_add_length_le {p : String} {ps : List String} (hp : p ∈ ps) :
    p.toList.length + ps.length ≤ (['_'].intercalate (ps.map encode)).length + 1 := by
  induction ps generalizing p with
  | nil => cases hp
  | cons q rest ih =>
    have hq : q.toList.length ≤ (encode q).length := length_le_length_encode q.toList
    cases rest with
    | nil =>
      obtain rfl := List.mem_singleton.mp hp
      simpa using hq
    | cons r rest =>
      rw [List.map_cons, List.map_cons, List.intercalate_cons_cons, ← List.map_cons,
        List.length_append, List.length_append, List.length_singleton, List.length_cons]
      rcases List.mem_cons.mp hp with rfl | hp
      · have hr := ih List.mem_cons_self
        omega
      · have hrest := ih hp
        omega

lemma ofParts_eq_part_iff {p : String} (hp : p ∈ parts scope name extension) :
    ofParts scope name extension = p ↔
      parts scope name extension = [p] ∧ encode p = p.toList := by
  constructor
  · intro h
    have hlength := length_add_length_le hp
    rw [← toList_ofParts, h] at hlength
    obtain ⟨q, hq⟩ : ∃ q, parts scope name extension = [q] := by
      refine List.length_eq_one_iff.mp ?_
      have hpos := List.length_pos_of_mem hp
      omega
    rw [hq, List.mem_singleton] at hp
    subst hp
    have hself := toList_ofParts scope name extension
    rw [h, hq] at hself
    exact ⟨hq, by simpa using hself.symm⟩
  · rintro ⟨hparts, hself⟩
    rw [← String.toList_inj, toList_ofParts, hparts]
    simpa using hself

end

end EnumForge.IncludeGuard
