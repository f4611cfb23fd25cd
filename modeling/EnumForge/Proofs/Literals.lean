import EnumForge.Proofs.LiteralReading
import EnumForge.Proofs.Tokens

/-!
What a compiler makes of literals. Every decimal literal that a spelling is made of fits its type,
no character is spelled with a control character, and no two values share a spelling, be they as
great as they like.
-/

namespace EnumForge.Literal

open Reading Token Identifier

/-! ### Decimal literals -/

/-- A decimal literal that fits its type: a signed number, or one that is marked as unsigned, of 64
bits. -/
def FitsType (w : String) : Prop :=
  (∃ n < 2 ^ 63, w = toString n) ∨ ∃ n < 2 ^ 64, w = toString n ++ "ULL"

lemma isMark_of_mem_toDigits {n : Nat} {c : Char} (hc : c ∈ Nat.toDigits 10 n) :
    isMark c = false := by
  have hdigit : c.isDigit := Nat.isDigit_of_mem_toDigits (by decide) (by decide) hc
  have hdigit' : isDigit c := by
    simpa [Char.isDigit, isDigit, Char.le_def] using hdigit
  simp [isMark, hdigit']

/-- A number and the letters behind it are one word. -/
lemma ofChars_number (n : Nat) (mark : List Char) (hmark : mark.all (!isMark ·)) :
    ofChars (Nat.toDigits 10 n ++ mark) = [word (.ofList (Nat.toDigits 10 n ++ mark))] := by
  have hne : Nat.toDigits 10 n ++ mark ≠ [] := by simp [Nat.toDigits_ne_nil]
  have hchars : ∀ c ∈ Nat.toDigits 10 n ++ mark, isMark c = false := by
    rw [List.forall_mem_append]
    exact ⟨fun c => isMark_of_mem_toDigits, by simpa using hmark⟩
  have hrest : beginsWord [] = false := rfl
  have hword := ofChars_word hne hchars hrest
  rwa [List.append_nil] at hword

lemma ofList_toDigits (n : Nat) : String.ofList (Nat.toDigits 10 n) = toString n := by
  rw [← String.toList_inj, String.toList_ofList, Nat.toString_eq_repr, Nat.toList_repr]

lemma ofChars_toDigits (n : Nat) : ofChars (Nat.toDigits 10 n) = [word (toString n)] := by
  have hnumber := ofChars_number n [] rfl
  rwa [List.append_nil, ofList_toDigits] at hnumber

lemma ofText_toString_of_nonneg {i : Int} (h : 0 ≤ i) :
    ofText (toString i) = [word (toString i.toNat)] := by
  rw [ofText, toList_toString_of_nonneg h, ofChars_toDigits]

/-- A minus is not part of the literal behind it. -/
lemma ofText_toString_of_neg {i : Int} (h : i < 0) :
    ofText (toString i) = [mark '-', word (toString (-i).toNat)] := by
  have hcolon : '-' = ':' → (Nat.toDigits 10 (-i).toNat).head? ≠ some ':' :=
    fun h => absurd h (by decide)
  rw [ofText, toList_toString_of_neg h, ofChars_mark _ rfl rfl hcolon, ofChars_toDigits]

lemma ofText_marked {i : Int} (h : 0 ≤ i) :
    ofText (toString i ++ "ULL") = [word (toString i.toNat ++ "ULL")] := by
  have hmark : "ULL".toList = ['U', 'L', 'L'] := rfl
  have hnumber := ofChars_number i.toNat ['U', 'L', 'L'] rfl
  rw [ofText, String.toList_append, toList_toString_of_nonneg h, hmark, hnumber,
    String.ofList_append, ofList_toDigits]

lemma ofText_least :
    ofText (integer (-signedLimit)) = [mark '(', mark '-', word "9223372036854775807", mark '-',
      word "1", mark ')'] := by
  decide +kernel

/-- The literals in the spelling of a number that 64 bits can hold fit their types. -/
theorem fitsType_of_mem_ofText {i : Int} (hlow : -(2 ^ 63) ≤ i) (hhigh : i < 2 ^ 64) {w : String}
    (hw : word w ∈ ofText (integer i)) : FitsType w := by
  have hlimit : (signedLimit : Int) = 2 ^ 63 := rfl
  by_cases hleast : i = -signedLimit
  · rw [hleast, ofText_least] at hw
    rcases (by simpa using hw : w = "9223372036854775807" ∨ w = "1") with rfl | rfl
    · exact .inl ⟨9223372036854775807, by decide, rfl⟩
    · exact .inl ⟨1, by decide, rfl⟩
  rw [integer, if_neg hleast] at hw
  split at hw
  · next hgreat =>
    rw [ofText_marked (by omega), List.mem_singleton, word.injEq] at hw
    exact .inr ⟨i.toNat, by omega, hw⟩
  · next hsmall =>
    rcases Int.lt_or_le i 0 with hneg | hpos
    · rw [ofText_toString_of_neg hneg] at hw
      exact .inl ⟨(-i).toNat, by omega, by simpa using hw⟩
    · rw [ofText_toString_of_nonneg hpos] at hw
      exact .inl ⟨i.toNat, by omega, by simpa using hw⟩

/-! ### Characters -/

/-- A control character of ASCII. -/
def isControl (c : Char) : Bool := c.toNat < 32 || c.toNat == 127

lemma isControl_digitChar (n : Nat) : isControl (Nat.digitChar (n % 16)) = false := by
  have hall : ∀ m : Fin 16, isControl (Nat.digitChar m) = false := by decide
  exact hall ⟨n % 16, Nat.mod_lt n (by decide)⟩

/-- Control characters are spelled by their escapes. -/
lemma all_escape (c : Char) : (escape c).all (!isControl ·) := by
  unfold escape
  split_ifs with hmark hn hr ht hzero hcontrol
  · rcases (by simpa using hmark : c = '\x27' ∨ c = '\\') with rfl | rfl <;> rfl
  · rfl
  · rfl
  · rfl
  · rfl
  · have hlt : c.toNat / 16 < 16 := by
      rw [Bool.or_eq_true, decide_eq_true_eq, decide_eq_true_eq] at hcontrol
      omega
    have hfirst := isControl_digitChar (c.toNat / 16)
    rw [Nat.mod_eq_of_lt hlt] at hfirst
    have hback : isControl '\\' = false := rfl
    have hx : isControl 'x' = false := rfl
    simp [hback, hx, hfirst, isControl_digitChar]
  · simpa [isControl] using hcontrol

lemma isControl_of_mem_character {c x : Char} (hx : x ∈ (character c).toList) :
    isControl x = false := by
  have hescape : ∀ x ∈ escape c, isControl x = false := by simpa using all_escape c
  have hquote : isControl '\x27' = false := rfl
  rw [character, String.toList_ofList, List.mem_cons, List.mem_append, List.mem_singleton] at hx
  rcases hx with rfl | hx | rfl
  · exact hquote
  · exact hescape x hx
  · exact hquote

/-! ### Different values -/

lemma open_mem_integer_iff {i : Int} : '(' ∈ (integer i).toList ↔ i = -signedLimit := by
  have hopen (j : Int) : '(' ∉ j.repr.toList := not_mem_toString rfl (by decide) j
  unfold integer
  split_ifs with hleast hgreat
  · simp [hleast]
  · simp [hopen, hleast]
  · simp [hopen, hleast]

lemma mark_mem_integer_iff {i : Int} : 'U' ∈ (integer i).toList ↔ (signedLimit : Int) ≤ i := by
  have hmark (j : Int) : 'U' ∉ j.repr.toList := not_mem_toString rfl (by decide) j
  have hlimit : (signedLimit : Int) = 2 ^ 63 := rfl
  unfold integer
  split_ifs with hleast hgreat
  · have hless : ¬ (signedLimit : Int) ≤ i := by omega
    simp [hmark, hless]
  · simp [hgreat]
  · simp [hmark, hgreat]

/-- The bracket and the mark tell the three spellings of numbers apart. -/
lemma integer_injective : Function.Injective integer := by
  intro i j h
  have htoString {a b : Int} (hab : toString a = toString b) : a = b := by
    rwa [Int.toString_eq_repr, Int.toString_eq_repr, Int.repr_inj] at hab
  have hleast : i = -signedLimit ↔ j = -signedLimit := by
    rw [← open_mem_integer_iff, h, open_mem_integer_iff]
  have hgreat : (signedLimit : Int) ≤ i ↔ (signedLimit : Int) ≤ j := by
    rw [← mark_mem_integer_iff, h, mark_mem_integer_iff]
  by_cases hi : i = -signedLimit
  · rw [hi, hleast.mp hi]
  rw [integer, integer, if_neg hi, if_neg (mt hleast.mpr hi)] at h
  by_cases hi' : (signedLimit : Int) ≤ i
  · rw [if_pos hi', if_pos (hgreat.mp hi')] at h
    exact htoString (by simpa using h)
  · rw [if_neg hi', if_neg (mt hgreat.mpr hi')] at h
    exact htoString h

theorem value_injective : Function.Injective value := by
  have hhead (c : Char) : (character c).toList.head? = some '\x27' := by
    rw [character, String.toList_ofList]
    rfl
  intro v w h
  cases v with
  | integer i =>
    cases w with
    | integer j => exact congrArg Value.integer (integer_injective h)
    | char c =>
      have hi := head?_integer_ne_quote i
      rw [show integer i = character c from h, hhead] at hi
      exact absurd rfl hi
  | char c =>
    cases w with
    | integer j =>
      have hj := head?_integer_ne_quote j
      rw [show integer j = character c from h.symm, hhead] at hj
      exact absurd rfl hj
    | char c' =>
      have hread := character?_literal c
      rw [show character c = character c' from h, character?_literal c'] at hread
      rw [Option.some.inj hread]

/-- **Literals**: the spelling of a number that 64 bits can hold is an expression of this value,
whose decimal literals all fit their types; that of an ASCII character is a literal that stands for
it and shows no control character; and values that are spelled alike are the same, of whatever size
the numbers and from wherever in Unicode the characters are. -/
theorem spelling_faithful :
    (∀ i : Int, -(2 ^ 63) ≤ i → i < 2 ^ 64 →
      integer? (value (.integer i)).toList = some i ∧
        ∀ w, word w ∈ ofText (value (.integer i)) → FitsType w) ∧
    (∀ c : Char, c.toNat < 128 →
      character? (value (.char c)).toList = some c ∧
        ∀ x ∈ (value (.char c)).toList, isControl x = false) ∧
    ∀ v w, value v = value w → v = w := by
  refine ⟨fun i hlow hhigh => ⟨integer?_literal hlow hhigh, fun w hw => ?_⟩,
    fun c _ => ⟨character?_literal c, fun x hx => ?_⟩, fun v w h => value_injective h⟩
  · exact fitsType_of_mem_ofText hlow hhigh hw
  · exact isControl_of_mem_character hx

/-- The least and the greatest number, and a control character. -/
theorem extremes_spelled :
    integer? "(-9223372036854775807 - 1)".toList = some (-(2 ^ 63)) ∧
      FitsType "9223372036854775807" ∧
      integer? "18446744073709551615ULL".toList = some (2 ^ 64 - 1) ∧
      FitsType "18446744073709551615ULL" ∧
      character? "\x27\\x7f\x27".toList = some '\x7f' := by
  obtain ⟨hnumbers, hcharacters, -⟩ := spelling_faithful
  obtain ⟨hleast, hleastFits⟩ := hnumbers (-(2 ^ 63)) (by decide) (by decide)
  obtain ⟨hgreatest, hgreatestFits⟩ := hnumbers (2 ^ 64 - 1) (by decide) (by decide)
  obtain ⟨hdelete, -⟩ := hcharacters '\x7f' (by decide)
  refine ⟨hleast, hleastFits _ ?_, hgreatest, hgreatestFits _ ?_, hdelete⟩
  · decide +kernel
  · decide +kernel

end EnumForge.Literal
