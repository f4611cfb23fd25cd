import Mathlib.Algebra.Group.Int.Defs
import Mathlib.Algebra.Group.Nat.Defs
import EnumForge.Literal
import EnumForge.Proofs.Reading

/-!
Reading the literals of values by the rules of C++: decimal literals that fit their type, with a
minus in front or one subtracted from another, and character literals with their escapes. Every
value that the generated code can hold is read back from its spelling.
-/

namespace EnumForge.Reading

/-! ### Numbers -/

/-- A decimal number. A zero in front would make it an octal one. -/
def decimal? (cs : List Char) : Option Nat :=
  if cs ≠ [] ∧ cs.all Char.isDigit ∧ (cs.head? = some '0' → cs = ['0']) then
    some (Nat.ofDigitChars 10 cs 0)
  else none

/-- A literal that fits a signed number of 64 bits, with or without a minus in front. -/
def signed? : List Char → Option Int
  | '-' :: cs => do
    let n ← decimal? cs
    if n < 2 ^ 63 then some (-n) else none
  | cs => do
    let n ← decimal? cs
    if n < 2 ^ 63 then some n else none

/-- An integer expression: a difference of two signed numbers in brackets, a literal that is marked
as unsigned, or a signed number. What does not fit 64 bits has no value. -/
def integer? (cs : List Char) : Option Int :=
  match cs with
  | '(' :: rest => do
    let (a, b) ← cut? [' ', '-', ' '] (← rest.dropSuffix? [')'])
    let difference := (← signed? a) - (← signed? b)
    if -(2 ^ 63) ≤ difference ∧ difference < 2 ^ 63 then some difference else none
  | _ =>
    match cs.dropSuffix? ['U', 'L', 'L'] with
    | some digits => do
      let n ← decimal? digits
      if n < 2 ^ 64 then some n else none
    | none => signed? cs

lemma head?_toDigits_ne_zero {n : Nat} (h : 0 < n) : (Nat.toDigits 10 n).head? ≠ some '0' := by
  induction n using Nat.strongRecOn with
  | _ n ih =>
    rcases Nat.lt_or_ge n 10 with hlt | hge
    · rw [Nat.toDigits_of_lt_base hlt]
      intro h0
      have hzero : n.digitChar = '0' := by simpa using h0
      have hcode := Nat.toNat_digitChar_of_lt_ten hlt
      rw [hzero] at hcode
      change 48 = 48 + n at hcode
      omega
    · rw [Nat.toDigits_of_base_le (by decide) hge,
        List.head?_append_of_ne_nil _ Nat.toDigits_ne_nil]
      exact ih (n / 10) (by omega) (by omega)

lemma decimal?_toDigits (n : Nat) : decimal? (Nat.toDigits 10 n) = some n := by
  have hdigits : (Nat.toDigits 10 n).all Char.isDigit := by
    rw [List.all_eq_true]
    exact fun c hc => Nat.isDigit_of_mem_toDigits (by decide) (by decide) hc
  have hzero : (Nat.toDigits 10 n).head? = some '0' → Nat.toDigits 10 n = ['0'] := by
    intro h0
    rcases Nat.eq_zero_or_pos n with rfl | hpos
    · exact Nat.toDigits_zero 10
    · exact absurd h0 (head?_toDigits_ne_zero hpos)
  rw [decimal?, if_pos ⟨Nat.toDigits_ne_nil, hdigits, hzero⟩, Nat.ofDigitChars_ten_toDigits]

lemma not_mem_toDigits {c : Char} (h : c.isDigit = false) (n : Nat) : c ∉ Nat.toDigits 10 n := by
  intro hc
  rw [Nat.isDigit_of_mem_toDigits (by decide) (by decide) hc] at h
  cases h

lemma toList_toString_of_nonneg {i : Int} (h : 0 ≤ i) :
    (toString i).toList = Nat.toDigits 10 i.toNat := by
  rw [Int.toString_eq_repr, Int.repr_eq_if, if_pos h, Nat.toList_repr]

lemma toList_toString_of_neg {i : Int} (h : i < 0) :
    (toString i).toList = '-' :: Nat.toDigits 10 (-i).toNat := by
  rw [Int.toString_eq_repr, Int.repr_eq_if, if_neg (by omega), String.toList_append,
    Nat.toList_repr]
  rfl

lemma signed?_of_nonneg {cs : List Char} (h : '-' ∉ cs) :
    signed? cs = (decimal? cs).bind fun n => if n < 2 ^ 63 then some (n : Int) else none := by
  cases cs with
  | nil => rfl
  | cons c cs =>
    have hc : c ≠ '-' := fun heq => h (heq ▸ List.mem_cons_self)
    unfold signed?
    split
    · next heq => exact absurd (List.cons.inj heq).1 hc
    · rfl

lemma signed?_toString {i : Int} (hlow : -(2 ^ 63) < i) (hhigh : i < 2 ^ 63) :
    signed? (toString i).toList = some i := by
  rcases Int.lt_or_le i 0 with hneg | hpos
  · have hfit : (-i).toNat < 2 ^ 63 := by omega
    rw [toList_toString_of_neg hneg, signed?, decimal?_toDigits, Option.bind_eq_bind,
      Option.bind_some, if_pos hfit]
    congr 1
    omega
  · have hfit : i.toNat < 2 ^ 63 := by omega
    rw [toList_toString_of_nonneg hpos, signed?_of_nonneg (not_mem_toDigits (by decide) _),
      decimal?_toDigits, Option.bind_some, if_pos hfit]
    congr 1
    omega

lemma not_mem_toString {c : Char} (hdigit : c.isDigit = false) (hminus : c ≠ '-') (i : Int) :
    c ∉ (toString i).toList := by
  rcases Int.lt_or_le i 0 with hneg | hpos
  · rw [toList_toString_of_neg hneg, List.mem_cons, not_or]
    exact ⟨hminus, not_mem_toDigits hdigit _⟩
  · rw [toList_toString_of_nonneg hpos]
    exact not_mem_toDigits hdigit _

lemma integer?_of_not_mem {cs : List Char} (hopen : '(' ∉ cs) (hmark : 'L' ∉ cs) :
    integer? cs = signed? cs := by
  have hdrop : cs.dropSuffix? ['U', 'L', 'L'] = none := by
    rw [Option.eq_none_iff_forall_not_mem]
    intro before h
    obtain ⟨mark, rfl, heq⟩ := List.dropSuffix?_eq_some_iff.mp h
    rw [eq_of_beq heq] at hmark
    simp at hmark
  cases cs with
  | nil => rfl
  | cons c cs =>
    have hc : c ≠ '(' := fun heq => hopen (heq ▸ List.mem_cons_self)
    unfold integer?
    split
    · next heq => exact absurd (List.cons.inj heq).1 hc
    · rw [hdrop]

lemma integer?_marked {n : Nat} (h : n < 2 ^ 64) :
    integer? (Nat.toDigits 10 n ++ ['U', 'L', 'L']) = some (n : Int) := by
  obtain ⟨c, cs, hcs⟩ := List.exists_cons_of_ne_nil (@Nat.toDigits_ne_nil n 10)
  have hc : c ≠ '(' := by
    rintro rfl
    exact not_mem_toDigits (by decide) n (hcs ▸ List.mem_cons_self)
  unfold integer?
  split
  · next heq =>
    rw [hcs, List.cons_append] at heq
    exact absurd (List.cons.inj heq).1 hc
  · rw [dropSuffix?_append]
    simp only [decimal?_toDigits, Option.bind_eq_bind, Option.bind_some]
    rw [if_pos h]

lemma integer?_difference {i : Int} (hlow : -(2 ^ 63) < i) (hhigh : i < 0) :
    integer? ('(' :: ((toString i).toList ++ [' ', '-', ' ', '1', ')'])) = some (i - 1) := by
  have hone : signed? ['1'] = some 1 := by decide
  have hdrop : ((toString i).toList ++ [' ', '-', ' ', '1', ')']).dropSuffix? [')'] =
      some ((toString i).toList ++ [' ', '-', ' ', '1']) := by
    have h := dropSuffix?_append ((toString i).toList ++ [' ', '-', ' ', '1']) [')']
    simpa using h
  have hcut : cut? [' ', '-', ' '] ((toString i).toList ++ [' ', '-', ' ', '1']) =
      some ((toString i).toList, ['1']) :=
    cut?_append (not_mem_toString (by decide) (by decide) i) ['-', ' '] ['1']
  have hrange : -(2 ^ 63) ≤ i - 1 ∧ i - 1 < 2 ^ 63 := by omega
  simp only [integer?, hdrop, hcut, signed?_toString hlow (by omega), hone, Option.bind_eq_bind,
    Option.bind_some]
  rw [if_pos hrange]

/-- The spelling of a number that 64 bits can hold reads as this number. -/
theorem integer?_literal {i : Int} (hlow : -(2 ^ 63) ≤ i) (hhigh : i < 2 ^ 64) :
    integer? (Literal.integer i).toList = some i := by
  have hlimit : (Literal.signedLimit : Int) = 2 ^ 63 := rfl
  unfold Literal.integer
  rw [hlimit]
  split
  · next hleast =>
    have h := @integer?_difference (i + 1) (by omega) (by omega)
    simpa using h
  · next hleast =>
    split
    · next hgreat =>
      have h := @integer?_marked i.toNat (by omega)
      rw [String.toList_append, toList_toString_of_nonneg (by omega)]
      rw [Int.toNat_of_nonneg (by omega)] at h
      exact h
    · next hsmall =>
      rw [integer?_of_not_mem (not_mem_toString (by decide) (by decide) i)
        (not_mem_toString (by decide) (by decide) i)]
      exact signed?_toString (by omega) (by omega)

/-! ### Characters -/

/-- What a backslash and one character stand for. -/
def simpleEscapes : List (Char × Char) := [
  ('\x27', '\x27'), ('\x22', '\x22'), ('?', '?'), ('\\', '\\'), ('a', '\x07'), ('b', '\x08'),
  ('f', '\x0c'), ('n', '\n'), ('r', '\r'), ('t', '\t'), ('v', '\x0b')]

/-- The value of a digit below the base. -/
def digit? (base : Nat) (c : Char) : Option Nat :=
  let n :=
    if c.isDigit then c.toNat - 48
    else if 'a' ≤ c ∧ c ≤ 'f' then c.toNat - 87
    else if 'A' ≤ c ∧ c ≤ 'F' then c.toNat - 55
    else base
  if n < base then some n else none

/-- The ASCII character whose number is written in the base. -/
def numbered? (base : Nat) (cs : List Char) : Option Char := do
  let n ← cs.foldlM (fun n c => (digit? base c).map (base * n + ·)) 0
  if cs ≠ [] ∧ n < 128 then some (.ofNat n) else none

/-- What stands behind a backslash: one character, a hexadecimal number behind an `x`, or up to
three octal digits. -/
def escaped? (cs : List Char) : Option Char :=
  match cs with
  | 'x' :: digits => numbered? 16 digits
  | _ =>
    match cs.head?.bind fun c => List.lookup c simpleEscapes with
    | some c => if cs.length = 1 then some c else none
    | none => if cs.length ≤ 3 then numbered? 8 cs else none

/-- A character literal. -/
def character? : List Char → Option Char
  | '\x27' :: rest => do
    match ← rest.dropSuffix? ['\x27'] with
    | '\\' :: cs => escaped? cs
    | [c] => if c = '\x27' ∨ c = '\n' then none else some c
    | _ => none
  | _ => none

lemma numbered?_two_digits {n : Nat} (h : n < 128) :
    numbered? 16 [Nat.digitChar (n / 16), Nat.digitChar (n % 16)] = some (.ofNat n) := by
  have hall : ∀ m : Fin 128, numbered? 16 [Nat.digitChar (m / 16), Nat.digitChar (m % 16)] =
      some (.ofNat m) := by decide
  exact hall ⟨n, h⟩

lemma character?_quoted (body : List Char) :
    character? ('\x27' :: (body ++ ['\x27'])) =
      match body with
      | '\\' :: cs => escaped? cs
      | [c] => if c = '\x27' ∨ c = '\n' then none else some c
      | _ => none := by
  rw [character?, dropSuffix?_append]
  rfl

/-- The spelling of a character reads as this character. -/
theorem character?_literal (c : Char) : character? (Literal.character c).toList = some c := by
  rw [Literal.character, String.toList_ofList, character?_quoted]
  unfold Literal.escape
  by_cases hmark : (c = '\x27' || c = '\\') = true
  · rw [if_pos hmark]
    rcases (by simpa using hmark : c = '\x27' ∨ c = '\\') with rfl | rfl <;> decide
  rw [if_neg hmark]
  by_cases hn : c = '\n'
  · subst hn; decide
  by_cases hr : c = '\r'
  · subst hr; decide
  by_cases ht : c = '\t'
  · subst ht; decide
  by_cases hzero : c = '\x00'
  · subst hzero; decide
  rw [if_neg hn, if_neg hr, if_neg ht, if_neg hzero]
  by_cases hcontrol : (c.toNat < 32 || c.toNat = 127) = true
  · rw [if_pos hcontrol]
    have hlt : c.toNat < 128 := by
      rw [Bool.or_eq_true, decide_eq_true_eq, decide_eq_true_eq] at hcontrol
      omega
    have hcode := numbered?_two_digits hlt
    rw [Char.ofNat_toNat] at hcode
    exact hcode
  · have hne : c ≠ '\x27' ∧ c ≠ '\\' := by simpa using hmark
    rw [if_neg hcontrol]
    simp [hne.1, hne.2, hn]

/-! ### Values -/

/-- The value that a literal spells. -/
def value? (cs : List Char) : Option Value :=
  if cs.head? = some '\x27' then (character? cs).map .char else (integer? cs).map .integer

lemma not_mem_integer {c : Char} (hdigit : c.isDigit = false)
    (hmark : c ∉ ['-', '(', ')', ' ', 'U', 'L']) (i : Int) : c ∉ (Literal.integer i).toList := by
  have hminus : c ≠ '-' := fun h => hmark (h ▸ List.mem_cons_self)
  have hnumber := not_mem_toString hdigit hminus
  have hone : c ≠ '1' := by rintro rfl; cases hdigit
  unfold Literal.integer
  split
  · rw [String.toList_append, String.toList_append, List.mem_append, List.mem_append]
    rintro ((hc | hc) | hc)
    · exact hmark (by simp_all)
    · exact hnumber _ hc
    · exact hmark (by simp_all)
  · split
    · rw [String.toList_append, List.mem_append]
      rintro (hc | hc)
      · exact hnumber _ hc
      · exact hmark (by simp_all)
    · exact hnumber i

lemma head?_integer_ne_quote (i : Int) : (Literal.integer i).toList.head? ≠ some '\x27' :=
  fun h => not_mem_integer (by decide) (by decide) i (List.mem_of_head? h)

lemma newline_not_mem_escape (c : Char) : '\n' ∉ Literal.escape c := by
  unfold Literal.escape
  split_ifs with hmark hn hr ht hzero hcontrol
  · rcases (by simpa using hmark : c = '\x27' ∨ c = '\\') with rfl | rfl <;> decide
  · decide
  · decide
  · decide
  · decide
  · simp
  · simpa using Ne.symm hn

/-- No literal is broken over two lines. -/
lemma newline_not_mem_value (v : Value) : '\n' ∉ (Literal.value v).toList := by
  cases v with
  | integer i => exact not_mem_integer (by decide) (by decide) i
  | char c =>
    rw [Literal.value, Literal.character, String.toList_ofList]
    simp [newline_not_mem_escape c]

/-- **Literals**: a value is read back from its spelling, if it is a character or a number that 64
bits can hold. -/
theorem value?_literal {v : Value}
    (h : ∀ i, v = .integer i → -(2 ^ 63) ≤ i ∧ i < 2 ^ 64) :
    value? (Literal.value v).toList = some v := by
  cases v with
  | integer i =>
    obtain ⟨hlow, hhigh⟩ := h i rfl
    rw [Literal.value, value?, if_neg (head?_integer_ne_quote i), integer?_literal hlow hhigh]
    rfl
  | char c =>
    have hhead : (Literal.character c).toList.head? = some '\x27' := by
      rw [Literal.character, String.toList_ofList]
      rfl
    rw [Literal.value, value?, if_pos hhead, character?_literal]
    rfl

end EnumForge.Reading
