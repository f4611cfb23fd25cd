import Mathlib.Data.List.TakeWhile
import EnumForge.Proofs.CharacterBytes
import EnumForge.Proofs.NameOrder

/-!
Zero-terminated strings, which end at their first zero. Their order is that of the bytes in front of
it, so for names, which hold no zero, it is the order of names.
-/

namespace EnumForge.Text

/-- The bytes in front of the first zero. -/
def untilZero (b : Bytes) : Bytes := b.takeWhile (· != 0)

/-- Compares byte by byte up to a zero in both or the first difference. The end of a byte string is
a zero. -/
def zeroTerminatedLess : Bytes → Bytes → Bool
  | _, [] => false
  | [], b :: _ => 0 < b
  | a :: as, b :: bs => if a = b then a != 0 && zeroTerminatedLess as bs else a < b

lemma untilZero_of_not_mem {b : Bytes} (h : 0 ∉ b) : untilZero b = b := by
  refine List.takeWhile_eq_self_iff.mpr fun x hx => ?_
  rw [bne_iff_ne]
  rintro rfl
  exact h hx

/-- A zero at the end changes nothing. -/
lemma untilZero_concat_zero (b : Bytes) : untilZero (b ++ [0]) = untilZero b := by
  induction b with
  | nil => rfl
  | cons x xs ih =>
    unfold untilZero at ih ⊢
    rw [List.cons_append, List.takeWhile_cons, List.takeWhile_cons, ih]

lemma zeroTerminatedLess_iff (a b : Bytes) :
    zeroTerminatedLess a b ↔ untilZero a < untilZero b := by
  induction a generalizing b with
  | nil =>
    cases b with
    | nil => simp [zeroTerminatedLess, untilZero]
    | cons y ys =>
      by_cases hy : y = 0
      · simp [zeroTerminatedLess, untilZero, hy]
      · simp [zeroTerminatedLess, untilZero, hy, UInt8.pos_iff_ne_zero]
  | cons x xs ih =>
    cases b with
    | nil => simp [zeroTerminatedLess, untilZero]
    | cons y ys =>
      simp only [untilZero] at ih
      by_cases hx : x = 0
      · by_cases hy : y = 0
        · simp [zeroTerminatedLess, untilZero, hx, hy]
        · simp [zeroTerminatedLess, untilZero, hx, hy, Ne.symm hy, UInt8.pos_iff_ne_zero]
      · by_cases hy : y = 0
        · simp [zeroTerminatedLess, untilZero, hx, hy]
        · by_cases hxy : x = y
          · simp [zeroTerminatedLess, untilZero, hxy, hy, ih]
          · simp [zeroTerminatedLess, untilZero, hxy, hx, hy, List.cons_lt_cons_iff]

/-! ### Names -/

lemma zero_not_mem_bytes {s : String} (h : '\x00' ∉ s.toList) : 0 ∉ bytes s := by
  intro hmem
  obtain ⟨c, hc, hzero⟩ := List.mem_flatMap.mp hmem
  have hne : c ≠ '\x00' := fun heq => h (heq ▸ hc)
  exact zero_not_mem_utf8EncodeChar hne hzero

end EnumForge.Text
