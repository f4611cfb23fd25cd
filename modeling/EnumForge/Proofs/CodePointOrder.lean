import Mathlib.Data.List.Basic
import EnumForge.Proofs.ZeroTerminated

/-!
The order of names by their bytes is the order by their code points, and for names without a zero it
is the order of zero-terminated strings.
-/

namespace EnumForge.Text

/-! ### Code points -/

/-- The numbers of the characters of a text. -/
def codePoints (s : String) : List Nat := s.toList.map Char.toNat

lemma codePoints_injective : Function.Injective codePoints :=
  (Function.Injective.list_map fun _ _ h => Char.toNat_inj.mp h).comp
    fun _ _ h => String.toList_inj.mp h

lemma bytes_lt_of_codePoints_lt {a b : String} (h : codePoints a < codePoints b) :
    bytes a < bytes b := by
  unfold codePoints at h
  unfold bytes
  generalize a.toList = cs at h
  generalize b.toList = ds at h
  induction cs generalizing ds with
  | nil =>
    cases ds with
    | nil => exact absurd h (List.not_lt_nil _)
    | cons d ds =>
      obtain ⟨rest, hd⟩ := exists_utf8EncodeChar_eq_cons d
      rw [List.flatMap_cons, hd]
      exact List.nil_lt_cons _ _
  | cons c cs ih =>
    cases ds with
    | nil => exact absurd h (List.not_lt_nil _)
    | cons d ds =>
      rw [List.flatMap_cons, List.flatMap_cons]
      rcases List.cons_lt_cons_iff.mp h with hlt | ⟨heq, hrest⟩
      · exact precedes_utf8EncodeChar hlt _ _
      · rw [Char.toNat_inj.mp heq]
        exact List.append_left_lt (ih ds hrest)

/-- One direction is enough, since both orders are total. -/
lemma less_iff_codePoints_lt (a b : String) : less a b ↔ codePoints a < codePoints b := by
  rw [less_iff_lt]
  refine ⟨fun h => ?_, bytes_lt_of_codePoints_lt⟩
  rcases Std.lt_trichotomy (codePoints a) (codePoints b) with hlt | heq | hgt
  · exact hlt
  · rw [codePoints_injective heq] at h
    exact absurd h (List.lt_irrefl _)
  · exact absurd (List.lt_trans h (bytes_lt_of_codePoints_lt hgt)) (List.lt_irrefl _)

/-! ### All together -/

/-- **Order of names**: it is a strict total order, so the comparison made of it is consistent and
tells all names apart; it is the lexicographic order of the code points; and for names without a
zero it is the order of their zero-terminated bytes. -/
theorem less_orders_codePoints :
    ((∀ a, less a a = false) ∧ (∀ a b c, less a b → less b c → less a c) ∧
        ∀ a b, less a b = false → less b a = false → a = b) ∧
      (Std.TransCmp order ∧ Std.LawfulEqCmp order ∧ ∀ a b, order a b = .lt ↔ less a b) ∧
      (∀ a b, less a b ↔ codePoints a < codePoints b) ∧
      ∀ a b, '\x00' ∉ a.toList → '\x00' ∉ b.toList →
        less a b = zeroTerminatedLess (bytes a ++ [0]) (bytes b ++ [0]) := by
  refine ⟨⟨less_irrefl, fun _ _ _ => less_trans, fun _ _ => eq_of_not_less⟩,
    ⟨inferInstance, inferInstance, fun _ _ => order_eq_lt_iff⟩, less_iff_codePoints_lt,
    fun a b ha hb => ?_⟩
  rw [Bool.eq_iff_iff, less_iff_lt, zeroTerminatedLess_iff, untilZero_concat_zero,
    untilZero_concat_zero, untilZero_of_not_mem (zero_not_mem_bytes ha),
    untilZero_of_not_mem (zero_not_mem_bytes hb)]

/-- The last character of three bytes and the first of four. -/
theorem threeBytes_less_fourBytes :
    less "\uffff" "𐀀" ∧ order "𐀀" "\uffff" = .gt ∧
      zeroTerminatedLess (bytes "\uffff" ++ [0]) (bytes "𐀀" ++ [0]) := by
  obtain ⟨-, ⟨_, -, hlt⟩, hpoints, hzero⟩ := less_orders_codePoints
  have hless : less "\uffff" "𐀀" := (hpoints _ _).mpr (by decide)
  have hgt := Std.OrientedCmp.gt_iff_lt.mpr ((hlt _ _).mpr hless)
  rw [← hzero _ _ (by decide) (by decide)]
  exact ⟨hless, hgt, hless⟩

end EnumForge.Text
