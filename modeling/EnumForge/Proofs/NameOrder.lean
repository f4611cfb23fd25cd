import Mathlib.Logic.Function.Basic
import Mathlib.Tactic.Lemma
import Mathlib.Tactic.SplitIfs
import EnumForge.Text.Utf8

/-!
The order of names is a strict total order. It is the lexicographic order of their bytes, and two
names with the same bytes are one name. So the comparison that is made of it is consistent and tells
all names apart.
-/

namespace EnumForge.Text

lemma bytesLess_iff_lt (a b : Bytes) : bytesLess a b ↔ a < b := by
  induction a generalizing b with
  | nil => cases b <;> simp [bytesLess]
  | cons x xs ih =>
    cases b with
    | nil => simp [bytesLess]
    | cons y ys => simp [bytesLess, List.cons_lt_cons_iff, ih]

/-! ### Names and their bytes -/

/-- Codes that are read back one after another tell lists apart. -/
lemma flatMap_injective_of_read {α β : Type} {code : α → List β}
    {read : List β → Option (α × List β)} (hnil : read [] = none)
    (hread : ∀ a rest, read (code a ++ rest) = some (a, rest)) :
    Function.Injective (List.flatMap code) := by
  intro xs
  induction xs with
  | nil =>
    intro ys h
    cases ys with
    | nil => rfl
    | cons y ys =>
      have hy := hread y (ys.flatMap code)
      rw [← List.flatMap_cons, ← h, List.flatMap_nil, hnil] at hy
      cases hy
  | cons x xs ih =>
    intro ys h
    have hx := hread x (xs.flatMap code)
    rw [← List.flatMap_cons, h] at hx
    cases ys with
    | nil =>
      rw [List.flatMap_nil, hnil] at hx
      cases hx
    | cons y ys =>
      rw [List.flatMap_cons, hread] at hx
      obtain ⟨rfl, hrest⟩ := Prod.mk.inj (Option.some.inj hx)
      rw [ih hrest.symm]

lemma flatMap_utf8_injective :
    Function.Injective fun cs : List Char => cs.flatMap String.utf8EncodeChar :=
  flatMap_injective_of_read rfl char?_utf8EncodeChar

lemma bytes_injective : Function.Injective bytes :=
  flatMap_utf8_injective.comp fun _ _ h => String.toList_inj.mp h

/-! ### The order -/

lemma less_iff_lt (a b : String) : less a b ↔ bytes a < bytes b := bytesLess_iff_lt _ _

lemma less_irrefl (a : String) : less a a = false := by
  rw [Bool.eq_false_iff, Ne, less_iff_lt]
  exact List.lt_irrefl _

lemma less_trans {a b c : String} (hab : less a b) (hbc : less b c) : less a c := by
  rw [less_iff_lt] at hab hbc ⊢
  exact List.lt_trans hab hbc

lemma less_asymm {a b : String} (h : less a b) : less b a = false := by
  rw [Bool.eq_false_iff]
  intro h'
  have := less_trans h h'
  rw [less_irrefl] at this
  cases this

lemma not_less_iff (a b : String) : less a b = false ↔ bytes b ≤ bytes a := by
  rw [Bool.eq_false_iff, Ne, less_iff_lt, List.not_lt]

lemma not_less_trans {a b c : String} (hba : less b a = false) (hcb : less c b = false) :
    less c a = false := by
  rw [not_less_iff] at hba hcb ⊢
  exact List.le_trans hba hcb

lemma less_of_not_less_of_less {a b c : String} (hba : less b a = false) (hbc : less b c) :
    less a c := by
  rw [not_less_iff] at hba
  rw [less_iff_lt] at hbc ⊢
  exact List.lt_of_le_of_lt hba hbc

/-- Names that are not ordered either way are equal. -/
lemma eq_of_not_less {a b : String} (hab : less a b = false) (hba : less b a = false) : a = b := by
  rw [not_less_iff] at hab hba
  exact bytes_injective (List.le_antisymm hba hab)

/-! ### The comparison of names -/

lemma order_eq_lt_iff {a b : String} : order a b = .lt ↔ less a b := by
  unfold order
  split_ifs with hab hba <;> simp [hab]

lemma isLE_order (a b : String) : (order a b).isLE = !less b a := by
  unfold order
  split_ifs with hab hba
  · rw [less_asymm hab]
    rfl
  · rw [hba]
    rfl
  · rw [Bool.eq_false_iff.mpr hba]
    rfl

instance : Std.TransCmp order where
  eq_swap {a b} := by
    unfold order
    split_ifs with hab hba hba
    · rw [less_asymm hab] at hba
      cases hba
    · rfl
    · rfl
    · rfl
  isLE_trans {a b c} hab hbc := by
    rw [isLE_order, Bool.not_eq_true'] at hab hbc ⊢
    exact not_less_trans hab hbc

/-- Only a name itself compares as equal to it. -/
instance : Std.LawfulEqCmp order where
  compare_self {a} := by simp [order, less_irrefl]
  eq_of_compare {a b} h := by
    unfold order at h
    split_ifs at h with hab hba
    exact eq_of_not_less (Bool.eq_false_iff.mpr hab) (Bool.eq_false_iff.mpr hba)

end EnumForge.Text
