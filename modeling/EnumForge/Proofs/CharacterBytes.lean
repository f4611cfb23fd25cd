import Mathlib.Tactic.Lemma
import Mathlib.Tactic.SplitIfs
import EnumForge.Text.Utf8

/-!
The bytes of a character are its number in pieces of six bits, the highest first, and the first byte
tells how many there are. So only the character zero has a zero in it, and of two characters the
lesser has the lesser byte where their bytes first differ.
-/

namespace EnumForge.Text

lemma ofNat_lt_ofNat {m n : Nat} (h : m < n) (hn : n < 256) : UInt8.ofNat m < UInt8.ofNat n := by
  rw [UInt8.lt_iff_toNat_lt, toNat_ofNat_of_lt (Nat.lt_trans h hn), toNat_ofNat_of_lt hn]
  exact h

/-! ### Pieces of six bits -/

/-- A number in one byte, raised by `lead`, and `count` bytes behind it with six bits each. -/
def spread (lead : Nat) : Nat → Nat → Bytes
  | 0, n => [.ofNat (n + lead)]
  | count + 1, n => spread lead count (n / 64) ++ [.ofNat (n % 64 + 128)]

/-- A number without its last pieces of six bits, `count` of them. -/
def highest : Nat → Nat → Nat
  | 0, n => n
  | count + 1, n => highest count (n / 64)

lemma exists_spread_eq_cons (lead count n : Nat) :
    ∃ rest, spread lead count n = .ofNat (highest count n + lead) :: rest := by
  induction count generalizing n with
  | zero => exact ⟨[], rfl⟩
  | succ count ih =>
    obtain ⟨rest, hrest⟩ := ih (n / 64)
    refine ⟨rest ++ [.ofNat (n % 64 + 128)], ?_⟩
    rw [spread, hrest]
    rfl

/-- How many bytes of a character stand behind the first. -/
def trailing (n : Nat) : Nat :=
  if n < 0x80 then 0 else if n < 0x800 then 1 else if n < 0x10000 then 2 else 3

/-- By what the first byte is raised. -/
def leadFor : Nat → Nat
  | 0 => 0
  | 1 => 0xC0
  | 2 => 0xE0
  | _ => 0xF0

/-- The first byte of a character. -/
def firstByte (n : Nat) : Nat := highest (trailing n) n + leadFor (trailing n)

lemma utf8EncodeChar_eq_spread (c : Char) : String.utf8EncodeChar c =
    spread (leadFor (trailing c.toNat)) (trailing c.toNat) c.toNat := by
  have hmax := toNat_lt c
  have hv : c.val.toNat = c.toNat := rfl
  simp only [String.utf8EncodeChar, hv]
  generalize c.toNat = n at hmax
  unfold trailing
  by_cases h₁ : n < 0x80
  · rw [if_pos (by omega), if_pos h₁]
    rfl
  rw [if_neg (by omega), if_neg h₁]
  by_cases h₂ : n < 0x800
  · rw [if_pos (by omega), if_pos h₂, Nat.mod_eq_of_lt (by omega)]
    rfl
  rw [if_neg (by omega), if_neg h₂]
  by_cases h₃ : n < 0x10000
  · rw [if_pos (by omega), if_pos h₃, Nat.mod_eq_of_lt (by omega : n / 4096 < 16)]
    simp [spread, leadFor, Nat.div_div_eq_div_mul]
  · rw [if_neg (by omega), if_neg h₃, Nat.mod_eq_of_lt (by omega : n / 262144 < 8)]
    simp [spread, leadFor, Nat.div_div_eq_div_mul]

lemma exists_utf8EncodeChar_eq_cons (c : Char) :
    ∃ rest, String.utf8EncodeChar c = .ofNat (firstByte c.toNat) :: rest := by
  rw [utf8EncodeChar_eq_spread]
  exact exists_spread_eq_cons _ _ _

lemma firstByte_lt {n : Nat} (h : n < 0x110000) : firstByte n < 256 := by
  unfold firstByte trailing
  split_ifs <;> simp [highest, leadFor] <;> omega

lemma firstByte_pos {n : Nat} (h : 0 < n) : 0 < firstByte n := by
  unfold firstByte trailing
  split_ifs <;> simp [highest, leadFor, h]

/-- The first byte of a character is its number, or it is no ASCII byte. -/
lemma firstByte_eq_or_le (n : Nat) : firstByte n = n ∨ 128 ≤ firstByte n := by
  unfold firstByte trailing
  split_ifs <;> simp [highest, leadFor]

/-- Fewer bytes have a lesser byte in front. -/
lemma firstByte_lt_firstByte {m n : Nat} (h : trailing m < trailing n) :
    firstByte m < firstByte n := by
  revert h
  unfold firstByte trailing
  split_ifs <;> simp [highest, leadFor] <;> omega

/-! ### Zeros -/

lemma zero_not_mem_spread {lead count n : Nat} (hpos : 0 < highest count n + lead)
    (hn : highest count n + lead < 256) : 0 ∉ spread lead count n := by
  have hbyte {k : Nat} (hlow : 0 < k) (hhigh : k < 256) : (0 : UInt8) ≠ UInt8.ofNat k :=
    UInt8.ne_of_lt (ofNat_lt_ofNat hlow hhigh)
  induction count generalizing n with
  | zero =>
    rw [spread, List.mem_singleton]
    exact hbyte hpos hn
  | succ count ih =>
    rw [spread, List.mem_append, List.mem_singleton, not_or]
    exact ⟨ih hpos hn, hbyte (by omega) (by omega)⟩

/-- Only the character zero is written with a zero. -/
lemma zero_not_mem_utf8EncodeChar {c : Char} (hc : c ≠ '\x00') :
    0 ∉ String.utf8EncodeChar c := by
  have hpos : 0 < c.toNat := Nat.pos_of_ne_zero fun h => hc (Char.toNat_inj.mp h)
  rw [utf8EncodeChar_eq_spread]
  exact zero_not_mem_spread (firstByte_pos hpos) (firstByte_lt (toNat_lt c))

/-! ### Order -/

/-- The first byte string is less than the second, whatever stands behind them. -/
def Precedes (a b : Bytes) : Prop := ∀ r s : Bytes, a ++ r < b ++ s

lemma precedes_cons {x y : UInt8} (h : x < y) (a b : Bytes) : Precedes (x :: a) (y :: b) :=
  fun _ _ => List.cons_lt_cons_iff.mpr (.inl h)

lemma Precedes.append {a b : Bytes} (h : Precedes a b) (c d : Bytes) :
    Precedes (a ++ c) (b ++ d) := by
  intro r s
  rw [List.append_assoc, List.append_assoc]
  exact h _ _

lemma Precedes.append_left {a b : Bytes} (h : Precedes a b) (c : Bytes) :
    Precedes (c ++ a) (c ++ b) := by
  intro r s
  rw [List.append_assoc, List.append_assoc]
  exact List.append_left_lt (h r s)

/-- In as many bytes, the lesser number has the lesser byte where they differ. -/
lemma precedes_spread {lead count m n : Nat} (h : m < n) (hn : highest count n + lead < 256) :
    Precedes (spread lead count m) (spread lead count n) := by
  induction count generalizing m n with
  | zero => exact precedes_cons (ofNat_lt_ofNat (Nat.add_lt_add_right h lead) hn) [] []
  | succ count ih =>
    rcases Nat.lt_or_ge (m / 64) (n / 64) with hlt | hge
    · exact (ih hlt hn).append _ _
    · -- the numbers differ in the last piece only
      have heq : m / 64 = n / 64 := by omega
      have hlast : m % 64 + 128 < n % 64 + 128 := by omega
      rw [spread, spread, heq]
      exact (precedes_cons (ofNat_lt_ofNat hlast (by omega)) [] []).append_left _

lemma precedes_utf8EncodeChar {c d : Char} (h : c.toNat < d.toNat) :
    Precedes (String.utf8EncodeChar c) (String.utf8EncodeChar d) := by
  have hfirst := firstByte_lt (toNat_lt d)
  rcases Nat.lt_trichotomy (trailing c.toNat) (trailing d.toNat) with hlt | heq | hgt
  · obtain ⟨a, ha⟩ := exists_utf8EncodeChar_eq_cons c
    obtain ⟨b, hb⟩ := exists_utf8EncodeChar_eq_cons d
    rw [ha, hb]
    exact precedes_cons (ofNat_lt_ofNat (firstByte_lt_firstByte hlt) hfirst) a b
  · rw [utf8EncodeChar_eq_spread, utf8EncodeChar_eq_spread, heq]
    exact precedes_spread h hfirst
  · unfold trailing at hgt
    split_ifs at hgt <;> omega

end EnumForge.Text
