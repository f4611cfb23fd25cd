/-!
The UTF-8 bytes of a text, the order of texts by these bytes, and reading one character back.
-/

namespace EnumForge.Text

/-- A string of bytes. -/
abbrev Bytes := List UInt8

/-- The UTF-8 bytes of a text. -/
def bytes (s : String) : Bytes := s.toList.flatMap String.utf8EncodeChar

@[simp] theorem bytes_empty : bytes "" = [] := rfl

@[simp] theorem bytes_append (s t : String) : bytes (s ++ t) = bytes s ++ bytes t := by
  simp [bytes]

/-- The lexicographic order of byte strings; a proper beginning comes first. -/
def bytesLess : Bytes → Bytes → Bool
  | _, [] => false
  | [], _ :: _ => true
  | a :: as, b :: bs => a < b || (a == b && bytesLess as bs)

/-- The order of names: that of their bytes. -/
def less (a b : String) : Bool := bytesLess (bytes a) (bytes b)

/-- How two names compare. -/
def order (a b : String) : Ordering :=
  if less a b then .lt else if less b a then .gt else .eq

/-! ### Reading one character -/

/-- The low six bits of a continuation byte. -/
def continuation? (b : UInt8) : Option Nat :=
  if 0x80 ≤ b.toNat ∧ b.toNat < 0xC0 then some (b.toNat - 0x80) else none

/-- The character with number `n`, which must not be below `least`. -/
def scalar? (least n : Nat) : Option Char :=
  if h : least ≤ n ∧ n.isValidChar then some (Char.ofNatAux n h.2) else none

/-- The character at the front of a byte string, if its bytes are the shortest form of one. -/
def char? : Bytes → Option (Char × Bytes)
  | [] => none
  | a :: r =>
    if a.toNat < 0x80 then (scalar? 0 a.toNat).map (·, r)
    else if a.toNat < 0xC0 then none
    else if a.toNat < 0xE0 then
      match r with
      | b :: r => do
        let c ← scalar? 0x80 ((a.toNat - 0xC0) * 64 + (← continuation? b))
        return (c, r)
      | _ => none
    else if a.toNat < 0xF0 then
      match r with
      | b :: c :: r => do
        let d ← scalar? 0x800
          (((a.toNat - 0xE0) * 64 + (← continuation? b)) * 64 + (← continuation? c))
        return (d, r)
      | _ => none
    else if a.toNat < 0xF8 then
      match r with
      | b :: c :: d :: r => do
        let e ← scalar? 0x10000
          ((((a.toNat - 0xF0) * 64 + (← continuation? b)) * 64 + (← continuation? c)) * 64 +
            (← continuation? d))
        return (e, r)
      | _ => none
    else none

/-- What is left after a character is shorter. -/
theorem char?_length {s r : Bytes} {c : Char} (h : char? s = some (c, r)) :
    r.length < s.length := by
  unfold char? at h
  split at h
  · cases h
  · repeat' split at h
    all_goals simp_all [Option.bind_eq_some_iff, Option.map_eq_some_iff]
    all_goals obtain ⟨_, _, h⟩ := h
    all_goals grind

theorem scalar?_toNat {least n : Nat} {c : Char} (hn : n = c.toNat) (h : least ≤ n) :
    scalar? least n = some c := by
  subst hn
  have hv : c.toNat.isValidChar := c.valid
  rw [scalar?, dif_pos ⟨h, hv⟩]
  rfl

/-- There are no characters from here on. -/
theorem toNat_lt (c : Char) : c.toNat < 0x110000 := by
  have hvalid := c.valid
  simp only [UInt32.isValidChar, Nat.isValidChar] at hvalid
  simp only [Char.toNat]
  omega

theorem toNat_ofNat_of_lt {n : Nat} (h : n < 256) : (UInt8.ofNat n).toNat = n :=
  UInt8.toNat_ofNat_of_lt h

theorem continuation?_ofNat {n : Nat} (h : n < 64) : continuation? (.ofNat (n + 128)) = some n := by
  rw [continuation?, toNat_ofNat_of_lt (by omega), if_pos (by omega), Nat.add_sub_cancel]

/-- Reading gives back a character that was written, and what comes behind it. -/
theorem char?_utf8EncodeChar (c : Char) (r : Bytes) :
    char? (String.utf8EncodeChar c ++ r) = some (c, r) := by
  have hmax := toNat_lt c
  have hv : c.val.toNat = c.toNat := rfl
  simp only [String.utf8EncodeChar, hv]
  generalize hn : c.toNat = n at hmax
  have hs (least m : Nat) (hm : m = n) (hl : least ≤ m) : scalar? least m = some c :=
    scalar?_toNat (hm.trans hn.symm) hl
  have hc (m : Nat) : continuation? (.ofNat (m % 64 + 128)) = some (m % 64) :=
    continuation?_ofNat (Nat.mod_lt _ (by decide))
  split
  · simp only [List.cons_append, List.nil_append, char?]
    rw [toNat_ofNat_of_lt (by omega), if_pos (by omega), hs 0 n rfl (by omega)]
    rfl
  split
  · simp only [List.cons_append, List.nil_append, char?]
    rw [toNat_ofNat_of_lt (by omega), if_neg (by omega), if_neg (by omega), if_pos (by omega), hc]
    simp only [Option.bind_eq_bind, Option.bind_some]
    rw [hs _ _ (by omega) (by omega)]
    rfl
  split
  · simp only [List.cons_append, List.nil_append, char?]
    rw [toNat_ofNat_of_lt (by omega), if_neg (by omega), if_neg (by omega), if_neg (by omega),
      if_pos (by omega), hc, hc]
    simp only [Option.bind_eq_bind, Option.bind_some]
    rw [hs _ _ (by omega) (by omega)]
    rfl
  · simp only [List.cons_append, List.nil_append, char?]
    rw [toNat_ofNat_of_lt (by omega), if_neg (by omega), if_neg (by omega), if_neg (by omega),
      if_neg (by omega), if_pos (by omega), hc, hc, hc]
    simp only [Option.bind_eq_bind, Option.bind_some]
    rw [hs _ _ (by omega) (by omega)]
    rfl

end EnumForge.Text
