import EnumForge.Document.Container
import EnumForge.Document.Numeral
import EnumForge.Document.Printer
import EnumForge.Proofs.CharacterBytes
import EnumForge.Proofs.LiteralReading

/-!
What the printer writes is read back: characters with their escapes, texts, integers of 64 bits,
arrays and objects. A reader gives back the value that was written and leaves what stands behind it,
as long as this is something that may follow a value.
-/

namespace EnumForge.Document

open Text (Bytes)

/-! ### Texts -/

lemma toNat_ascii {c : Char} (h : c.toNat < 128) : (ascii c).toNat = c.toNat :=
  Text.toNat_ofNat_of_lt (by omega)

lemma hexValue?_hexDigit : ∀ n : Fin 16, hexValue? (hexDigit n) = some n.val := by decide

/-- The number of a control is read back. -/
lemma readUnicodeEscape_control {n : Nat} (h : n < 32) (s : Bytes) :
    readUnicodeEscape (ascii '0' :: ascii '0' :: hexDigit (n / 16) :: hexDigit (n % 16) :: s) =
      .ok (.ofNat n, s) := by
  have hhigh := hexValue?_hexDigit ⟨n / 16, by omega⟩
  have hlow := hexValue?_hexDigit ⟨n % 16, by omega⟩
  have hzero : hexValue? (ascii '0') = some 0 := by decide
  have hvalue : ((0 * 16 + 0) * 16 + n / 16) * 16 + n % 16 = n := by omega
  have hhex : readHex (ascii '0' :: ascii '0' :: hexDigit (n / 16) :: hexDigit (n % 16) :: s) =
      .ok (n, s) := by
    simp only [readHex, hzero, hhigh, hlow, hvalue]
  have hsingle : isLowSurrogate n = false ∧ isHighSurrogate n = false := by
    simp only [isLowSurrogate, isHighSurrogate, Bool.and_eq_false_iff, decide_eq_false_iff_not]
    omega
  simp only [readUnicodeEscape, hhex, bind, Except.bind, hsingle]
  rfl

lemma readTextBody_of_escape {r s : Bytes} {c : Char} (h : readEscape r = .ok (c, s))
    (done : List Char) :
    readTextBody done none (ascii '\\' :: r) = readTextBody (c :: done) none s := by
  rw [readTextBody, if_neg (by decide), if_pos rfl]
  split
  · next heq =>
    rw [h] at heq
    cases heq
  · next heq =>
    rw [h] at heq
    cases heq
    rfl

lemma readTextBody_of_char {b : UInt8} {r s : Bytes} {c : Char} (hquote : b ≠ ascii '\x22')
    (hback : b ≠ ascii '\\') (hcontrol : ¬ b < 32) (h : Text.char? (b :: r) = some (c, s))
    (done : List Char) :
    readTextBody done none (b :: r) = readTextBody (c :: done) none s := by
  rw [readTextBody, if_neg hquote, if_neg hback, if_neg hcontrol]
  split
  · next heq =>
    rw [h] at heq
    cases heq
    rfl
  · next heq =>
    rw [h] at heq
    cases heq

/-- A character is read back, however it had to be written. -/
lemma readTextBody_writeChar (c : Char) (done : List Char) (s : Bytes) :
    readTextBody done none (writeChar c ++ s) = readTextBody (c :: done) none s := by
  unfold writeChar
  split_ifs with hmark hcontrol
  · rcases (by simpa using hmark : c = '\x22' ∨ c = '\\') with rfl | rfl
    · exact readTextBody_of_escape rfl done
    · exact readTextBody_of_escape rfl done
  · have hescape := readUnicodeEscape_control hcontrol s
    rw [Char.ofNat_toNat] at hescape
    exact readTextBody_of_escape (r := ascii 'u' :: ascii '0' :: ascii '0' :: _) hescape done
  · obtain ⟨hquote, hback⟩ : c ≠ '\x22' ∧ c ≠ '\\' := by simpa using hmark
    obtain ⟨r, hbytes⟩ := Text.exists_utf8EncodeChar_eq_cons c
    have hfirst := Text.firstByte_eq_or_le c.toNat
    rw [← Text.toNat_ofNat_of_lt (Text.firstByte_lt (Text.toNat_lt c))] at hfirst
    generalize UInt8.ofNat (Text.firstByte c.toNat) = b at hbytes hfirst
    have hne {x : Char} (hx : x.toNat < 128) (hcx : c ≠ x) : b ≠ ascii x := by
      rintro rfl
      rw [toNat_ascii hx] at hfirst
      rcases hfirst with heq | hge
      · exact hcx (Char.toNat_inj.mp heq.symm)
      · omega
    have hread := Text.char?_utf8EncodeChar c s
    rw [hbytes, List.cons_append] at hread ⊢
    refine readTextBody_of_char (hne (by decide) hquote) (hne (by decide) hback) ?_ hread done
    rw [UInt8.lt_iff_toNat_lt]
    change ¬ b.toNat < 32
    omega

lemma readTextBody_written (cs done : List Char) (s : Bytes) :
    readTextBody done none (cs.flatMap writeChar ++ ascii '\x22' :: s) =
      .ok (done.reverse ++ cs, s) := by
  induction cs generalizing done with
  | nil =>
    rw [List.flatMap_nil, List.nil_append, readTextBody, if_pos rfl, List.append_nil]
  | cons c cs ih =>
    rw [List.flatMap_cons, List.append_assoc, readTextBody_writeChar, ih, List.reverse_cons,
      List.append_assoc, List.singleton_append]

/-- A text is read back, whatever stands behind its closing quote. -/
lemma readText_written (t : String) (s : Bytes) :
    readText (t.toList.flatMap writeChar ++ ascii '\x22' :: s) = .ok (t, s) := by
  simp only [readText, readTextBody_written, bind, Except.bind, List.reverse_nil, List.nil_append,
    String.ofList_toList]
  rfl

/-! ### What may follow a value -/

/-- Nothing, a comma or a closing bracket. -/
def Follows (s : Bytes) : Prop :=
  ∀ b ∈ s.head?, b = ascii ',' ∨ b = ascii ']' ∨ b = ascii '\x7d'

lemma follows_nil : Follows [] := by
  rintro b ⟨⟩

lemma follows_comma (s : Bytes) : Follows (ascii ',' :: s) := by
  rintro b ⟨⟩
  exact .inl rfl

lemma follows_bracket (s : Bytes) : Follows (ascii ']' :: s) := by
  rintro b ⟨⟩
  exact .inr (.inl rfl)

lemma follows_brace (s : Bytes) : Follows (ascii '\x7d' :: s) := by
  rintro b ⟨⟩
  exact .inr (.inr rfl)

/-! ### Integers -/

/-- The bytes of a decimal number. -/
def digits (n : Nat) : Bytes := (Nat.toDigits 10 n).flatMap String.utf8EncodeChar

lemma digits_of_lt {n : Nat} (h : n < 10) : digits n = [.ofNat (n + 48)] := by
  have hall : ∀ n : Fin 10, String.utf8EncodeChar (Nat.digitChar n) = [.ofNat (n + 48)] := by decide
  rw [digits, Nat.toDigits_of_lt_base h, List.flatMap_singleton, hall ⟨n, h⟩]

lemma digits_of_ge {n : Nat} (h : 10 ≤ n) : digits n = digits (n / 10) ++ digits (n % 10) := by
  rw [digits, Nat.toDigits_of_base_le (by decide) h, List.flatMap_append, digits, digits,
    Nat.toDigits_of_lt_base (Nat.mod_lt n (by decide))]

lemma bytes_toString_of_nonneg {i : Int} (h : 0 ≤ i) :
    Text.bytes (toString i) = digits i.toNat := by
  rw [Text.bytes, Reading.toList_toString_of_nonneg h, digits]

lemma bytes_toString_of_neg {i : Int} (h : i < 0) :
    Text.bytes (toString i) = ascii '-' :: digits (-i).toNat := by
  rw [Text.bytes, Reading.toList_toString_of_neg h, List.flatMap_cons, digits]
  rfl

namespace Numeral

lemma isDigit_ofNat {n : Nat} (h : n < 10) : isDigit (.ofNat (n + 48)) := by
  have hall : ∀ n : Fin 10, isDigit (.ofNat (n + 48)) := by decide
  exact hall ⟨n, h⟩

lemma digit_ofNat {n : Nat} (h : n < 10) : digit (.ofNat (n + 48)) = n := by
  rw [digit, Text.toNat_ofNat_of_lt (by omega), Nat.add_sub_cancel]

lemma readMagnitude_digits {n : Nat} (hpos : 0 < n) (hn : n ≤ greatest) (negative : Bool)
    (s : Bytes) : readMagnitude negative (digits n ++ s) = readWhole negative n s := by
  induction n using Nat.strongRecOn generalizing s with
  | _ n ih =>
    rcases Nat.lt_or_ge n 10 with hlt | hge
    · have hzero : UInt8.ofNat (n + 48) ≠ ascii '0' := by
        intro heq
        have hdigit := digit_ofNat hlt
        rw [heq] at hdigit
        change 0 = n at hdigit
        omega
      rw [digits_of_lt hlt, List.singleton_append, readMagnitude, if_neg hzero,
        if_pos (isDigit_ofNat hlt), digit_ofNat hlt]
    · -- the last digit is read behind the others
      have hlast : n % 10 < 10 := Nat.mod_lt n (by decide)
      have hfit : ¬ greatest < n / 10 * 10 + n % 10 := by omega
      rw [digits_of_ge hge, List.append_assoc, ih (n / 10) (by omega) (by omega) (by omega),
        digits_of_lt hlast, List.singleton_append, readWhole, if_pos (isDigit_ofNat hlast),
        digit_ofNat hlast, if_neg hfit, Nat.div_add_mod']

variable {s : Bytes} (hs : Follows s)

include hs

lemma not_isDigit_of_follows : s.head?.any isDigit = false := by
  cases s with
  | nil => rfl
  | cons b s => rcases hs b rfl with rfl | rfl | rfl <;> rfl

lemma readAfterWhole_of_follows (negative : Bool) (n : Nat) :
    readAfterWhole negative n s = whole negative n s := by
  cases s with
  | nil => rfl
  | cons b s => rcases hs b rfl with rfl | rfl | rfl <;> rfl

lemma readWhole_of_follows (negative : Bool) (n : Nat) :
    readWhole negative n s = whole negative n s := by
  cases s with
  | nil => rfl
  | cons b s =>
    have hdigit : ¬ isDigit b := by simpa using not_isDigit_of_follows hs
    rw [readWhole, if_neg hdigit, readAfterWhole_of_follows hs]

/-- A number that fits 64 bits is read to its end. -/
lemma readMagnitude_of_follows {n : Nat} (hn : n ≤ greatest) (negative : Bool) :
    readMagnitude negative (digits n ++ s) = whole negative n s := by
  rcases Nat.eq_zero_or_pos n with rfl | hpos
  · have hzero : digits 0 ++ s = ascii '0' :: s := rfl
    rw [hzero, readMagnitude, if_pos rfl, not_isDigit_of_follows hs, if_neg Bool.false_ne_true,
      readAfterWhole_of_follows hs]
  · rw [readMagnitude_digits hpos hn, readWhole_of_follows hs]

end Numeral

/-- A number begins with a digit, so it is not taken for a negative one. -/
lemma exists_digits_eq_cons (n : Nat) : ∃ b r, digits n = b :: r ∧ Numeral.isDigit b := by
  induction n using Nat.strongRecOn with
  | _ n ih =>
    rcases Nat.lt_or_ge n 10 with hlt | hge
    · exact ⟨_, _, digits_of_lt hlt, Numeral.isDigit_ofNat hlt⟩
    · obtain ⟨b, r, hdigits, hb⟩ := ih (n / 10) (by omega)
      exact ⟨b, r ++ digits (n % 10), by rw [digits_of_ge hge, hdigits, List.cons_append], hb⟩

/-- **Integers**: every number of 64 bits is read back, be it with a sign or without. -/
theorem readNumeral_written {i : Int} (hlow : -(2 ^ 63) ≤ i) (hhigh : i < 2 ^ 64) {s : Bytes}
    (hs : Follows s) : readNumeral (Text.bytes (toString i) ++ s) = .ok (.integer i, s) := by
  have hgreatest : Numeral.greatest = 2 ^ 64 - 1 := rfl
  rcases Int.lt_or_le i 0 with hneg | hpos
  · have hfit : ¬ (((-i).toNat = 0 || 1 <<< 63 < (-i).toNat) = true) := by
      simp only [Bool.or_eq_true, decide_eq_true_eq]
      omega
    have hvalue : -((-i).toNat : Int) = i := by omega
    rw [bytes_toString_of_neg hneg, List.cons_append, readNumeral, if_pos rfl,
      Numeral.readMagnitude_of_follows hs (by omega), Numeral.whole, if_neg (by decide),
      if_neg hfit, hvalue]
  · obtain ⟨b, r, hdigits, hb⟩ := exists_digits_eq_cons i.toNat
    have hminus : b ≠ ascii '-' := by
      rintro rfl
      cases hb
    have hread := Numeral.readMagnitude_of_follows hs (n := i.toNat) (by omega) false
    rw [bytes_toString_of_nonneg hpos]
    rw [hdigits, List.cons_append] at hread ⊢
    rw [readNumeral, if_neg hminus, hread, Numeral.whole, if_pos (by decide),
      Int.toNat_of_nonneg hpos]

/-! ### Values -/

/-- The bytes with which values begin, apart from words. -/
def opensValue (b : UInt8) : Bool :=
  b == ascii '\x22' || b == ascii '[' || b == ascii '\x7b' || b == ascii '-' || Numeral.isDigit b

/-- The reader gives back `x` for the bytes `w` of a value, wherever they stand. -/
structure Reads {α : Type} (value : Reader α) (w : Bytes) (x : α) : Prop where
  begins : ∃ b r, w = b :: r ∧ opensValue b
  read : ∀ s, Follows s → value (w ++ s) = .ok (x, s)

lemma skipBlanks_of_opensValue {b : UInt8} (h : opensValue b) (s : Bytes) :
    skipBlanks (b :: s) = b :: s := by
  refine List.dropWhile_cons_of_neg ?_
  intro hblank
  rcases (by simpa [isBlank, or_assoc] using hblank : b = 32 ∨ b = 10 ∨ b = 9 ∨ b = 13) with
    rfl | rfl | rfl | rfl <;> cases h

/-- Values behind others, each with the comma in front of it. -/
def behindCommas (ws : List Bytes) : Bytes := ws.flatMap (ascii ',' :: ·)

lemma separated_cons (w : Bytes) (ws : List Bytes) :
    separated (w :: ws) = w ++ behindCommas ws := by
  induction ws generalizing w with
  | nil => simp [separated, behindCommas]
  | cons v ws ih =>
    have hsplit : separated (w :: v :: ws) = w ++ [ascii ','] ++ separated (v :: ws) := by
      simp [separated, List.intercalate_cons_cons]
    rw [hsplit, ih]
    simp [behindCommas]

lemma follows_behindCommas {s : Bytes} (h : Follows s) (ws : List Bytes) :
    Follows (behindCommas ws ++ s) := by
  cases ws with
  | nil => exact h
  | cons w ws => exact follows_comma _

lemma length_le_length_behindCommas (ws : List Bytes) : ws.length ≤ (behindCommas ws).length := by
  induction ws with
  | nil => exact Nat.le_refl _
  | cons w ws ih =>
    simp only [behindCommas, List.flatMap_cons, List.length_append, List.length_cons] at ih ⊢
    omega

/-! ### Arrays -/

section

variable {α : Type} {element : Reader α}

lemma nextElement_first {w : Bytes} {x : α} (h : Reads element w x) (s : Bytes) :
    nextElement true (w ++ s) = .ok (true, w ++ s) := by
  obtain ⟨b, r, rfl, hb⟩ := h.begins
  have hclose : b ≠ ascii ']' := by rintro rfl; cases hb
  simp only [nextElement, List.cons_append, skipBlanks_of_opensValue hb, hclose, if_false, if_true]

lemma nextElement_comma {w : Bytes} {x : α} (h : Reads element w x) (s : Bytes) :
    nextElement false (ascii ',' :: (w ++ s)) = .ok (true, w ++ s) := by
  obtain ⟨b, r, rfl, hb⟩ := h.begins
  have hclose : b ≠ ascii ']' := by rintro rfl; cases hb
  have hcomma : skipBlanks (ascii ',' :: (b :: r ++ s)) = ascii ',' :: (b :: r ++ s) := rfl
  simp only [nextElement, hcomma]
  simp only [List.cons_append, skipBlanks_of_opensValue hb, hclose, if_false]
  rfl

lemma readElements_behindCommas {ws : List Bytes} {xs : List α}
    (h : List.Forall₂ (Reads element) ws xs) {most index : Nat} (hmost : ws.length < most)
    (hindex : 0 < index) (done : List α) (s : Bytes) :
    readElements element most done index (behindCommas ws ++ ascii ']' :: s) =
      .ok (done.reverse ++ xs, ascii ']' :: s) := by
  have hfirst (index : Nat) (hindex : 0 < index) : (index == 0) = false := by
    rw [beq_eq_false_iff_ne]
    omega
  induction h generalizing most index done with
  | nil =>
    obtain ⟨most, rfl⟩ : ∃ k, most = k + 1 := ⟨most - 1, by omega⟩
    have hclose : nextElement false (ascii ']' :: s) = .ok (false, ascii ']' :: s) := rfl
    simp only [behindCommas, List.flatMap_nil, List.nil_append, readElements, hfirst index hindex,
      hclose, List.append_nil]
  | @cons w x ws xs hw hrest ih =>
    obtain ⟨most, rfl⟩ : ∃ k, most = k + 1 := ⟨most - 1, by omega⟩
    have hread := hw.read _ (follows_behindCommas (follows_bracket s) ws)
    have hsplit : behindCommas (w :: ws) ++ ascii ']' :: s =
        ascii ',' :: (w ++ (behindCommas ws ++ ascii ']' :: s)) := by
      simp [behindCommas]
    rw [hsplit, readElements, hfirst index hindex, nextElement_comma hw]
    simp only [hread, under, Except.mapError]
    rw [ih (by simpa using hmost) (Nat.succ_pos index), List.reverse_cons, List.append_assoc,
      List.singleton_append]

/-- **Arrays**: the elements are read back in their order. -/
theorem readArray_written {ws : List Bytes} {xs : List α}
    (h : List.Forall₂ (Reads element) ws xs) (s : Bytes) :
    readArray element (separated ws ++ ascii ']' :: s) = .ok (xs, s) := by
  have hclose : closeArray (ascii ']' :: s) = .ok s := rfl
  have hread : readElements element ((separated ws ++ ascii ']' :: s).length + 1) [] 0
      (separated ws ++ ascii ']' :: s) = .ok (xs, ascii ']' :: s) := by
    cases h with
    | nil => rfl
    | @cons w x ws xs hw hrest =>
      have hread := hw.read _ (follows_behindCommas (follows_bracket s) ws)
      have hlength := length_le_length_behindCommas ws
      rw [separated_cons, List.append_assoc, readElements, beq_self_eq_true,
        nextElement_first hw]
      simp only [hread, under, Except.mapError]
      rw [readElements_behindCommas hrest ?_ Nat.one_pos]
      · rfl
      · simp only [List.length_append, List.length_cons]
        omega
  simp only [readArray, hread, hclose, bind, Except.bind]
  rfl

lemma readArray_map {β : Type} {write : β → Bytes} {view : β → α} {ys : List β}
    (h : ∀ y ∈ ys, Reads element (write y) (view y)) (s : Bytes) :
    readArray element (separated (ys.map write) ++ ascii ']' :: s) = .ok (ys.map view, s) := by
  refine readArray_written ?_ s
  rw [List.forall₂_map_left_iff, List.forall₂_map_right_iff, List.forall₂_same]
  exact h

lemma readArray_map_write {write : α → Bytes} {xs : List α}
    (h : ∀ x ∈ xs, Reads element (write x) x) (s : Bytes) :
    readArray element (separated (xs.map write) ++ ascii ']' :: s) = .ok (xs, s) := by
  have hread := readArray_map h s
  rwa [List.map_id'] at hread

end

/-! ### Objects -/

section

variable {σ : Type} {member : σ → String → Reader σ}

/-- The members lead from one state to the other, wherever they stand. -/
inductive Leads (member : σ → String → Reader σ) : List (String × Bytes) → σ → σ → Prop
  | nil (state : σ) : Leads member [] state state
  | cons {key : String} {w : Bytes} {ms : List (String × Bytes)} {first between last : σ}
      (read : ∀ s, Follows s → member first key (ascii ':' :: w ++ s) = .ok (between, s))
      (rest : Leads member ms between last) : Leads member ((key, w) :: ms) first last

lemma Leads.append {ms ns : List (String × Bytes)} {first between last : σ}
    (hms : Leads member ms first between) (hns : Leads member ns between last) :
    Leads member (ms ++ ns) first last := by
  induction hms with
  | nil => exact hns
  | cons hread _ ih => exact .cons hread (ih hns)

lemma writeMember_append (key : String) (w s : Bytes) :
    writeMember (key, w) ++ s = ascii '\x22' ::
      (key.toList.flatMap writeChar ++ ascii '\x22' :: (ascii ':' :: w ++ s)) := by
  simp [writeMember, writeText]

lemma nextKey_first (key : String) (w s : Bytes) :
    nextKey true (writeMember (key, w) ++ s) = .ok (some key, ascii ':' :: w ++ s) := by
  have hquote (r : Bytes) : skipBlanks (ascii '\x22' :: r) = ascii '\x22' :: r := rfl
  rw [writeMember_append, nextKey, hquote]
  simp only [readText_written]
  rfl

lemma nextKey_comma (key : String) (w s : Bytes) :
    nextKey false (ascii ',' :: (writeMember (key, w) ++ s)) =
      .ok (some key, ascii ':' :: w ++ s) := by
  have hquote (r : Bytes) : skipBlanks (ascii '\x22' :: r) = ascii '\x22' :: r := rfl
  have hcomma (r : Bytes) : skipBlanks (ascii ',' :: r) = ascii ',' :: r := rfl
  rw [writeMember_append, nextKey, hcomma]
  simp only [hquote, readText_written]
  rfl

lemma readFurtherMembers_behindCommas {ms : List (String × Bytes)} {first last : σ}
    (h : Leads member ms first last) {most : Nat} (hmost : ms.length < most) (s : Bytes) :
    readFurtherMembers member most false first
        (behindCommas (ms.map writeMember) ++ ascii '\x7d' :: s) =
      .ok (last, ascii '\x7d' :: s) := by
  induction h generalizing most with
  | nil state =>
    obtain ⟨most, rfl⟩ : ∃ k, most = k + 1 := ⟨most - 1, by omega⟩
    rfl
  | @cons key w ms first between last hread hrest ih =>
    obtain ⟨most, rfl⟩ : ∃ k, most = k + 1 := ⟨most - 1, by omega⟩
    have hsplit : behindCommas (((key, w) :: ms).map writeMember) ++ ascii '\x7d' :: s =
        ascii ',' :: (writeMember (key, w) ++
          (behindCommas (ms.map writeMember) ++ ascii '\x7d' :: s)) := by
      simp [behindCommas]
    rw [hsplit, readFurtherMembers, nextKey_comma]
    simp only [under, Except.mapError,
      hread _ (follows_behindCommas (follows_brace s) (ms.map writeMember))]
    exact ih (by simpa using hmost)

/-- **Objects**: the members are read in their order, and none is lost if keys are repeated. -/
theorem readMembers_written {ms : List (String × Bytes)} {first last : σ}
    (h : Leads member ms first last) (s : Bytes) :
    readMembers member first (separated (ms.map writeMember) ++ ascii '\x7d' :: s) =
      .ok (last, ascii '\x7d' :: s) := by
  cases h with
  | nil => rfl
  | @cons key w ms _ between _ hread hrest =>
    have hlength := length_le_length_behindCommas (ms.map writeMember)
    rw [List.map_cons, separated_cons, List.append_assoc, readMembers, readFurtherMembers,
      nextKey_first]
    simp only [under, Except.mapError,
      hread _ (follows_behindCommas (follows_brace s) (ms.map writeMember))]
    refine readFurtherMembers_behindCommas hrest ?_ s
    rw [List.length_map] at hlength
    simp only [List.length_append, List.length_cons]
    omega

lemma closeObject_brace (s : Bytes) : closeObject (ascii '\x7d' :: s) = .ok s := rfl

/-- The value of a member is behind a colon. -/
lemma readMemberValue_written {α : Type} {value : Reader α} {w : Bytes} {x : α}
    (h : Reads value w x) (key : String) {s : Bytes} (hs : Follows s) :
    readMemberValue key value (ascii ':' :: w ++ s) = .ok (x, s) := by
  have hcolon : readColon (ascii ':' :: w ++ s) = .ok (w ++ s) := rfl
  simp only [readMemberValue, hcolon, bind, Except.bind, h.read s hs]
  rfl

end

end EnumForge.Document
