import EnumForge.Document.Container
import EnumForge.Document.Numeral
import EnumForge.Proofs.DocumentReading
import EnumForge.Proofs.Results
import Mathlib.Data.List.DropRight

/-!
How far readers look. A reader takes a piece from the front of a document, and for this piece it
gives the same answer whatever stands behind it, as long as that begins with the same byte. A number
has to see this byte, since it does not close itself; no reader looks further.

The readers are put together from smaller ones, and so are the proofs: one lemma for each way of
putting readers together, one for each of the smallest readers.
-/

namespace EnumForge.Document

open Text (Bytes)

/-! ### Local readers -/

section

variable {α β : Type}

/-- What is read from `s` is read from a piece at its front, with any rest behind this piece that
begins like the one that was left. -/
def LocalAt (read : Reader α) (s : Bytes) : Prop :=
  ∀ x t, read s = .ok (x, t) →
    ∃ u, s = u ++ t ∧ ∀ w : Bytes, w.head? = t.head? → read (u ++ w) = .ok (x, w)

def Local (read : Reader α) : Prop := ∀ s, LocalAt read s

/-- A local reader that takes one byte at least. -/
structure Strict (read : Reader α) : Prop where
  nil : ∀ x t, read [] ≠ .ok (x, t)
  cons : ∀ b, Local fun s => read (b :: s)

lemma head?_append_congr {t w : Bytes} (h : w.head? = t.head?) (u : Bytes) :
    (u ++ w).head? = (u ++ t).head? := by
  cases u with
  | nil => exact h
  | cons b u => rfl

lemma LocalAt.cons {read : Reader α} {b : UInt8} {s : Bytes}
    (h : LocalAt (fun s => read (b :: s)) s) : LocalAt read (b :: s) := by
  intro x t hread
  obtain ⟨u, rfl, hu⟩ := h x t hread
  exact ⟨b :: u, rfl, hu⟩

/-- A reader may hand over to another one when it has seen the first byte. -/
lemma LocalAt.congr {read stop : Reader α} {s : Bytes} (h : LocalAt stop s)
    (hread : ∀ s' : Bytes, s'.head? = s.head? → read s' = stop s') : LocalAt read s := by
  intro x t hs
  obtain ⟨u, rfl, hu⟩ := h x t (hread s rfl ▸ hs)
  exact ⟨u, rfl, fun w hw => (hread _ (head?_append_congr hw u)).trans (hu w hw)⟩

/-- A reader may leave the end of the document to another one. -/
lemma LocalAt.stop_nil {read stop : Reader α} (h : Local stop) (hread : read [] = stop []) :
    LocalAt read [] := by
  refine (h []).congr fun s hs => ?_
  rw [List.head?_nil, List.head?_eq_none_iff] at hs
  rw [hs, hread]

/-- A reader may leave what begins with a byte to another one. -/
lemma LocalAt.stop_cons {read stop : Reader α} (h : Local stop) {b : UInt8}
    (hread : ∀ s, read (b :: s) = stop (b :: s)) (s : Bytes) : LocalAt read (b :: s) := by
  refine (h (b :: s)).congr fun s' hs => ?_
  obtain ⟨r, rfl⟩ := List.head?_eq_some_iff.mp hs
  exact hread r

lemma Strict.local {read : Reader α} (h : Strict read) : Local read := by
  intro s
  cases s with
  | nil => exact fun x t hread => absurd hread (h.nil x t)
  | cons b s => exact .cons (h.cons b s)

/-- What a strict reader takes has a first byte. -/
lemma Strict.exists_cons {read : Reader α} (h : Strict read) {s t : Bytes} {x : α}
    (hread : read s = .ok (x, t)) : ∃ b u, s = b :: (u ++ t) ∧
      ∀ w : Bytes, w.head? = t.head? → read (b :: (u ++ w)) = .ok (x, w) := by
  cases s with
  | nil => exact absurd hread (h.nil x t)
  | cons b s =>
    obtain ⟨u, rfl, hu⟩ := h.cons b s x t hread
    exact ⟨b, u, rfl, hu⟩

/-! ### Putting readers together -/

lemma Local.pure (x : α) : Local fun s => .ok (x, s) := by
  rintro s y t ⟨⟩
  exact ⟨[], rfl, fun w _ => rfl⟩

lemma Local.error (f : Bytes → Fault) :
    Local fun s => (.error (f s) : Except Fault (α × Bytes)) := by
  rintro s x t ⟨⟩

lemma Local.bind {f : Reader α} {g : α × Bytes → Except Fault (β × Bytes)} (hf : Local f)
    (hg : ∀ x, Local fun s => g (x, s)) : Local fun s => f s >>= g := by
  intro s y r h
  obtain ⟨⟨x, t⟩, hx, hy⟩ := bind_eq_ok.mp h
  obtain ⟨u, rfl, hu⟩ := hf s x t hx
  obtain ⟨v, rfl, hv⟩ := hg x t y r hy
  refine ⟨u ++ v, (List.append_assoc u v r).symm, fun w hw => ?_⟩
  rw [List.append_assoc]
  simp only [hu _ (head?_append_congr hw v)]
  exact hv w hw

lemma Local.map {f : Reader α} (hf : Local f) (g : α → β) :
    Local fun s => (f s).map fun (x, s) => (g x, s) := by
  intro s y r h
  obtain ⟨⟨x, t⟩, hx, heq⟩ := map_eq_ok_iff.mp h
  cases heq
  obtain ⟨u, rfl, hu⟩ := hf s x r hx
  exact ⟨u, rfl, fun w hw => map_eq_ok_iff.mpr ⟨(x, w), hu w hw, rfl⟩⟩

lemma LocalAt.ite {p : Prop} [Decidable p] {f g : Reader α} {s : Bytes} (hf : p → LocalAt f s)
    (hg : ¬ p → LocalAt g s) : LocalAt (fun s => if p then f s else g s) s := by
  by_cases h : p
  · simpa only [if_pos h] using hf h
  · simpa only [if_neg h] using hg h

lemma Local.ite {p : Prop} [Decidable p] {f g : Reader α} (hf : Local f) (hg : Local g) :
    Local fun s => if p then f s else g s := fun s => .ite (fun _ => hf s) fun _ => hg s

lemma Local.mapError {f : Reader α} (hf : Local f) (g : Fault → Fault) :
    Local fun s => (f s).mapError g := by
  intro s x t h
  obtain ⟨u, rfl, hu⟩ := hf s x t (mapError_eq_ok_iff.mp h)
  exact ⟨u, rfl, fun w hw => mapError_eq_ok_iff.mpr (hu w hw)⟩

lemma Local.under {f : Reader α} (hf : Local f) (step : Step) :
    Local fun s => under step (f s) := hf.mapError _

/-- A look at the next byte without taking it. -/
lemma Local.peek {f : Reader α} (hf : Local f) (p : UInt8 → Bool) (g : Bytes → Fault) :
    Local fun s => if s.head?.any p then .error (g s) else f s := by
  intro s
  by_cases hp : s.head?.any p
  · refine LocalAt.congr (Local.error g s) fun s' hs => ?_
    simp only [hs, if_pos hp]
  · refine LocalAt.congr (hf s) fun s' hs => ?_
    simp only [hs, if_neg hp]

/-- Bytes may be passed over in front of a reader. -/
lemma Local.skip {f : Reader α} (hf : Local f) (p : UInt8 → Bool) :
    Local fun s => f (s.dropWhile p) := by
  intro s
  induction s with
  | nil => exact .stop_nil hf rfl
  | cons b s ih =>
    by_cases hb : p b
    · refine .cons ?_
      simpa only [List.dropWhile_cons_of_pos hb] using ih
    · have hstay (s : Bytes) : (b :: s).dropWhile p = b :: s := List.dropWhile_cons_of_neg hb
      exact .stop_cons hf (fun s => by rw [hstay]) s

/-! ### Blanks -/

lemma exists_of_skipBlanks_eq_cons {s t : Bytes} {b : UInt8} (h : skipBlanks s = b :: t) :
    isBlank b = false ∧ ∃ u, s = u ++ b :: t ∧ ∀ w, skipBlanks (u ++ b :: w) = b :: w := by
  induction s with
  | nil => cases h
  | cons c s ih =>
    by_cases hc : isBlank c
    · have hskip (w : Bytes) : skipBlanks (c :: w) = skipBlanks w := List.dropWhile_cons_of_pos hc
      rw [hskip] at h
      obtain ⟨hb, u, rfl, hu⟩ := ih h
      exact ⟨hb, c :: u, rfl, fun w => (hskip _).trans (hu w)⟩
    · have hstay (w : Bytes) : skipBlanks (c :: w) = c :: w := List.dropWhile_cons_of_neg hc
      rw [hstay] at h
      cases h
      exact ⟨by simpa using hc, [], rfl, hstay⟩

@[simp] lemma skipBlanks_skipBlanks (s : Bytes) : skipBlanks (skipBlanks s) = skipBlanks s :=
  List.dropWhile_idempotent isBlank s

section

variable {read : Reader α} (hblanks : ∀ s, read (skipBlanks s) = read s)
  (hnil : ∀ x t, read [] ≠ .ok (x, t))

include hblanks hnil

/-- A reader that passes blanks and then goes by the first byte. -/
lemma Local.ofFirst (hfirst : ∀ b, (∀ s, skipBlanks (b :: s) = b :: s) →
    ∀ s, LocalAt read (b :: s)) : Local read := by
  intro s x t h
  rw [← hblanks] at h
  cases hs : skipBlanks s with
  | nil =>
    rw [hs] at h
    exact absurd h (hnil x t)
  | cons b r =>
    obtain ⟨hb, v, rfl, hv⟩ := exists_of_skipBlanks_eq_cons hs
    rw [hs] at h
    have hstay (w : Bytes) : skipBlanks (b :: w) = b :: w :=
      List.dropWhile_cons_of_neg (by simp [hb])
    obtain ⟨u, hu, hread⟩ := hfirst b hstay r x t h
    refine ⟨v ++ u, by rw [hu, List.append_assoc], fun w hw => ?_⟩
    -- what stands behind the blanks still begins with the first byte
    have hhead : (u ++ w).head? = some b := by rw [head?_append_congr hw u, ← hu, List.head?_cons]
    obtain ⟨r', hr'⟩ := List.head?_eq_some_iff.mp hhead
    rw [← hread w hw, ← hblanks, List.append_assoc, hr', hv]

/-- A reader that passes blanks and then goes by the first byte, which it takes. -/
lemma Strict.ofFirst (hfirst : ∀ b, (∀ s, skipBlanks (b :: s) = b :: s) →
    Local fun s => read (b :: s)) : Strict read := by
  refine ⟨hnil, fun b => ?_⟩
  by_cases hb : isBlank b
  · have hskip (s : Bytes) : read (b :: s) = read s := by
      have hdrop : skipBlanks (b :: s) = skipBlanks s := List.dropWhile_cons_of_pos hb
      rw [← hblanks, hdrop, hblanks]
    simpa only [hskip] using Local.ofFirst hblanks hnil fun b hb s => .cons (hfirst b hb s)
  · exact hfirst b fun s => List.dropWhile_cons_of_neg hb

end

end

/-! ### Words and texts -/

lemma local_readWord {α : Type} (x : α) (cs : List Char) :
    Local fun s => (readWord cs s).map (x, ·) := by
  induction cs with
  | nil => exact .pure x
  | cons c cs ih =>
    intro s
    cases s with
    | nil => rintro y t ⟨⟩
    | cons b s =>
      refine .cons ?_
      by_cases hb : b = ascii c
      · simpa only [readWord, if_pos hb] using ih s
      · simp only [readWord, if_neg hb]
        exact Local.error (fun s => .behind .expectedWord s) s

lemma local_readHex : Local readHex := by
  intro s n t h
  unfold readHex at h
  split at h
  · next a b c d r =>
    split at h
    · next ha hb hc hd =>
      cases h
      refine ⟨[a, b, c, d], rfl, fun w _ => ?_⟩
      simp only [List.cons_append, List.nil_append, readHex, ha, hb, hc, hd]
    · cases h
  · cases h

lemma local_expectInText {α : Type} (c : Char) (cause : Cause) {f : Reader α} (hf : Local f) :
    Local fun s => expectInText c cause s >>= f := by
  intro s
  cases s with
  | nil => rintro y t ⟨⟩
  | cons b s =>
    refine .cons ?_
    by_cases hb : b = ascii c
    · simp only [expectInText, if_pos hb]
      exact hf s
    · simp only [expectInText, if_neg hb]
      exact Local.error (fun s => .behind cause s) s

lemma local_readUnicodeEscape : Local readUnicodeEscape := by
  refine .bind local_readHex fun n => .ite (.error _) (.ite ?_ (.pure _))
  refine local_expectInText _ _ (local_expectInText _ _ ?_)
  exact .bind local_readHex fun m => .ite (.pure _) (.error _)

lemma local_readEscape : Local readEscape := by
  intro s
  cases s with
  | nil => rintro c t ⟨⟩
  | cons b s =>
    refine .cons (Local.ite (.pure _) ?_ s)
    iterate 7 refine .ite (.pure _) ?_
    exact .ite local_readUnicodeEscape (.error _)

lemma exists_of_char?_eq_some {a : UInt8} {r t : Bytes} {c : Char}
    (h : Text.char? (a :: r) = some (c, t)) :
    ∃ u, r = u ++ t ∧ ∀ w, Text.char? (a :: (u ++ w)) = some (c, w) := by
  simp only [Text.char?, Option.bind_eq_bind, Option.pure_def] at h ⊢
  -- one case for each number of bytes
  split_ifs at h ⊢
  · obtain ⟨d, hd, heq⟩ := Option.map_eq_some_iff.mp h
    cases heq
    exact ⟨[], rfl, fun w => by simp [hd]⟩
  · obtain - | ⟨b, r⟩ := r
    · cases h
    · simp only [Option.bind_eq_some_iff, Option.some.injEq] at h
      obtain ⟨m, hm, d, hd, heq⟩ := h
      cases heq
      exact ⟨[b], rfl, fun w => by simp [hm, hd]⟩
  · obtain - | ⟨b, - | ⟨b', r⟩⟩ := r
    · cases h
    · cases h
    · simp only [Option.bind_eq_some_iff, Option.some.injEq] at h
      obtain ⟨m, hm, m', hm', d, hd, heq⟩ := h
      cases heq
      exact ⟨[b, b'], rfl, fun w => by simp [hm, hm', hd]⟩
  · obtain - | ⟨b, - | ⟨b', - | ⟨b'', r⟩⟩⟩ := r
    · cases h
    · cases h
    · cases h
    · simp only [Option.bind_eq_some_iff, Option.some.injEq] at h
      obtain ⟨m, hm, m', hm', m'', hm'', d, hd, heq⟩ := h
      cases heq
      exact ⟨[b, b', b''], rfl, fun w => by simp [hm, hm', hm'', hd]⟩

/-- A text with bytes that are no character is refused. -/
lemma readTextBody_ne_ok (done : List Char) {bad : Option Bytes} (hbad : bad ≠ none) (s : Bytes)
    (x : List Char × Bytes) : readTextBody done bad s ≠ .ok x := by
  fun_induction readTextBody done bad s with
  | case1 | case3 | case4 | case6 => simp
  | case2 => exact absurd rfl hbad
  | case5 done bad r c t _ _ ih => exact ih (by simpa using hbad)
  | case7 done bad b r _ _ _ c t _ ih => exact ih hbad
  | case8 done bad b r _ _ _ _ ih => exact ih (by simp)

lemma localAt_readTextBody (done : List Char) (s : Bytes) :
    LocalAt (readTextBody done none) s := by
  generalize hbad : none = bad
  intro x t h
  fun_induction readTextBody done bad s with
  | case1 | case4 | case6 => cases h
  | case2 done r =>
    cases h
    refine ⟨[ascii '\x22'], rfl, fun w _ => ?_⟩
    rw [List.singleton_append, readTextBody, if_pos rfl]
  | case3 => cases hbad
  | case5 done bad r c r' hescape _ ih =>
    subst hbad
    obtain ⟨u, rfl, hu⟩ := local_readEscape r c r' hescape
    obtain ⟨v, rfl, hv⟩ := ih rfl h
    refine ⟨ascii '\\' :: (u ++ v), by simp, fun w hw => ?_⟩
    rw [List.cons_append, List.append_assoc,
      readTextBody_of_escape (hu _ (head?_append_congr hw v))]
    exact hv w hw
  | case7 done bad b r hquote hback hcontrol c r' hchar ih =>
    subst hbad
    obtain ⟨u, rfl, hu⟩ := exists_of_char?_eq_some hchar
    obtain ⟨v, rfl, hv⟩ := ih rfl h
    refine ⟨b :: (u ++ v), by simp, fun w hw => ?_⟩
    rw [List.cons_append, List.append_assoc,
      readTextBody_of_char hquote hback hcontrol (hu (v ++ w))]
    exact hv w hw
  | case8 => exact absurd h (readTextBody_ne_ok _ (by simp) _ _)

lemma local_readText : Local readText :=
  .bind (localAt_readTextBody []) fun cs => .pure (String.ofList cs)

/-! ### Numbers -/

namespace Numeral

/-- What stands behind a number is not looked at to scale it. -/
lemma local_scaled (negative : Bool) (significand : Nat) (exponent : Int) :
    Local (scaled negative significand exponent) := by
  unfold scaled
  cases (Number.Binary64.ofRatio significand 1).bind (·.scaleByTen exponent) with
  | none => exact .error _
  | some x => exact .pure _

lemma local_whole (negative : Bool) (n : Nat) : Local (whole negative n) :=
  .ite (.pure _) (.ite (local_scaled true n 0) (.pure _))

section

variable (negative : Bool) (significand : Nat)

lemma local_readExponentDigits (start : Int) (up : Bool) (e : Nat) :
    Local (readExponentDigits negative significand start up e) := by
  intro s
  induction s generalizing e with
  | nil => exact .stop_nil (local_scaled _ _ _) rfl
  | cons b s ih =>
    by_cases hb : isDigit b
    · refine .cons ?_
      simp only [readExponentDigits, if_pos hb]
      refine .ite (fun _ => ?_) fun _ => ih _
      exact Local.ite (.error _) (.skip (.pure _) isDigit) s
    · exact .stop_cons (local_scaled _ _ _) (fun s => if_neg hb) s

lemma local_readExponent (start : Int) : Local (readExponent negative significand start) := by
  have hdigits (up : Bool) {read : Reader Numeral}
      (hnil : read [] = .error (.behind .endInValue []))
      (hcons : ∀ b s, read (b :: s) =
        if isDigit b then readExponentDigits negative significand start up (digit b) s
        else .error (.behind .invalidNumber s)) : Local read := by
    intro s
    cases s with
    | nil => exact fun x t hread => by cases hnil.symm.trans hread
    | cons b s =>
      refine .cons ?_
      simp only [hcons]
      exact Local.ite (local_readExponentDigits _ _ _ _ _) (.error _) s
  intro s
  cases s with
  | nil => rintro x t ⟨⟩
  | cons b s =>
    by_cases hplus : b = ascii '+'
    · refine .cons ?_
      simp only [readExponent, if_pos hplus]
      exact hdigits true rfl (fun _ _ => rfl) s
    · by_cases hminus : b = ascii '-'
      · refine .cons ?_
        simp only [readExponent, if_neg hplus, if_pos hminus]
        exact hdigits false rfl (fun _ _ => rfl) s
      · -- without a sign, what follows is read as behind a plus
        have hunsigned : Local fun s => readExponent negative significand start (ascii '+' :: s) :=
          hdigits true rfl fun _ _ => rfl
        refine .stop_cons hunsigned (fun s => ?_) s
        simp only [readExponent, if_neg hplus, if_neg hminus, if_true]

lemma local_readScale (exponent : Int) : Local (readScale negative significand exponent) := by
  intro s
  cases s with
  | nil => exact .stop_nil (local_scaled _ _ _) rfl
  | cons b s =>
    by_cases hb : (b = ascii 'e' || b = ascii 'E') = true
    · refine .cons ?_
      simp only [readScale, if_pos hb]
      exact local_readExponent _ _ _ s
    · exact .stop_cons (local_scaled _ _ _) (fun s => if_neg hb) s

end

lemma local_readFraction (negative : Bool) (significand : Nat) (exponent : Int) (any : Bool) :
    Local (readFraction negative significand exponent any) := by
  intro s
  induction s generalizing significand exponent any with
  | nil =>
    cases any with
    | false => rintro x t ⟨⟩
    | true => exact .stop_nil (local_scaled _ _ _) rfl
  | cons b s ih =>
    by_cases hb : isDigit b
    · refine .cons ?_
      simp only [readFraction, if_pos hb]
      refine .ite (fun _ => ?_) fun _ => ih _ _ _
      exact Local.skip (local_readScale negative significand exponent) isDigit s
    · cases any with
      | false =>
        intro x t h
        rw [readFraction, if_neg hb] at h
        cases h
      | true => exact .stop_cons (local_readScale _ _ _) (fun s => if_neg hb) s

lemma local_readLong (negative : Bool) (significand : Nat) (exponent : Int) :
    Local (readLong negative significand exponent) := by
  intro s
  induction s generalizing exponent with
  | nil => exact .stop_nil (local_scaled _ _ _) rfl
  | cons b s ih =>
    by_cases hb : isDigit b
    · refine .cons ?_
      simp only [readLong, if_pos hb]
      exact ih _
    · by_cases hpoint : b = ascii '.'
      · refine .cons ?_
        simp only [readLong, if_neg hb, if_pos hpoint]
        exact local_readFraction _ _ _ _ s
      · refine .stop_cons (local_readScale negative significand exponent) (fun s => ?_) s
        rw [readLong, if_neg hb, if_neg hpoint]

lemma local_readAfterWhole (negative : Bool) (n : Nat) : Local (readAfterWhole negative n) := by
  intro s
  cases s with
  | nil => exact .stop_nil (local_whole _ _) rfl
  | cons b s =>
    by_cases hpoint : b = ascii '.'
    · refine .cons ?_
      simp only [readAfterWhole, if_pos hpoint]
      exact local_readFraction _ _ _ _ s
    · by_cases he : (b = ascii 'e' || b = ascii 'E') = true
      · refine .cons ?_
        simp only [readAfterWhole, if_neg hpoint, if_pos he]
        exact local_readExponent _ _ _ s
      · refine .stop_cons (local_whole negative n) (fun s => ?_) s
        rw [readAfterWhole, if_neg hpoint, if_neg he]

lemma local_readWhole (negative : Bool) (n : Nat) : Local (readWhole negative n) := by
  intro s
  induction s generalizing n with
  | nil => exact .stop_nil (local_whole _ _) rfl
  | cons b s ih =>
    by_cases hb : isDigit b
    · refine .cons ?_
      simp only [readWhole, if_pos hb]
      exact .ite (fun _ => local_readLong _ _ _ s) fun _ => ih _
    · exact .stop_cons (local_readAfterWhole _ _) (fun s => if_neg hb) s

lemma strict_readMagnitude (negative : Bool) : Strict (readMagnitude negative) where
  nil := by rintro x t ⟨⟩
  cons b := .ite (.peek (local_readAfterWhole _ _) _ _) (.ite (local_readWhole _ _) (.error _))

end Numeral

lemma strict_readNumeral : Strict readNumeral where
  nil := by rintro x t ⟨⟩
  cons b :=
    .ite (Numeral.strict_readMagnitude true).local ((Numeral.strict_readMagnitude false).cons b)

/-! ### Brackets and colons -/

/-- A step that passes blanks and one byte. -/
def Passes (pass : Bytes → Except Fault Bytes) (b : UInt8) : Prop :=
  ∀ s t, pass s = .ok t ↔ skipBlanks s = b :: t

lemma passes_closeArray : Passes closeArray (ascii ']') := by
  intro s t
  unfold closeArray
  grind

lemma passes_closeObject : Passes closeObject (ascii '\x7d') := by
  intro s t
  unfold closeObject
  grind

lemma passes_readColon : Passes readColon (ascii ':') := by
  intro s t
  unfold readColon
  grind

section

variable {α β : Type}

lemma Passes.exists_append {pass : Bytes → Except Fault Bytes} {b : UInt8} (h : Passes pass b)
    {s t : Bytes} (hs : pass s = .ok t) :
    ∃ u, s = u ++ b :: t ∧ ∀ w, pass (u ++ b :: w) = .ok w := by
  obtain ⟨-, u, rfl, hu⟩ := exists_of_skipBlanks_eq_cons ((h s t).mp hs)
  exact ⟨u, rfl, fun w => (h _ w).mpr (hu w)⟩

lemma Passes.local_bind {pass : Bytes → Except Fault Bytes} {b : UInt8} (h : Passes pass b)
    {f : Reader α} (hf : Local f) : Local fun s => pass s >>= f := by
  intro s x t hs
  obtain ⟨r, hr, hx⟩ := bind_eq_ok.mp hs
  obtain ⟨u, rfl, hu⟩ := h.exists_append hr
  obtain ⟨v, rfl, hv⟩ := hf r x t hx
  refine ⟨u ++ b :: v, by simp, fun w hw => ?_⟩
  rw [List.append_assoc, List.cons_append]
  simp only [hu]
  exact hv w hw

/-- A reader that sees where its value ends. -/
def Closed (read : Reader α) : Prop :=
  ∀ s x t, read s = .ok (x, t) → ∃ u, s = u ++ t ∧ ∀ w, read (u ++ w) = .ok (x, w)

lemma Closed.local {read : Reader α} (h : Closed read) : Local read := by
  intro s x t hread
  obtain ⟨u, rfl, hu⟩ := h s x t hread
  exact ⟨u, rfl, fun w _ => hu w⟩

/-- What takes nothing and sees its end would read the end of the document, too. -/
lemma Closed.strict {read : Reader α} (h : Closed read) (hnil : ∀ x t, read [] ≠ .ok (x, t)) :
    Strict read := by
  refine ⟨hnil, fun b s x t hread => ?_⟩
  obtain ⟨u, hsplit, hu⟩ := h (b :: s) x t hread
  cases u with
  | nil => exact absurd (hu []) (hnil x [])
  | cons c u =>
    cases hsplit
    exact ⟨u, rfl, fun w _ => hu w⟩

lemma Closed.error (f : Bytes → Fault) :
    Closed fun s => (.error (f s) : Except Fault (α × Bytes)) := by
  rintro s x t ⟨⟩

lemma Closed.ite {p : Prop} [Decidable p] {f g : Reader α} (hf : Closed f) (hg : Closed g) :
    Closed fun s => if p then f s else g s := by
  by_cases h : p
  · simpa only [if_pos h] using hf
  · simpa only [if_neg h] using hg

lemma Closed.ofFirst {read : Reader α} (hblanks : ∀ s, read (skipBlanks s) = read s)
    (hnil : ∀ x t, read [] ≠ .ok (x, t))
    (hfirst : ∀ b, (∀ s, skipBlanks (b :: s) = b :: s) → Closed fun s => read (b :: s)) :
    Closed read := by
  intro s x t h
  rw [← hblanks] at h
  cases hs : skipBlanks s with
  | nil =>
    rw [hs] at h
    exact absurd h (hnil x t)
  | cons b r =>
    obtain ⟨hb, v, rfl, hv⟩ := exists_of_skipBlanks_eq_cons hs
    rw [hs] at h
    obtain ⟨u, rfl, hu⟩ := hfirst b (fun s => List.dropWhile_cons_of_neg (by simp [hb])) r x t h
    refine ⟨v ++ b :: u, by simp, fun w => ?_⟩
    rw [← hblanks, List.append_assoc, List.cons_append, hv]
    exact hu w

/-- The byte that is passed behind a value shows where the value ends. -/
lemma Passes.closed {pass : Bytes → Except Fault Bytes} {b : UInt8} (h : Passes pass b)
    {f : Reader α} (hf : Local f) (g : α → β) : Closed fun s => do
      let (x, s) ← f s
      return (g x, ← pass s) := by
  intro s y r hs
  obtain ⟨⟨x, t⟩, hx, hs⟩ := bind_eq_ok.mp hs
  obtain ⟨r', hr, heq⟩ := bind_eq_ok.mp hs
  cases heq
  obtain ⟨v, rfl, hv⟩ := h.exists_append hr
  obtain ⟨u, rfl, hu⟩ := hf s x _ hx
  refine ⟨u ++ (v ++ [b]), by simp, fun w => ?_⟩
  have hsplit : u ++ (v ++ [b]) ++ w = u ++ (v ++ b :: w) := by simp
  have hhead : (b :: w).head? = (b :: r).head? := rfl
  have hread : f (u ++ (v ++ b :: w)) = .ok (x, v ++ b :: w) := hu _ (head?_append_congr hhead v)
  rw [hsplit]
  simp only [hread, hv, bind, Except.bind]
  rfl

/-! ### Arrays and objects -/

lemma local_nextElement (first : Bool) : Local (nextElement first) := by
  refine .ofFirst (fun s => by simp only [nextElement, skipBlanks_skipBlanks])
    (by rintro x t ⟨⟩) fun b hb s => ?_
  by_cases hclose : b = ascii ']'
  · exact .stop_cons (.pure false) (fun s => by simp only [nextElement, hb, if_pos hclose]) s
  · cases first with
    | true =>
      refine .stop_cons (.pure true) (fun s => ?_) s
      simp only [nextElement, hb, if_neg hclose, if_true]
    | false =>
      refine .cons ?_
      simp only [nextElement, hb, if_neg hclose, Bool.false_eq_true, if_false]
      refine Local.ite (.ofFirst (fun s => by simp only [skipBlanks_skipBlanks])
        (by rintro x t ⟨⟩) fun c hc s => ?_) (.error _) s
      by_cases htrailing : c = ascii ']'
      · refine .stop_cons (.error fun s => .before .trailingComma s) (fun s => ?_) s
        simp only [hc, if_pos htrailing]
      · exact .stop_cons (.pure true) (fun s => by simp only [hc, if_neg htrailing]) s

lemma local_nextKey (first : Bool) : Local (nextKey first) := by
  refine .ofFirst (fun s => by simp only [nextKey, skipBlanks_skipBlanks])
    (by rintro x t ⟨⟩) fun b hb s => ?_
  by_cases hclose : b = ascii '\x7d'
  · exact .stop_cons (.pure none) (fun s => by simp only [nextKey, hb, if_pos hclose]) s
  · refine .cons ?_
    cases first with
    | true =>
      simp only [nextKey, hb, if_neg hclose, if_true]
      exact Local.ite (.map local_readText some) (.error _) s
    | false =>
      simp only [nextKey, hb, if_neg hclose, Bool.false_eq_true, if_false]
      refine Local.ite (.ofFirst (fun s => by simp only [skipBlanks_skipBlanks])
        (by rintro x t ⟨⟩) fun c hc s => .cons ?_) (.error _) s
      simp only [hc]
      exact Local.ite (.map local_readText some) (.ite (.error _) (.error _)) s

/-- What the elements were read from is long enough to count them, so the bound on their number does
not matter. -/
lemma exists_of_readElements {element : Reader α} (h : Strict element) {most index : Nat}
    {done xs : List α} {s t : Bytes}
    (hread : readElements element most done index s = .ok (xs, t)) :
    ∃ u, s = u ++ t ∧ ∀ (w : Bytes) (most : Nat), w.head? = t.head? → u.length < most →
      readElements element most done index (u ++ w) = .ok (xs, w) := by
  induction most generalizing index done s with
  | zero => cases hread
  | succ most ih =>
    rw [readElements] at hread
    split at hread
    · cases hread
    · next r hnext =>
      cases hread
      obtain ⟨u, rfl, hu⟩ := local_nextElement _ s _ _ hnext
      refine ⟨u, rfl, fun w most hw hmost => ?_⟩
      obtain ⟨k, rfl⟩ := Nat.exists_eq_succ_of_ne_zero (Nat.ne_zero_of_lt hmost)
      simp only [readElements, hu w hw]
    · next r hnext =>
      split at hread
      · cases hread
      · next x r' helement =>
        obtain ⟨u, rfl, hu⟩ := local_nextElement _ s _ _ hnext
        obtain ⟨b, v, rfl, hv⟩ := h.exists_cons (mapError_eq_ok_iff.mp helement)
        obtain ⟨z, rfl, hz⟩ := ih hread
        refine ⟨u ++ b :: (v ++ z), by simp, fun w most hw hmost => ?_⟩
        obtain ⟨k, rfl⟩ := Nat.exists_eq_succ_of_ne_zero (Nat.ne_zero_of_lt hmost)
        have hsplit : u ++ b :: (v ++ z) ++ w = u ++ b :: (v ++ (z ++ w)) := by simp
        have hk : z.length < k := by
          simp only [List.length_append, List.length_cons] at hmost
          omega
        rw [hsplit, readElements, hu (b :: (v ++ (z ++ w))) rfl]
        simp only [hv _ (head?_append_congr hw z), under, Except.mapError]
        exact hz w k hw hk

/-- A key takes a byte. -/
lemma length_lt_of_nextKey {first : Bool} {key : String} {s t : Bytes}
    (h : nextKey first s = .ok (some key, t)) : t.length < s.length := by
  have hblanks (s : Bytes) : (skipBlanks s).length ≤ s.length :=
    List.length_dropWhile_le isBlank s
  have htext {r : Bytes}
      (hr : ((readText r).map fun p => (some p.1, p.2)) = .ok (some key, t)) :
      t.length ≤ r.length := by
    obtain ⟨⟨x, t'⟩, hx, heq⟩ := map_eq_ok_iff.mp hr
    cases heq
    obtain ⟨u, rfl, -⟩ := local_readText r _ _ hx
    simp
  have hs := hblanks s
  unfold nextKey at h
  split at h
  · cases h
  · next b r hskip =>
    have hr := hblanks r
    rw [hskip, List.length_cons] at hs
    split at h
    · cases h
    · split at h
      · split at h
        · have hle := htext h
          omega
        · cases h
      · split at h
        · split at h
          · cases h
          · next c t' hc =>
            rw [hc, List.length_cons] at hr
            split at h
            · have hle := htext h
              omega
            · split at h <;> cases h
        · cases h

section

variable {σ : Type} {member : σ → String → Reader σ} (h : ∀ state key, Local (member state key))

include h

/-- As with elements, the bound on the number of members does not matter. -/
lemma exists_of_readFurtherMembers {most : Nat} {first : Bool} {state last : σ} {s t : Bytes}
    (hread : readFurtherMembers member most first state s = .ok (last, t)) :
    ∃ u, s = u ++ t ∧ ∀ (w : Bytes) (most : Nat), w.head? = t.head? → u.length < most →
      readFurtherMembers member most first state (u ++ w) = .ok (last, w) := by
  induction most generalizing first state s with
  | zero => cases hread
  | succ most ih =>
    rw [readFurtherMembers] at hread
    split at hread
    · cases hread
    · next r hnext =>
      cases hread
      obtain ⟨u, rfl, hu⟩ := local_nextKey _ s _ _ (mapError_eq_ok_iff.mp hnext)
      refine ⟨u, rfl, fun w most hw hmost => ?_⟩
      obtain ⟨k, rfl⟩ := Nat.exists_eq_succ_of_ne_zero (Nat.ne_zero_of_lt hmost)
      simp only [readFurtherMembers, hu w hw, under, Except.mapError]
    · next key r hnext =>
      split at hread
      · cases hread
      · next between r' hmember =>
        have hkey := mapError_eq_ok_iff.mp hnext
        have hlength := length_lt_of_nextKey hkey
        obtain ⟨u, rfl, hu⟩ := local_nextKey _ s _ _ hkey
        obtain ⟨v, rfl, hv⟩ := h state key r between r' hmember
        obtain ⟨z, rfl, hz⟩ := ih hread
        refine ⟨u ++ (v ++ z), by simp, fun w most hw hmost => ?_⟩
        obtain ⟨k, rfl⟩ := Nat.exists_eq_succ_of_ne_zero (Nat.ne_zero_of_lt hmost)
        have hsplit : u ++ (v ++ z) ++ w = u ++ (v ++ (z ++ w)) := by simp
        have hk : z.length < k := by
          simp only [List.length_append] at hmost hlength
          omega
        have hrest := head?_append_congr hw z
        rw [hsplit, readFurtherMembers, hu _ (head?_append_congr hrest v)]
        simp only [hv _ hrest, under, Except.mapError]
        exact hz w k hw hk

lemma readMembers_eq_ok_iff {state last : σ} {s t : Bytes} :
    readMembers member state s = .ok (last, t) ↔
      ∃ most, readFurtherMembers member most true state s = .ok (last, t) := by
  refine ⟨fun hread => ⟨_, hread⟩, fun ⟨most, hread⟩ => ?_⟩
  obtain ⟨u, rfl, hu⟩ := exists_of_readFurtherMembers h hread
  refine hu t _ rfl ?_
  simp only [List.length_append]
  omega

lemma local_readMembers (state : σ) : Local (readMembers member state) := by
  intro s last t hread
  obtain ⟨u, rfl, hu⟩ := exists_of_readFurtherMembers h hread
  exact ⟨u, rfl, fun w hw => (readMembers_eq_ok_iff h).mpr ⟨_, hu w (u.length + 1) hw (by omega)⟩⟩

end

lemma closed_readArray {element : Reader α} (h : Strict element) : Closed (readArray element) := by
  refine passes_closeArray.closed (f := fun s => readElements element (s.length + 1) [] 0 s) ?_ id
  intro s xs t hread
  obtain ⟨u, rfl, hu⟩ := exists_of_readElements h hread
  refine ⟨u, rfl, fun w hw => hu w _ hw ?_⟩
  simp only [List.length_append]
  omega

end

end EnumForge.Document
