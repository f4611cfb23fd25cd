import EnumForge.Document.Fault

/-!
The smallest parts of a document: blanks, words and texts. A reader takes the bytes that are left
and gives back what it read together with what is left then.
-/

namespace EnumForge.Document

open Text (Bytes)

abbrev Reader (α : Type) := Bytes → Except Fault (α × Bytes)

/-- The byte of an ASCII character. -/
def ascii (c : Char) : UInt8 := c.toNat.toUInt8

def isBlank (b : UInt8) : Bool := b == 32 || b == 10 || b == 9 || b == 13

def skipBlanks (s : Bytes) : Bytes := s.dropWhile isBlank

/-- The rest of a word whose first letter has been read. -/
def readWord : List Char → Bytes → Except Fault Bytes
  | [], s => .ok s
  | _ :: _, [] => .error (.behind .endInValue [])
  | c :: cs, b :: s => if b = ascii c then readWord cs s else .error (.behind .expectedWord s)

/-! ### Texts -/

def hexValue? (b : UInt8) : Option Nat :=
  if ascii '0' ≤ b ∧ b ≤ ascii '9' then some (b.toNat - 48)
  else if ascii 'a' ≤ b ∧ b ≤ ascii 'f' then some (b.toNat - 87)
  else if ascii 'A' ≤ b ∧ b ≤ ascii 'F' then some (b.toNat - 55)
  else none

/-- The number of four hexadecimal digits. -/
def readHex : Reader Nat
  | a :: b :: c :: d :: s =>
    match hexValue? a, hexValue? b, hexValue? c, hexValue? d with
    | some a, some b, some c, some d => .ok (((a * 16 + b) * 16 + c) * 16 + d, s)
    | _, _, _, _ => .error (.behind .invalidEscape s)
  | _ => .error (.behind .endInText [])

/-- One byte that has to be `c`, in the middle of a text. -/
def expectInText (c : Char) (cause : Cause) : Bytes → Except Fault Bytes
  | [] => .error (.behind .endInText [])
  | b :: s => if b = ascii c then .ok s else .error (.behind cause s)

def isHighSurrogate (n : Nat) : Bool := 0xD800 ≤ n && n < 0xDC00

def isLowSurrogate (n : Nat) : Bool := 0xDC00 ≤ n && n < 0xE000

/-- A character by its number. One beyond the first plane is a pair of surrogates. -/
def readUnicodeEscape : Reader Char := fun s => do
  let (n, s) ← readHex s
  if isLowSurrogate n then .error (.behind .loneSurrogate s)
  else if isHighSurrogate n then do
    let s ← expectInText '\\' .unfinishedSurrogate s
    let s ← expectInText 'u' .unfinishedSurrogate s
    let (m, s) ← readHex s
    if isLowSurrogate m then
      .ok (.ofNat (0x10000 + (n - 0xD800) * 0x400 + (m - 0xDC00)), s)
    else .error (.behind .loneSurrogate s)
  else .ok (.ofNat n, s)

/-- The character that a backslash begins. -/
def readEscape : Reader Char
  | [] => .error (.behind .endInText [])
  | b :: s =>
    if b = ascii '\x22' then .ok ('\x22', s)
    else if b = ascii '\\' then .ok ('\\', s)
    else if b = ascii '/' then .ok ('/', s)
    else if b = ascii 'b' then .ok ('\x08', s)
    else if b = ascii 'f' then .ok ('\x0c', s)
    else if b = ascii 'n' then .ok ('\n', s)
    else if b = ascii 'r' then .ok ('\r', s)
    else if b = ascii 't' then .ok ('\t', s)
    else if b = ascii 'u' then readUnicodeEscape s
    else .error (.behind .invalidEscape s)

theorem readHex_length {s t : Bytes} {n : Nat} (h : readHex s = .ok (n, t)) :
    t.length ≤ s.length := by
  unfold readHex at h
  split at h
  · split at h
    · cases h
      simp only [List.length_cons]
      omega
    · cases h
  · cases h

theorem expectInText_length {c : Char} {cause : Cause} {s t : Bytes}
    (h : expectInText c cause s = .ok t) : t.length ≤ s.length := by
  unfold expectInText at h
  split at h
  · cases h
  · split at h
    · cases h
      simp
    · cases h

theorem readUnicodeEscape_length {s t : Bytes} {c : Char}
    (h : readUnicodeEscape s = .ok (c, t)) : t.length ≤ s.length := by
  unfold readUnicodeEscape at h
  cases h₁ : readHex s with
  | error f => simp [h₁, bind, Except.bind] at h
  | ok x =>
    obtain ⟨n, r⟩ := x
    have l₁ := readHex_length h₁
    simp only [h₁, bind, Except.bind] at h
    split at h
    · cases h
    split at h
    · cases h₂ : expectInText '\\' .unfinishedSurrogate r with
      | error f => simp [h₂] at h
      | ok r₂ =>
        have l₂ := expectInText_length h₂
        simp only [h₂] at h
        cases h₃ : expectInText 'u' .unfinishedSurrogate r₂ with
        | error f => simp [h₃] at h
        | ok r₃ =>
          have l₃ := expectInText_length h₃
          simp only [h₃] at h
          cases h₄ : readHex r₃ with
          | error f => simp [h₄] at h
          | ok y =>
            obtain ⟨m, r₄⟩ := y
            have l₄ := readHex_length h₄
            simp only [h₄] at h
            split at h
            · simp only [Except.ok.injEq, Prod.mk.injEq] at h
              rw [← h.2]
              omega
            · cases h
    · simp only [Except.ok.injEq, Prod.mk.injEq] at h
      rw [← h.2]
      exact l₁

/-- What is left after an escape is not longer. -/
theorem readEscape_length {s t : Bytes} {c : Char} (h : readEscape s = .ok (c, t)) :
    t.length ≤ s.length := by
  cases s with
  | nil => cases h
  | cons b r =>
    rw [readEscape] at h
    simp only [List.length_cons]
    have hu : readUnicodeEscape r = .ok (c, t) → t.length ≤ r.length + 1 :=
      fun h => Nat.le_succ_of_le (readUnicodeEscape_length h)
    have hr (d : Char) (h : (.ok (d, r) : Except Fault (Char × Bytes)) = .ok (c, t)) :
        t.length ≤ r.length + 1 := by
      cases h
      exact Nat.le_succ _
    iterate 8
      split at h
      · exact hr _ h
    split at h
    · exact hu h
    · cases h

/-- The characters up to the closing quote, behind those of `done`, which are in reverse. Bytes that
are no character are reported only once the text is known to end. `bad` is what is left from the
first of them on. Their place is counted from the end of the text in the bytes that the text stands
for, of which an escape has fewer than are written, so every escape moves it on. -/
def readTextBody (done : List Char) (bad : Option Bytes) (s : Bytes) :
    Except Fault (List Char × Bytes) :=
  match s with
  | [] => .error (.behind .endInText [])
  | b :: r =>
    if b = ascii '\x22' then
      match bad with
      | none => .ok (done.reverse, r)
      | some t => .error (.before .invalidUtf8 t)
    else if b = ascii '\\' then
      match _h : readEscape r with
      | .error f => .error f
      | .ok (c, t) =>
        readTextBody (c :: done) (bad.map (·.drop (r.length + 1 - t.length - c.utf8Size))) t
    else if b < 32 then .error (.behind .controlCharacter r)
    else
      match _h : Text.char? (b :: r) with
      | some (c, t) => readTextBody (c :: done) bad t
      | none => readTextBody done (bad.or (some (b :: r))) r
termination_by s.length
decreasing_by
  · exact Nat.lt_succ_of_le (readEscape_length _h)
  · exact Text.char?_length _h
  · simp

/-- A text whose opening quote has been read. -/
def readText : Reader String := fun s => do
  let (cs, s) ← readTextBody [] none s
  return (.ofList cs, s)

end EnumForge.Document
