import EnumForge.Proofs.LiteralReading
import EnumForge.Proofs.Rendering

/-!
Scanning text by the lexical rules of C++: line comments, string and character literals with their
escapes, and brackets. A text is well formed if no line ends inside a literal, every bracket is
closed by its own kind, innermost first, and nothing is left open at the end.

To the scan all words are alike: a text without brackets, quotes, slashes, backslashes and line
breaks takes it as far as one letter does. So a generated line is scanned with a letter for each of
its names, and what a layout leaves open is found by going through its lines.
-/

namespace EnumForge.Lexing

open Text Layout

/-! ### The scan -/

inductive Quote
  | single | double
  deriving DecidableEq

def Quote.char : Quote → Char
  | single => '\x27'
  | double => '\x22'

/-- What the next character is part of. -/
inductive Mode
  | code
  /-- Code behind a slash, which a second one makes a comment. -/
  | slash
  | comment
  | literal (quote : Quote)
  /-- A literal behind a backslash. -/
  | escape (quote : Quote)
  deriving DecidableEq

structure State where
  mode : Mode := .code
  /-- The brackets that still have to come, innermost first. -/
  missing : List Char := []
  deriving DecidableEq

def isLineBreak (c : Char) : Bool := c == '\n' || c == '\r'

/-- The bracket that closes one. -/
def closing? : Char → Option Char
  | '(' => some ')'
  | '[' => some ']'
  | '\x7b' => some '\x7d'
  | _ => none

/-- A character of code. A closing bracket has to be the one that is missing. -/
def stepCode (s : State) (c : Char) : Option State :=
  match closing? c with
  | some b => some { s with missing := b :: s.missing }
  | none =>
    if c = ')' ∨ c = ']' ∨ c = '\x7d' then
      if s.missing.head? = some c then some { s with missing := s.missing.tail } else none
    else if c = '\x27' then some { s with mode := .literal .single }
    else if c = '\x22' then some { s with mode := .literal .double }
    else if c = '/' then some { s with mode := .slash }
    else some s

/-- One character. No line may end inside a literal. -/
def step (s : State) (c : Char) : Option State :=
  match s.mode with
  | .code => stepCode s c
  | .slash =>
    if c = '/' then some { s with mode := .comment } else stepCode { s with mode := .code } c
  | .comment => some (if isLineBreak c then { s with mode := .code } else s)
  | .literal q =>
    if isLineBreak c then none
    else if c = '\\' then some { s with mode := .escape q }
    else if c = q.char then some { s with mode := .code }
    else some s
  | .escape q => if isLineBreak c then none else some { s with mode := .literal q }

def scan (s : State) (t : List Char) : Option State := t.foldlM step s

/-- The scan ends in code, and no bracket is missing. -/
def WellFormed (text : String) : Prop := scan {} text.toList = some {}

instance (text : String) : Decidable (WellFormed text) :=
  inferInstanceAs (Decidable (scan {} text.toList = some {}))

example : WellFormed "f(\"\\\"]\", \x27\x7b\x27); // (\n" ∧ ¬ WellFormed "f(x]" := by
  decide

lemma scan_nil (s : State) : scan s [] = some s := rfl

lemma scan_append (s : State) (t u : List Char) :
    scan s (t ++ u) = (scan s t).bind fun s => scan s u := List.foldlM_append

lemma scan_cons (s : State) (c : Char) (t : List Char) :
    scan s (c :: t) = (step s c).bind fun s => scan s t := List.foldlM_cons

/-! ### Text that opens nothing -/

/-- The state with more brackets missing further out. -/
def State.inside (s : State) (outer : List Char) : State :=
  { s with missing := s.missing ++ outer }

lemma stepCode_inside {s s' : State} {c : Char} (h : stepCode s c = some s') (outer : List Char) :
    stepCode (s.inside outer) c = some (s'.inside outer) := by
  obtain ⟨mode, missing⟩ := s
  unfold stepCode at h ⊢
  cases hclosing : closing? c with
  | some b =>
    simp only [hclosing, Option.some.injEq] at h ⊢
    rw [← h]
    rfl
  | none =>
    simp only [hclosing] at h ⊢
    split at h
    · next hbracket =>
      rw [if_pos hbracket]
      -- a bracket that is missing without the outer ones is the first of all
      cases missing with
      | nil => simp at h
      | cons b missing =>
        split at h
        · next hb =>
          rw [← Option.some.inj h, if_pos (by simpa [State.inside] using hb)]
          rfl
        · cases h
    · next hbracket =>
      rw [if_neg hbracket]
      split_ifs at h ⊢ <;> rw [← Option.some.inj h] <;> rfl

lemma step_inside {s s' : State} {c : Char} (h : step s c = some s') (outer : List Char) :
    step (s.inside outer) c = some (s'.inside outer) := by
  obtain ⟨mode, missing⟩ := s
  cases mode with
  | code => exact stepCode_inside h outer
  | slash =>
    simp only [step] at h
    simp only [step, State.inside]
    split at h
    · next hc =>
      rw [if_pos hc, ← Option.some.inj h]
    · next hc =>
      rw [if_neg hc]
      exact stepCode_inside h outer
  | comment =>
    simp only [step] at h
    simp only [step, State.inside]
    rw [← Option.some.inj h]
    split <;> rfl
  | literal q =>
    simp only [step] at h
    simp only [step, State.inside]
    split_ifs at h ⊢ <;> rw [← Option.some.inj h]
  | escape q =>
    simp only [step] at h
    simp only [step, State.inside]
    split_ifs at h ⊢
    rw [← Option.some.inj h]

/-- The scan does not see the brackets that are missing around the text. -/
lemma scan_inside {s s' : State} {t : List Char} (h : scan s t = some s') (outer : List Char) :
    scan (s.inside outer) t = some (s'.inside outer) := by
  induction t generalizing s with
  | nil =>
    rw [scan_nil, Option.some.injEq] at h
    rw [h, scan_nil]
  | cons c t ih =>
    rw [scan_cons, Option.bind_eq_some_iff] at h
    obtain ⟨s₁, hstep, hscan⟩ := h
    rw [scan_cons, step_inside hstep, Option.bind_some]
    exact ih hscan

/-- A text that takes code to code and closes just what it opens. -/
def Neutral (t : List Char) : Prop :=
  ∀ missing, scan ⟨.code, missing⟩ t = some ⟨.code, missing⟩

lemma neutral_iff {t : List Char} : Neutral t ↔ scan {} t = some {} := by
  constructor
  · exact fun h => h []
  · exact fun h missing => scan_inside h missing

lemma neutral_nil : Neutral [] := fun _ => rfl

lemma Neutral.append {t u : List Char} (ht : Neutral t) (hu : Neutral u) : Neutral (t ++ u) := by
  intro missing
  rw [scan_append, ht, Option.bind_some, hu]

/-! ### Words -/

/-- The characters that the scan looks for. -/
def signs : List Char :=
  ['(', ')', '[', ']', '\x7b', '\x7d', '\x27', '\x22', '/', '\\', '\n', '\r']

/-- A character that the scan only passes over. -/
def isInert (c : Char) : Bool := !signs.contains c

/-- A text of inert characters, at least one. -/
def IsWord (t : List Char) : Prop := t ≠ [] ∧ ∀ c ∈ t, isInert c

lemma stepCode_of_isInert {c : Char} (h : isInert c) (s : State) : stepCode s c = some s := by
  simp only [isInert, signs, List.contains_eq_mem, List.mem_cons, List.not_mem_nil, or_false,
    Bool.not_eq_true', decide_eq_false_iff_not, not_or] at h
  obtain ⟨h₁, h₂, h₃, h₄, h₅, h₆, h₇, h₈, h₉, -⟩ := h
  have hclosing : closing? c = none := by
    unfold closing?
    split <;> simp_all
  simp [stepCode, hclosing, h₂, h₄, h₆, h₇, h₈, h₉]

/-- An inert character takes the scan where a letter does, and a second one no further. -/
lemma step_of_isInert {c : Char} (h : isInert c) (s : State) :
    ∃ s', step s c = some s' ∧ step s 'x' = some s' ∧ step s' 'x' = some s' := by
  obtain ⟨mode, missing⟩ := s
  have hx : isInert 'x' := by decide
  have hbreak : isLineBreak c = false := by
    rw [Bool.eq_false_iff]
    intro hc
    rcases (by simpa [isLineBreak] using hc : c = '\n' ∨ c = '\r') with rfl | rfl <;> cases h
  have hslash : c ≠ '/' := by rintro rfl; cases h
  have hback : c ≠ '\\' := by rintro rfl; cases h
  have hquote : ∀ q : Quote, c ≠ q.char := by rintro (_ | _) rfl <;> cases h
  have hquote' : ∀ q : Quote, 'x' ≠ q.char := by rintro (_ | _) <;> decide
  cases mode with
  | code =>
    exact ⟨_, stepCode_of_isInert h _, stepCode_of_isInert hx _, stepCode_of_isInert hx _⟩
  | slash =>
    refine ⟨⟨.code, missing⟩, ?_, ?_, stepCode_of_isInert hx _⟩
    · simp [step, hslash, stepCode_of_isInert h]
    · simp [step, stepCode_of_isInert hx]
  | comment => exact ⟨⟨.comment, missing⟩, by simp [step, hbreak], rfl, rfl⟩
  | literal q =>
    refine ⟨⟨.literal q, missing⟩, ?_, ?_, ?_⟩
    · simp [step, hbreak, hback, hquote]
    · simp [step, isLineBreak, hquote']
    · simp [step, isLineBreak, hquote']
  | escape q =>
    refine ⟨⟨.literal q, missing⟩, ?_, ?_, ?_⟩
    · simp [step, hbreak]
    · simp [step, isLineBreak]
    · simp [step, isLineBreak, hquote']

/-- **Words**: every word takes the scan where one letter does. -/
theorem scan_word {t : List Char} (h : IsWord t) (s : State) : scan s t = scan s ['x'] := by
  obtain ⟨hne, hall⟩ := h
  cases t with
  | nil => exact absurd rfl hne
  | cons c t =>
    rw [List.forall_mem_cons] at hall
    obtain ⟨s', hc, hx, hstay⟩ := step_of_isInert hall.1 s
    rw [scan_cons, scan_cons, hc, hx, Option.bind_some, Option.bind_some, scan_nil]
    have hrest : ∀ u : List Char, (∀ c ∈ u, isInert c) → scan s' u = some s' := by
      intro u hu
      induction u with
      | nil => rfl
      | cons d u ih =>
        rw [List.forall_mem_cons] at hu
        obtain ⟨s'', hd, hx', -⟩ := step_of_isInert hu.1 s'
        rw [scan_cons, hd, Option.bind_some, ← Option.some.inj (hstay.symm.trans hx')]
        exact ih hu.2
    exact hrest t hall.2

lemma IsWord.neutral {t : List Char} (h : IsWord t) : Neutral t := by
  rw [neutral_iff, scan_word h]
  decide

lemma isWord_of_not_mem {t : List Char} (hne : t ≠ []) (h : ∀ c ∈ signs, c ∉ t) : IsWord t := by
  refine ⟨hne, fun c hc => ?_⟩
  rw [isInert, Bool.not_eq_true', Bool.eq_false_iff]
  intro hsign
  exact h c (List.contains_iff_mem.mp hsign) hc

/-- A text without marks is a word, and colons and spaces may stand in it. -/
lemma isWord_of_isMark {t : List Char} (hne : t ≠ [])
    (h : ∀ c, Identifier.isMark c → c ≠ ':' → c ≠ ' ' → c ∉ t) : IsWord t := by
  have hsigns : signs.all fun c => Identifier.isMark c && c != ':' && c != ' ' := by decide
  refine isWord_of_not_mem hne fun c hc => ?_
  have hsign := List.all_eq_true.mp hsigns c hc
  simp only [Bool.and_eq_true, bne_iff_ne] at hsign
  exact h c hsign.1.1 hsign.1.2 hsign.2

lemma isWord_toDigits (n : Nat) : IsWord (Nat.toDigits 10 n) := by
  have hsigns : signs.all fun c => !c.isDigit := by decide
  refine isWord_of_not_mem Nat.toDigits_ne_nil fun c hc => Reading.not_mem_toDigits ?_ n
  simpa using List.all_eq_true.mp hsigns c hc

lemma isWord_toString (i : Int) : IsWord (toString i).toList := by
  have hsigns : signs.all fun c => !c.isDigit && c != '-' := by decide
  have hne : (toString i).toList ≠ [] := by
    rcases Int.lt_or_le i 0 with hneg | hpos
    · rw [Reading.toList_toString_of_neg hneg]
      exact List.cons_ne_nil _ _
    · rw [Reading.toList_toString_of_nonneg hpos]
      exact Nat.toDigits_ne_nil
  refine isWord_of_not_mem hne fun c hc => ?_
  have hsign := List.all_eq_true.mp hsigns c hc
  simp only [Bool.and_eq_true, Bool.not_eq_true', bne_iff_ne] at hsign
  exact Reading.not_mem_toString hsign.1 hsign.2 i

/-! ### Literals -/

/-- A text that can stand between double quotes as it is. -/
def IsQuotable (t : List Char) : Prop := ∀ c ∈ t, c ≠ '\x22' ∧ c ≠ '\\' ∧ isLineBreak c = false

lemma neutral_quoted {t : List Char} (h : IsQuotable t) :
    Neutral ('\x22' :: (t ++ ['\x22'])) := by
  intro missing
  have hinside : scan ⟨.literal .double, missing⟩ t = some ⟨.literal .double, missing⟩ := by
    induction t with
    | nil => rfl
    | cons c t ih =>
      obtain ⟨⟨hquote, hback, hbreak⟩, hrest⟩ := List.forall_mem_cons.mp h
      have hstep : step ⟨.literal .double, missing⟩ c = some ⟨.literal .double, missing⟩ := by
        simp [step, hbreak, hback, Quote.char, hquote]
      rw [scan_cons, hstep, Option.bind_some]
      exact ih hrest
  have hopen : step ⟨.code, missing⟩ '\x22' = some ⟨.literal .double, missing⟩ := rfl
  rw [scan_cons, hopen, Option.bind_some, scan_append, hinside, Option.bind_some]
  rfl

/-- Every character literal closes its quotes itself, whatever its character is. -/
lemma neutral_character (c : Char) : Neutral (Literal.character c).toList := by
  rw [Literal.character, String.toList_ofList, neutral_iff]
  unfold Literal.escape
  split_ifs with hmark hn hr ht hzero hcontrol
  · rcases (by simpa using hmark : c = '\x27' ∨ c = '\\') with rfl | rfl <;> decide
  · decide
  · decide
  · decide
  · decide
  · have hdigits : ∀ n : Fin 16, isInert (Nat.digitChar n) := by decide
    have hlt : c.toNat / 16 < 16 := by
      rw [Bool.or_eq_true, decide_eq_true_eq, decide_eq_true_eq] at hcontrol
      omega
    have hword : IsWord [Nat.digitChar (c.toNat / 16), Nat.digitChar (c.toNat % 16)] := by
      refine ⟨by simp, ?_⟩
      rw [List.forall_mem_cons, List.forall_mem_singleton]
      exact ⟨hdigits ⟨_, hlt⟩, hdigits ⟨_, Nat.mod_lt _ (by decide)⟩⟩
    have hsplit : '\x27' :: (['\\', 'x', Nat.digitChar (c.toNat / 16),
        Nat.digitChar (c.toNat % 16)] ++ ['\x27']) = ['\x27', '\\', 'x'] ++
          ([Nat.digitChar (c.toNat / 16), Nat.digitChar (c.toNat % 16)] ++ ['\x27']) := rfl
    rw [hsplit]
    simp only [scan_append, scan_word hword]
    decide
  · have hne : c ≠ '\x27' ∧ c ≠ '\\' := by simpa using hmark
    have hstep : step ⟨.literal .single, []⟩ c = some ⟨.literal .single, []⟩ := by
      simp [step, isLineBreak, hn, hr, hne.1, hne.2, Quote.char]
    have hopen : step {} '\x27' = some ⟨.literal .single, []⟩ := rfl
    rw [scan_cons, hopen, Option.bind_some, List.singleton_append, scan_cons, hstep]
    rfl

lemma neutral_integer (i : Int) : Neutral (Literal.integer i).toList := by
  unfold Literal.integer
  split_ifs with hleast hgreat
  · rw [hleast, neutral_iff]
    decide +kernel
  · rw [String.toList_append]
    exact (isWord_toString i).neutral.append (neutral_iff.mpr (by decide))
  · exact (isWord_toString i).neutral

lemma neutral_value (v : Value) : Neutral (Literal.value v).toList := by
  cases v with
  | integer i => exact neutral_integer i
  | char c => exact neutral_character c

/-! ### Lines -/

/-- The brackets that are missing behind a line, if it does not end inside a literal. -/
def scanLine (t missing : List Char) : Option (List Char) :=
  (scan ⟨.code, missing⟩ (t ++ ['\n'])).map State.missing

/-- The brackets that are missing behind some lines. -/
def scanLines (ts : List (List Char)) (missing : List Char) : Option (List Char) :=
  ts.foldlM (fun missing t => scanLine t missing) missing

lemma scanLines_nil (missing : List Char) : scanLines [] missing = some missing := rfl

lemma scanLines_cons (t : List Char) (ts : List (List Char)) (missing : List Char) :
    scanLines (t :: ts) missing = (scanLine t missing).bind fun missing => scanLines ts missing :=
  List.foldlM_cons

lemma scanLines_append (ts us : List (List Char)) (missing : List Char) :
    scanLines (ts ++ us) missing =
      (scanLines ts missing).bind fun missing => scanLines us missing := List.foldlM_append

lemma scanLines_singleton (t missing : List Char) : scanLines [t] missing = scanLine t missing := by
  rw [scanLines_cons]
  exact Option.bind_fun_some _

/-- Behind a line break there is code. -/
lemma scan_line (t missing : List Char) :
    scan ⟨.code, missing⟩ (t ++ ['\n']) = (scanLine t missing).map (State.mk .code) := by
  have hcode : ∀ s s', step s '\n' = some s' → s'.mode = .code := by
    rintro ⟨mode, missing⟩ s' h
    cases mode with
    | literal q => simp [step, isLineBreak] at h
    | escape q => simp [step, isLineBreak] at h
    | _ =>
      cases h
      rfl
  rw [scanLine]
  cases hs : scan ⟨.code, missing⟩ (t ++ ['\n']) with
  | none => rfl
  | some s' =>
    rw [scan_append, Option.bind_eq_some_iff] at hs
    obtain ⟨s, -, hlast⟩ := hs
    rw [scan_cons, Option.bind_eq_some_iff] at hlast
    obtain ⟨s'', hstep, hnil⟩ := hlast
    cases hnil
    obtain ⟨mode, missing'⟩ := s'
    cases hcode _ _ hstep
    rfl

lemma scan_unlines (ts : List (List Char)) (missing : List Char) :
    scan ⟨.code, missing⟩ (unlines ts) = (scanLines ts missing).map (State.mk .code) := by
  induction ts generalizing missing with
  | nil => rfl
  | cons t ts ih =>
    have hsplit : unlines (t :: ts) = t ++ ['\n'] ++ unlines ts := by simp
    rw [hsplit, scan_append, scan_line, scanLines_cons]
    cases scanLine t missing with
    | none => rfl
    | some missing' => exact ih missing'

lemma scanLine_of_neutral {t : List Char} (h : Neutral t) (missing : List Char) :
    scanLine t missing = some missing := by
  rw [scanLine, scan_append, h]
  rfl

lemma scanLine_inside {t missing missing' : List Char} (h : scanLine t missing = some missing')
    (outer : List Char) : scanLine t (missing ++ outer) = some (missing' ++ outer) := by
  have hscan := scan_line t missing
  rw [h] at hscan
  have hinside : scan ⟨.code, missing ++ outer⟩ (t ++ ['\n']) = some ⟨.code, missing' ++ outer⟩ :=
    scan_inside hscan outer
  rw [scanLine, hinside]
  rfl

lemma scanLines_inside {ts : List (List Char)} {missing missing' : List Char}
    (h : scanLines ts missing = some missing') (outer : List Char) :
    scanLines ts (missing ++ outer) = some (missing' ++ outer) := by
  induction ts generalizing missing with
  | nil =>
    rw [scanLines_nil, Option.some.injEq] at h
    rw [h, scanLines_nil]
  | cons t ts ih =>
    rw [scanLines_cons, Option.bind_eq_some_iff] at h
    obtain ⟨between, ht, hts⟩ := h
    rw [scanLines_cons, scanLine_inside ht, Option.bind_some]
    exact ih hts

/-- Spaces in front of a line do not count. -/
lemma scanLine_of_indents {r t : List Char} (h : Indents r t) (missing : List Char) :
    scanLine r missing = scanLine t missing := by
  obtain ⟨k, rfl⟩ := h
  have hspaces : Neutral (List.replicate k ' ') := by
    cases k with
    | zero => exact neutral_nil
    | succ k =>
      refine IsWord.neutral ⟨by simp, fun c hc => ?_⟩
      rw [List.eq_of_mem_replicate hc]
      decide
  rw [scanLine, scanLine, List.append_assoc, scan_append, hspaces, Option.bind_some]

lemma scanLines_of_indents {rs ts : List (List Char)} (h : List.Forall₂ Indents rs ts)
    (missing : List Char) : scanLines rs missing = scanLines ts missing := by
  induction h generalizing missing with
  | nil => rfl
  | cons hr _ ih =>
    rw [scanLines_cons, scanLines_cons, scanLine_of_indents hr]
    exact congrArg _ (funext ih)

end EnumForge.Lexing

namespace EnumForge.Layout

open Text Lexing

/-! ### Layouts -/

/-- The brackets that are missing behind a layout. -/
def nest (l : Layout) (missing : List Char) : Option (List Char) := scanLines l.texts missing

/-- The text of a layout is well formed if the layout leaves no bracket open. -/
lemma wellFormed_text {l : Layout} (h : l.nest [] = some []) : WellFormed l.text := by
  rw [WellFormed, toList_text, scan_unlines, scanLines_of_indents (forall₂_indents_rows l 0)]
  exact congrArg _ h

/-- What a layout does at the outermost level it does everywhere. -/
lemma nest_inside {l : Layout} (h : l.nest [] = some []) (missing : List Char) :
    l.nest missing = some missing := scanLines_inside h missing

lemma nest_empty (missing : List Char) : empty.nest missing = some missing := rfl

lemma nest_blank (missing : List Char) : blank.nest missing = some missing := rfl

lemma nest_line (s : String) (missing : List Char) :
    (line s).nest missing = scanLine s.toList missing := scanLines_singleton _ _

lemma nest_label (s : String) (missing : List Char) :
    (label s).nest missing = scanLine s.toList missing := scanLines_singleton _ _

lemma nest_append (first second : Layout) (missing : List Char) :
    (first ++ second).nest missing =
      (first.nest missing).bind fun missing => second.nest missing := scanLines_append _ _ _

lemma nest_all_nil (missing : List Char) : (all []).nest missing = some missing := rfl

lemma nest_all_cons (l : Layout) (ls : List Layout) (missing : List Char) :
    (all (l :: ls)).nest missing = (l.nest missing).bind fun missing => (all ls).nest missing :=
  nest_append l (all ls) missing

lemma nest_block (opening closing : String) (body : Layout) (missing : List Char) :
    (block opening closing body).nest missing =
      (scanLine opening.toList missing).bind fun missing =>
        (scanLine ['\x7b'] missing).bind fun missing =>
          (body.nest missing).bind fun missing => scanLine closing.toList missing := by
  have hopening : scanLines (if opening.isEmpty then [] else [opening.toList]) missing =
      scanLine opening.toList missing := by
    split
    · next hempty =>
      rw [String.isEmpty_iff.mp hempty]
      exact (scanLine_of_neutral neutral_nil missing).symm
    · exact scanLines_singleton _ _
  simp only [nest, texts, scanLines_append, hopening, scanLines_cons, scanLines_nil]
  simp

/-- A list in which every item closes what it opens. -/
lemma nest_list {items : List String} (h : ∀ s ∈ items, Neutral s.toList) (missing : List Char) :
    (list items).nest missing = some missing := by
  have hcomma : Neutral ",".toList := neutral_iff.mpr (by decide)
  rw [nest, texts]
  fun_induction withCommas items with
  | case1 => rfl
  | case2 s =>
    rw [List.map_singleton, scanLines_singleton]
    exact scanLine_of_neutral (h s List.mem_cons_self) missing
  | case3 s rest _ ih =>
    rw [List.forall_mem_cons] at h
    rw [List.map_cons, scanLines_cons, String.toList_append,
      scanLine_of_neutral (h.1.append hcomma), Option.bind_some]
    exact ih h.2

/-- Layouts each of which closes what it opens. -/
lemma nest_all {ls : List Layout} (h : ∀ l ∈ ls, l.nest [] = some []) (missing : List Char) :
    (all ls).nest missing = some missing := by
  induction ls with
  | nil => rfl
  | cons l ls ih =>
    rw [List.forall_mem_cons] at h
    rw [nest_all_cons, nest_inside h.1, Option.bind_some, ih h.2]

/-! ### Scopes -/

lemma scanLine_openingLine {s : String} (h : IsWord s.toList) (missing : List Char) :
    scanLine ("namespace " ++ s ++ " \x7b").toList missing = some ('\x7d' :: missing) := by
  simp only [scanLine, String.toList_append, scan_append, scan_word h]
  repeat rw [String.toList_ofList]
  rfl

lemma scanLine_closingLine {s : String} (h : IsWord s.toList) (missing : List Char) :
    scanLine ("\x7d // namespace " ++ s).toList ('\x7d' :: missing) = some missing := by
  simp only [scanLine, String.toList_append, scan_append, scan_word h]
  repeat rw [String.toList_ofList]
  rfl

variable {segments : List String}

lemma nest_openScope (h : ∀ s ∈ segments, IsWord s.toList) (missing : List Char) :
    (openScope segments).nest missing =
      some (List.replicate segments.length '\x7d' ++ missing) := by
  have hlines : scanLines (segments.map fun s => ("namespace " ++ s ++ " \x7b").toList) missing =
      some (List.replicate segments.length '\x7d' ++ missing) := by
    induction segments generalizing missing with
    | nil => rfl
    | cons s segments ih =>
      rw [List.forall_mem_cons] at h
      rw [List.map_cons, scanLines_cons, scanLine_openingLine h.1, Option.bind_some, ih h.2,
        List.length_cons, List.replicate_succ', List.append_assoc, List.singleton_append]
  rw [nest, texts, scanLines_append, hlines, Option.bind_some]
  split
  · rfl
  · exact scanLines_singleton _ _

lemma nest_closeScope (h : ∀ s ∈ segments, IsWord s.toList) (missing : List Char) :
    (closeScope segments).nest (List.replicate segments.length '\x7d' ++ missing) =
      some missing := by
  have h' : ∀ s ∈ segments.reverse, IsWord s.toList := fun s hs => h s (List.mem_reverse.mp hs)
  rw [nest, texts, ← List.length_reverse]
  generalize segments.reverse = ts at h'
  induction ts with
  | nil => rfl
  | cons s ts ih =>
    rw [List.forall_mem_cons] at h'
    rw [List.map_cons, scanLines_cons, List.length_cons, List.replicate_succ, List.cons_append,
      scanLine_closingLine h'.1, Option.bind_some, ih h'.2]

end EnumForge.Layout
