import EnumForge.Proofs.Rendering

/-!
Text cut into tokens by the rules of C++, as far as they are needed here: words, the double colon of
a scope, and all other marks one by one. White space ends a token and is dropped. A text without it
is made of its tokens again, so tokens that stand apart in a text are told from those that stand
together by its words.
-/

namespace EnumForge

open Text Identifier

/-! ### Tokens -/

inductive Token
  /-- Letters, digits and underscores, as many as stand together. -/
  | word (s : String)
  | scope
  | mark (c : Char)
  deriving DecidableEq

namespace Token

def spell : Token → List Char
  | word s => s.toList
  | scope => [':', ':']
  | mark c => [c]

/-- Puts a character in front of the word that comes first. -/
def grow (c : Char) : List Token → List Token
  | word s :: ts => word (.ofList (c :: s.toList)) :: ts
  | ts => ts

/-- The text begins with a character of a word. -/
def beginsWord (cs : List Char) : Bool := cs.head?.any (!isMark ·)

/-- The tokens of a text from those of all behind its first character. -/
def push (c : Char) (cs : List Char) (ts : List Token) : List Token :=
  if isBlank c then ts
  else if isMark c then mark c :: ts
  else if beginsWord cs then grow c ts
  else word (.ofList [c]) :: ts

def ofChars : List Char → List Token
  | [] => []
  | [c] => push c [] []
  | c :: d :: cs =>
    if c = ':' ∧ d = ':' then scope :: ofChars cs else push c (d :: cs) (ofChars (d :: cs))

def ofText (s : String) : List Token := ofChars s.toList

example : ofText "x = std::min<T>(a,_1);" = [word "x", mark '=', word "std", scope, word "min",
    mark '<', word "T", mark '>', mark '(', word "a", mark ',', word "_1", mark ')', mark ';'] := by
  decide

/-! ### One character -/

lemma isMark_of_isBlank {c : Char} (h : isBlank c) : isMark c := by
  have hle (a b : Char) : a ≤ b ↔ a.toNat ≤ b.toNat := Iff.rfl
  have hunderscore : c ≠ '_' := by
    rintro rfl
    cases h
  by_contra hmark
  rw [isMark, Bool.not_eq_true', Bool.not_eq_false, Bool.or_eq_true, beq_iff_eq,
    or_iff_left hunderscore] at hmark
  simp only [isLetter, isDigit, Bool.or_eq_true, Bool.and_eq_true, decide_eq_true_eq, hle,
    Char.reduceToNat] at hmark
  simp only [isBlank, Bool.or_eq_true, Bool.and_eq_true, decide_eq_true_eq, beq_iff_eq] at h
  omega

/-- No two characters at the seam of two texts belong to one token. -/
def Apart (as bs : List Char) : Prop :=
  ∀ a ∈ as.getLast?, ∀ b ∈ bs.head?, ¬ (isMark a = false ∧ isMark b = false) ∧
    ¬ (a = ':' ∧ b = ':')

lemma ofChars_scope (cs : List Char) : ofChars (':' :: ':' :: cs) = scope :: ofChars cs := rfl

lemma ofChars_cons {c : Char} {cs : List Char} (h : c = ':' → cs.head? ≠ some ':') :
    ofChars (c :: cs) = push c cs (ofChars cs) := by
  cases cs with
  | nil => rfl
  | cons d cs =>
    rw [ofChars, if_neg]
    rintro ⟨hc, rfl⟩
    exact h hc rfl

section

variable {c : Char} (cs : List Char)

lemma ofChars_blank (h : isBlank c) : ofChars (c :: cs) = ofChars cs := by
  rw [ofChars_cons, push, if_pos h]
  rintro rfl
  cases h

lemma ofChars_mark (h : isMark c) (hblank : isBlank c = false)
    (hscope : c = ':' → cs.head? ≠ some ':') : ofChars (c :: cs) = mark c :: ofChars cs := by
  rw [ofChars_cons hscope, push, if_neg (by simp [hblank]), if_pos h]

lemma ofChars_letter (h : isMark c = false) : ofChars (c :: cs) =
    if beginsWord cs then grow c (ofChars cs) else word (.ofList [c]) :: ofChars cs := by
  have hblank : isBlank c = false := by
    rw [Bool.eq_false_iff]
    intro hblank
    rw [isMark_of_isBlank hblank] at h
    cases h
  rw [ofChars_cons, push, if_neg (by simp [hblank]), if_neg (by simp [h])]
  rintro rfl
  cases h

end

/-- A text begins with a double colon, a blank, another mark or a character of a word. -/
lemma ofChars_induction {P : List Char → Prop} (nil : P [])
    (scope : ∀ cs, P cs → P (':' :: ':' :: cs)) (blank : ∀ c cs, isBlank c → P cs → P (c :: cs))
    (mark : ∀ c cs, isMark c → isBlank c = false → (c = ':' → cs.head? ≠ some ':') → P cs →
      P (c :: cs))
    (letter : ∀ c cs, isMark c = false → P cs → P (c :: cs)) (cs : List Char) : P cs := by
  have hcons (c : Char) (cs : List Char) (hscope : c = ':' → cs.head? ≠ some ':') (ih : P cs) :
      P (c :: cs) := by
    cases hmark : isMark c with
    | false => exact letter c cs hmark ih
    | true =>
      cases hblank : isBlank c with
      | true => exact blank c cs hblank ih
      | false => exact mark c cs hmark hblank hscope ih
  fun_induction ofChars cs with
  | case1 => exact nil
  | case2 c => exact hcons c [] nofun nil
  | case3 c d cs h ih =>
    obtain ⟨rfl, rfl⟩ := h
    exact scope cs ih
  | case4 c d cs h ih =>
    refine hcons c _ ?_ ih
    rintro rfl hd
    exact h ⟨rfl, Option.some.inj hd⟩

/-! ### Words -/

/-- A word ends where the next character is none of its own. -/
lemma ofChars_word {w : List Char} (hne : w ≠ []) (hw : ∀ c ∈ w, isMark c = false)
    {rest : List Char} (hrest : beginsWord rest = false) :
    ofChars (w ++ rest) = word (.ofList w) :: ofChars rest := by
  induction w with
  | nil => exact absurd rfl hne
  | cons c w ih =>
    obtain ⟨hc, hw'⟩ := List.forall_mem_cons.mp hw
    rw [List.cons_append, ofChars_letter _ hc]
    cases w with
    | nil => rw [List.nil_append, hrest, if_neg Bool.false_ne_true]
    | cons d w =>
      have hbegins : beginsWord (d :: w ++ rest) := by simp [beginsWord, hw' d List.mem_cons_self]
      rw [if_pos hbegins, ih (List.cons_ne_nil d w) hw', grow, String.toList_ofList]

lemma exists_ofChars_eq_word {cs : List Char} (h : beginsWord cs) :
    ∃ s ts, ofChars cs = word s :: ts := by
  cases cs with
  | nil => cases h
  | cons c cs =>
    have hc : isMark c = false := by simpa [beginsWord] using h
    rw [ofChars_letter cs hc]
    split
    · next hbegins =>
      obtain ⟨s, ts, hs⟩ := exists_ofChars_eq_word hbegins
      exact ⟨_, ts, by rw [hs, grow]⟩
    · exact ⟨_, _, rfl⟩

lemma Apart.of_cons {c : Char} {as bs : List Char} (h : Apart (c :: as) bs) : Apart as bs := by
  intro a ha
  refine h a ?_
  cases as with
  | nil => cases ha
  | cons d as => exact ha

/-- Texts are cut on their own if no token goes over the seam. -/
theorem ofChars_append {as bs : List Char} (h : Apart as bs) :
    ofChars (as ++ bs) = ofChars as ++ ofChars bs := by
  induction as using ofChars_induction with
  | nil => rfl
  | scope cs ih =>
    rw [List.cons_append, List.cons_append, ofChars_scope, ih h.of_cons.of_cons, ofChars_scope,
      List.cons_append]
  | blank c cs hc ih => rw [List.cons_append, ofChars_blank _ hc, ih h.of_cons, ofChars_blank _ hc]
  | mark c cs hc hblank hscope ih =>
    have hseam : c = ':' → (cs ++ bs).head? ≠ some ':' := by
      rintro rfl hhead
      cases cs with
      | nil => exact (h ':' rfl ':' hhead).2 ⟨rfl, rfl⟩
      | cons d cs => exact hscope rfl hhead
    rw [List.cons_append, ofChars_mark _ hc hblank hseam, ih h.of_cons,
      ofChars_mark _ hc hblank hscope, List.cons_append]
  | letter c cs hc ih =>
    rw [List.cons_append, ofChars_letter _ hc, ofChars_letter _ hc, ih h.of_cons]
    cases cs with
    | nil =>
      have hbegins : beginsWord bs = false := by
        cases bs with
        | nil => rfl
        | cons b bs =>
          have hb : isMark b := by
            by_contra hb
            exact (h c rfl b rfl).1 ⟨hc, by simpa using hb⟩
          simp [beginsWord, hb]
      rw [List.nil_append, hbegins]
      rfl
    | cons d cs =>
      have hhead : beginsWord (d :: cs ++ bs) = beginsWord (d :: cs) := rfl
      rw [hhead]
      split
      · next hbegins =>
        obtain ⟨s, ts, hs⟩ := exists_ofChars_eq_word hbegins
        rw [hs]
        rfl
      · rfl

/-- A word between marks, or at an end of the text. -/
lemma ofChars_append_word {as w : List Char} (has : ∀ a ∈ as.getLast?, isMark a) (hne : w ≠ [])
    (hw : ∀ c ∈ w, isMark c = false) {bs : List Char} (hbs : beginsWord bs = false) :
    ofChars (as ++ (w ++ bs)) = ofChars as ++ word (.ofList w) :: ofChars bs := by
  rw [ofChars_append, ofChars_word hne hw hbs]
  intro a ha b hb
  refine ⟨by simp [has a ha], ?_⟩
  rintro ⟨-, rfl⟩
  cases w with
  | nil => exact absurd rfl hne
  | cons c w =>
    cases hb
    cases hw ':' List.mem_cons_self

/-- An identifier between marks is one token. -/
lemma ofText_around {name : String} (hname : isIdentifier name) {front : String}
    (hfront : front.toList.getLast?.all isMark) {back : String}
    (hback : beginsWord back.toList = false) :
    ofText (front ++ name ++ back) = ofText front ++ word name :: ofText back := by
  have hne : name.toList ≠ [] := mt String.toList_eq_nil_iff.mp (ne_empty hname)
  have hchars : ∀ c ∈ name.toList, isMark c = false := by
    intro c hc
    by_contra hmark
    exact not_mem_of_isMark (by simpa using hmark) hname hc
  rw [ofText, String.toList_append, String.toList_append, List.append_assoc,
    ofChars_append_word ((Option.all_eq_true _ _).mp hfront) hne hchars hback,
    String.ofList_toList, ofText, ofText]

/-! ### Spelling -/

/-- A text without white space is made of its tokens. -/
theorem flatMap_spell_ofChars {cs : List Char} (h : ∀ c ∈ cs, isBlank c = false) :
    (ofChars cs).flatMap spell = cs := by
  induction cs using ofChars_induction with
  | nil => rfl
  | scope cs ih =>
    rw [List.forall_mem_cons, List.forall_mem_cons] at h
    rw [ofChars_scope, List.flatMap_cons, ih h.2.2]
    rfl
  | blank c cs hc ih =>
    rw [List.forall_mem_cons, hc] at h
    cases h.1
  | mark c cs hc hblank hscope ih =>
    rw [List.forall_mem_cons] at h
    rw [ofChars_mark _ hc hblank hscope, List.flatMap_cons, ih h.2]
    rfl
  | letter c cs hc ih =>
    rw [List.forall_mem_cons] at h
    have ih' := ih h.2
    rw [ofChars_letter _ hc]
    split
    · next hbegins =>
      obtain ⟨s, ts, hs⟩ := exists_ofChars_eq_word hbegins
      rw [hs, List.flatMap_cons, spell] at ih'
      rw [hs, grow, List.flatMap_cons, spell, String.toList_ofList, List.cons_append, ih']
    · rw [List.flatMap_cons, ih', spell, String.toList_ofList]
      rfl

/-- A word is spelled without marks. -/
lemma not_isMark_of_mem_ofChars {cs : List Char} {s : String} (h : word s ∈ ofChars cs) :
    ∀ c ∈ s.toList, isMark c = false := by
  induction cs using ofChars_induction generalizing s with
  | nil => cases h
  | scope cs ih => exact ih (by simpa [ofChars_scope] using h)
  | blank c cs hc ih =>
    rw [ofChars_blank _ hc] at h
    exact ih h
  | mark c cs hc hblank hscope ih =>
    rw [ofChars_mark _ hc hblank hscope] at h
    exact ih (by simpa using h)
  | letter c cs hc ih =>
    rw [ofChars_letter _ hc] at h
    split at h
    · next hbegins =>
      obtain ⟨s', ts, hs⟩ := exists_ofChars_eq_word hbegins
      rw [hs] at ih h
      rw [grow, List.mem_cons] at h
      rcases h with h | h
      · cases h
        rw [String.toList_ofList, List.forall_mem_cons]
        exact ⟨hc, ih List.mem_cons_self⟩
      · exact ih (List.mem_cons_of_mem _ h)
    · rw [List.mem_cons] at h
      rcases h with h | h
      · cases h
        simpa using hc
      · exact ih h

/-! ### The words of a text -/

/-- A text is one word, or it goes on behind a blank. -/
lemma blanks_induction {P : List Char → Prop}
    (single : ∀ w, (∀ c ∈ w, isBlank c = false) → P w)
    (behind : ∀ w b cs, (∀ c ∈ w, isBlank c = false) → isBlank b → P cs → P (w ++ b :: cs))
    (cs : List Char) : P cs := by
  have hfront : ∀ w, (∀ c ∈ w, isBlank c = false) → P (w ++ cs) := by
    induction cs with
    | nil => simpa using single
    | cons c cs ih =>
      intro w hw
      cases hc : isBlank c with
      | true => exact behind w c cs hw hc (ih [] nofun)
      | false =>
        have hw' : ∀ d ∈ w ++ [c], isBlank d = false := by
          rw [List.forall_mem_append, List.forall_mem_singleton]
          exact ⟨hw, hc⟩
        simpa using ih (w ++ [c]) hw'
  exact hfront [] nofun

/-- The tokens of a text are those of its words, one after another. -/
theorem ofText_eq_flatMap_words (s : String) : ofText s = (words s).flatMap ofText := by
  have hchars (cs : List Char) : ofChars cs = (cs.splitOnP isBlank).flatMap ofChars := by
    induction cs using blanks_induction with
    | single w hw => rw [List.splitOnP_eq_singleton hw, List.flatMap_singleton]
    | behind w b cs hw hb ih =>
      have hseam : Apart w (b :: cs) := by
        rintro a - _ ⟨⟩
        have hmark := isMark_of_isBlank hb
        refine ⟨by simp [hmark], ?_⟩
        rintro ⟨-, rfl⟩
        cases hb
      rw [ofChars_append hseam, ofChars_blank cs hb, ih,
        List.splitOnP_append_cons_of_forall_mem hw b hb, List.flatMap_cons]
  have hdrop (ws : List (List Char)) :
      ((ws.filter (!·.isEmpty)).map String.ofList).flatMap ofText = ws.flatMap ofChars := by
    induction ws with
    | nil => rfl
    | cons w ws ih =>
      cases w with
      | nil => simpa [ofChars] using ih
      | cons c w => simpa [ofText] using ih
  rw [words, hdrop, ofText, hchars]

lemma not_isBlank_of_mem_words {s w : String} (h : w ∈ words s) :
    w ≠ "" ∧ ∀ c ∈ w.toList, isBlank c = false := by
  have hpieces (cs : List Char) :
      ∀ piece ∈ cs.splitOnP isBlank, ∀ c ∈ piece, isBlank c = false := by
    induction cs using blanks_induction with
    | single w hw => simpa [List.splitOnP_eq_singleton hw] using hw
    | behind w b cs hw hb ih =>
      rw [List.splitOnP_append_cons_of_forall_mem hw b hb, List.forall_mem_cons]
      exact ⟨hw, ih⟩
  obtain ⟨piece, hpiece, rfl⟩ := List.mem_map.mp h
  obtain ⟨hmem, hne⟩ := List.mem_filter.mp hpiece
  rw [String.toList_ofList]
  refine ⟨?_, hpieces _ piece hmem⟩
  rintro hempty
  have hnil : piece = [] := by simpa using congrArg String.toList hempty
  rw [hnil] at hne
  cases hne

lemma ofList_flatMap_spell {s w : String} (h : w ∈ words s) :
    String.ofList ((ofText w).flatMap spell) = w := by
  rw [ofText, flatMap_spell_ofChars (not_isBlank_of_mem_words h).2, String.ofList_toList]

/-- The tokens of a text are those of its words, each of which is made of at least one. -/
lemma exists_parts (s : String) : ∃ parts : List (List Token), parts.flatten = ofText s ∧
    (∀ part ∈ parts, part ≠ []) ∧ words s = parts.map fun part => .ofList (part.flatMap spell) := by
  refine ⟨(words s).map ofText, ?_, ?_, ?_⟩
  · rw [ofText_eq_flatMap_words, List.flatMap_def]
  · refine List.forall_mem_map.mpr fun w hw hnil => ?_
    have hspell := ofList_flatMap_spell hw
    rw [hnil] at hspell
    exact (not_isBlank_of_mem_words hw).1 hspell.symm
  · rw [List.map_map]
    calc words s = (words s).map id := by rw [List.map_id]
      _ = (words s).map _ := List.map_congr_left fun w hw => (ofList_flatMap_spell hw).symm

/-- Where all tokens of a text are words, they are the words of the text. -/
theorem words_eq_of_ofText {s : String} {ws : List String} (h : ofText s = ws.map word) :
    words s = ws := by
  have hsingle : ∀ w ∈ words s, ofText w = [word w] := by
    intro w hw
    obtain ⟨hne, hblank⟩ := not_isBlank_of_mem_words hw
    have hchars : ∀ c ∈ w.toList, isMark c = false := by
      intro c hc
      rw [← flatMap_spell_ofChars hblank] at hc
      obtain ⟨t, ht, hct⟩ := List.mem_flatMap.mp hc
      have hmem : t ∈ ws.map word := by
        rw [← h, ofText_eq_flatMap_words]
        exact List.mem_flatMap_of_mem hw ht
      obtain ⟨u, -, rfl⟩ := List.mem_map.mp hmem
      exact not_isMark_of_mem_ofChars ht c hct
    have hword : ofChars (w.toList ++ []) = word (.ofList w.toList) :: ofChars [] :=
      ofChars_word (mt String.toList_eq_nil_iff.mp hne) hchars rfl
    simpa [ofText, ofChars] using hword
  have hwords : (words s).map word = ws.map word := by
    rw [← h, ofText_eq_flatMap_words, List.map_eq_flatMap]
    exact List.flatMap_congr fun w hw => (hsingle w hw).symm
  exact List.map_injective_iff.mpr (fun _ _ => Token.word.inj) hwords

end Token

end EnumForge
