import EnumForge.Proofs.LiteralReading

/-!
Reading the tables of a source file: the arrays with the size that is asserted behind each, and the
switch over the constants. Each is looked for behind the last line that can open it, since a file
name in front of all code may hold any text, line breaks included.
-/

namespace EnumForge.Reading

open Text Layout

/-! ### Lines without indentation -/

def unindented (l : List Char) : List Char := l.dropWhile (· == ' ')

/-- The lines of a text without the spaces in front of them. -/
def bareLines (text : String) : List (List Char) := (lines text.toList).map unindented

lemma unindented_replicate (k : Nat) (t : List Char) :
    unindented (List.replicate k ' ' ++ t) = unindented t := by
  induction k with
  | zero => rfl
  | succ k ih => rw [List.replicate_succ, List.cons_append, ← ih]; rfl

lemma mem_unindented {c : Char} (hc : c ≠ ' ') {l : List Char} (h : c ∈ l) : c ∈ unindented l := by
  induction l with
  | nil => cases h
  | cons x l ih =>
    by_cases hx : x = ' '
    · subst hx
      rcases List.mem_cons.mp h with rfl | h
      · exact absurd rfl hc
      · simpa [unindented] using ih h
    · simpa [unindented, hx] using h

lemma unindented_of_head? {l : List Char} (h : l.head? ≠ some ' ') : unindented l = l := by
  cases l with
  | nil => rfl
  | cons c l =>
    have hc : c ≠ ' ' := by simpa using h
    simp [unindented, hc]

/-- What a layout writes, without indentation. -/
def bare (l : Layout) : List (List Char) := l.texts.map unindented

lemma bare_all (ls : List Layout) : bare (all ls) = ls.flatMap bare := by
  rw [bare, texts_all, List.map_flatMap]
  rfl

/-- The last lines of a text are those that are written last, if none of these holds a line break.
-/
lemma exists_bareLines_text {l : Layout} {before behind : List (List Char)}
    (hl : bare l = before ++ behind) (hbehind : ∀ t ∈ behind, '\n' ∉ t) :
    ∃ before', bareLines l.text = before' ++ (behind ++ [[]]) := by
  have hrows : (l.rows 0).map unindented = before ++ behind := by
    rw [← hl]
    exact map_rows unindented_replicate l 0
  obtain ⟨rs, ss, hsplit, -, rfl⟩ := List.map_eq_append_iff.mp hrows
  have hbreak : ∀ r ∈ ss, '\n' ∉ r :=
    fun r hr hmem => hbehind _ (List.mem_map_of_mem hr) (mem_unindented (by decide) hmem)
  -- line breaks in the rows in front only cut these into more lines
  refine ⟨(rs.flatMap lines).map unindented, ?_⟩
  have hss := lines_unlines_append hbreak []
  rw [List.append_nil] at hss
  rw [bareLines, toList_text, hsplit, unlines_append, lines_unlines_flatMap, hss]
  simp [lines, unindented]

/-! ### Marks -/

/-- One of the marks stands in the line. -/
def hasMark (marks t : List Char) : Bool := t.any marks.contains

@[simp] lemma hasMark_nil (marks : List Char) : hasMark marks [] = false := rfl

@[simp] lemma hasMark_cons (marks : List Char) (c : Char) (t : List Char) :
    hasMark marks (c :: t) = (marks.contains c || hasMark marks t) := rfl

@[simp] lemma hasMark_append (marks s t : List Char) :
    hasMark marks (s ++ t) = (hasMark marks s || hasMark marks t) := List.any_append

lemma hasMark_iff {marks t : List Char} : hasMark marks t ↔ ∃ c ∈ t, c ∈ marks := by
  simp [hasMark]

/-- A line without a line break that is empty or holds one of the marks. -/
def Marked (marks t : List Char) : Prop := '\n' ∉ t ∧ (t.isEmpty || hasMark marks t)

lemma marked_nil (marks : List Char) : Marked marks [] := ⟨List.not_mem_nil, rfl⟩

lemma marked_iff {marks t : List Char} :
    Marked marks t ↔ '\n' ∉ t ∧ (t = [] ∨ ∃ c ∈ t, c ∈ marks) := by
  rw [Marked, Bool.or_eq_true, List.isEmpty_iff, hasMark_iff]

lemma marked_of_mem {marks t : List Char} (hbreak : '\n' ∉ t) {c : Char} (hc : c ∈ t)
    (hmark : c ∈ marks) : Marked marks t :=
  marked_iff.mpr ⟨hbreak, .inr ⟨c, hc, hmark⟩⟩

lemma Marked.mono {marks marks' t : List Char} (hsub : marks ⊆ marks') (h : Marked marks t) :
    Marked marks' t := by
  rw [marked_iff] at h ⊢
  exact ⟨h.1, h.2.imp_right fun ⟨c, hc, hmark⟩ => ⟨c, hc, hsub hmark⟩⟩

lemma Marked.unindented {marks t : List Char} (hspace : ' ' ∉ marks) (h : Marked marks t) :
    Marked marks (unindented t) := by
  rw [marked_iff] at h ⊢
  refine ⟨fun hmem => h.1 ((List.dropWhile_sublist _).subset hmem), ?_⟩
  rcases h.2 with rfl | ⟨c, hc, hmark⟩
  · exact .inl rfl
  · have hne : c ≠ ' ' := fun heq => hspace (heq ▸ hmark)
    exact .inr ⟨c, mem_unindented hne hc, hmark⟩

lemma marked_of_mem_bare {marks : List Char} (hspace : ' ' ∉ marks) {l : Layout}
    (h : ∀ t ∈ l.texts, Marked marks t) : ∀ t ∈ bare l, Marked marks t :=
  List.forall_mem_map.mpr fun t ht => (h t ht).unindented hspace

/-- Of a text, the lines behind the last one like `first` are those behind it in the layout, and an
empty one. -/
lemma exists_bareLines_behind {l : Layout} {first : List Char} {before behind : List (List Char)}
    (hl : bare l = before ++ first :: behind) (hbreak : ∀ t ∈ first :: behind, '\n' ∉ t)
    (hne : first ≠ []) (hbehind : first ∉ behind) :
    ∃ before', bareLines l.text = before' ++ first :: (behind ++ [[]]) ∧
      first ∉ behind ++ [[]] := by
  obtain ⟨before', hlines⟩ := exists_bareLines_text hl hbreak
  refine ⟨before', hlines, ?_⟩
  rw [List.mem_append, List.mem_singleton, not_or]
  exact ⟨hbehind, hne⟩

/-! ### Arrays -/

/-- The line in front of the items of an array. -/
def declaration (type name : String) : List Char := (type ++ " " ++ name ++ "[] =").toList

/-- What stands in front of the size of an array where it is asserted. -/
def beforeSize (name : String) : List Char :=
  ("static_assert(sizeof(" ++ name ++ ") / sizeof(" ++ name ++ "[0]) == ").toList

/-- The items of an array and the size that is asserted behind it. -/
def array? (type name : String) (ls : List (List Char)) : Option (List (List Char) × Nat) := do
  let behind ← behindLast? (· == declaration type name) ls
  let (items, rest) ← cut? [['\x7d', ';']] (← behind.dropPrefix? [['\x7b']])
  let (size, _) ← cut? [','] (← (← rest.head?).dropPrefix? (beforeSize name))
  return (← withoutCommas? items, ← decimal? size)

/-- An array is read back if its declaration does not stand behind it once more. -/
lemma array?_append {type name : String} {items : List String} {size : Nat} {message : List Char}
    {behind rest : List (List Char)}
    (hbehind : behind = ['\x7b'] :: ((withCommas items).map String.toList ++ ['\x7d', ';'] ::
      (beforeSize name ++ (Nat.toDigits 10 size ++ ',' :: message)) :: rest))
    (hlast : declaration type name ∉ behind)
    (hclosing : ['\x7d', ';'] ∉ (withCommas items).map String.toList)
    (before : List (List Char)) :
    array? type name (before ++ declaration type name :: behind) =
      some (items.map String.toList, size) := by
  have hfound := behindLast?_append (p := (· == declaration type name)) BEq.rfl
    (fun l hl => beq_false_of_ne fun h => hlast (h ▸ hl)) before
  have hbrace : behind.dropPrefix? [['\x7b']] = some behind.tail := by
    rw [hbehind]
    exact dropPrefix?_append [['\x7b']] _
  have hcut := cut?_append hclosing []
    ((beforeSize name ++ (Nat.toDigits 10 size ++ ',' :: message)) :: rest)
  rw [List.nil_append] at hcut
  have hcomma : ',' ∉ Nat.toDigits 10 size := not_mem_toDigits (by decide) size
  have hsize := cut?_append hcomma [] message
  rw [List.nil_append] at hsize
  rw [array?, hfound, Option.bind_eq_bind, Option.bind_some, hbrace, hbehind]
  simp only [List.tail_cons, Option.bind_eq_bind, Option.bind_some, hcut, List.head?_cons,
    dropPrefix?_append, hsize, withoutCommas?_withCommas, decimal?_toDigits]
  rfl

/-- An array of a text is read back if its items begin with a mark, as all behind it are marked, and
its declaration is not. -/
lemma array?_bareLines {l : Layout} {marks : List Char} {type name : String} {items : List String}
    {size : Nat} {message : List Char} {before rest : List (List Char)}
    (hl : bare l = before ++ declaration type name :: ['\x7b'] ::
      ((withCommas items).map String.toList ++ ['\x7d', ';'] ::
        (beforeSize name ++ (Nat.toDigits 10 size ++ ',' :: message)) :: rest))
    (hmarks : ['(', '\x7b', '\x7d'] ⊆ marks) (hbreak : '\n' ∉ declaration type name)
    (hdeclaration : ¬ Marked marks (declaration type name))
    (hname : '\n' ∉ name.toList) (hmessage : '\n' ∉ message)
    {x : Char} (hx : x ∈ marks) (hx' : x ≠ '\x7d')
    (hitems : ∀ s ∈ items, s.toList.head? = some x ∧ '\n' ∉ s.toList)
    (hrest : ∀ t ∈ rest, Marked marks t) :
    array? type name (bareLines l.text) = some (items.map String.toList, size) := by
  have hcommas : ∀ s ∈ withCommas items, s.toList.head? = some x ∧ '\n' ∉ s.toList :=
    forall_mem_withCommas (by simp +contextual) hitems
  have hsizeLine : Marked marks (beforeSize name ++ (Nat.toDigits 10 size ++ ',' :: message)) := by
    have hdigits : '\n' ∉ Nat.toDigits 10 size := not_mem_toDigits (by decide) size
    refine marked_of_mem ?_ (c := '(') (by simp [beforeSize]) (hmarks (by decide))
    simp [beforeSize, hname, hdigits, hmessage]
  obtain ⟨behind, hbehind⟩ : ∃ behind, behind = ['\x7b'] ::
      ((withCommas items).map String.toList ++ ['\x7d', ';'] ::
        (beforeSize name ++ (Nat.toDigits 10 size ++ ',' :: message)) :: rest) := ⟨_, rfl⟩
  have hmarked : ∀ t ∈ behind, Marked marks t := by
    rw [hbehind, List.forall_mem_cons, List.forall_mem_append, List.forall_mem_cons,
      List.forall_mem_cons, List.forall_mem_map]
    refine ⟨?_, fun s hs => ?_, ?_, hsizeLine, hrest⟩
    · exact marked_of_mem (by decide) List.mem_cons_self (hmarks (by decide))
    · exact marked_of_mem (hcommas s hs).2 (List.mem_of_head? (hcommas s hs).1) hx
    · exact marked_of_mem (by decide) List.mem_cons_self (hmarks (by decide))
  have hclosing : ['\x7d', ';'] ∉ (withCommas items).map String.toList := by
    intro hmem
    obtain ⟨s, hs, heq⟩ := List.mem_map.mp hmem
    have hhead := (hcommas s hs).1
    rw [heq] at hhead
    exact hx' (Option.some.inj hhead).symm
  rw [← hbehind] at hl
  obtain ⟨before', hlines, hlast⟩ := exists_bareLines_behind hl
    (List.forall_mem_cons.mpr ⟨hbreak, fun t ht => (hmarked t ht).1⟩)
    (fun hnil => hdeclaration (hnil ▸ marked_nil marks)) fun hmem => hdeclaration (hmarked _ hmem)
  have htail : behind ++ [[]] = ['\x7b'] ::
      ((withCommas items).map String.toList ++ ['\x7d', ';'] ::
        (beforeSize name ++ (Nat.toDigits 10 size ++ ',' :: message)) :: (rest ++ [[]])) := by
    rw [hbehind]
    simp
  rw [hlines]
  exact array?_append htail hlast hclosing before'

/-! ### Items of arrays -/

/-- A text in double quotes. -/
def quoted? (l : List Char) : Option String := do
  return .ofList (← (← l.dropPrefix? ['\x22']).dropSuffix? ['\x22'])

lemma quoted?_append (s : String) : quoted? ("\x22" ++ s ++ "\x22").toList = some s := by
  have hdrop := dropPrefix?_append ['\x22'] (s.toList ++ ['\x22'])
  rw [List.singleton_append] at hdrop
  simp [quoted?, hdrop, dropSuffix?_append]

/-- A name in double quotes and the value behind it, in braces. -/
def namedPair? (l : List Char) : Option (String × String) := do
  let (name, rest) ← cut? ['\x22'] (← l.dropPrefix? ['\x7b', ' ', '\x22'])
  return (.ofList name, .ofList (← (← rest.dropPrefix? [',', ' ']).dropSuffix? [' ', '\x7d']))

lemma namedPair?_append {name : String} (h : '\x22' ∉ name.toList) (value : String) :
    namedPair? ("\x7b \x22" ++ name ++ "\x22, " ++ value ++ " \x7d").toList =
      some (name, value) := by
  have hdrop := dropPrefix?_append ['\x7b', ' ', '\x22']
    (name.toList ++ '\x22' :: ([] ++ ([',', ' '] ++ (value.toList ++ [' ', '\x7d']))))
  have hcut := cut?_append h [] ([',', ' '] ++ (value.toList ++ [' ', '\x7d']))
  have htext : ("\x7b \x22" ++ name ++ "\x22, " ++ value ++ " \x7d").toList =
      ['\x7b', ' ', '\x22'] ++
        (name.toList ++ '\x22' :: ([] ++ ([',', ' '] ++ (value.toList ++ [' ', '\x7d'])))) := by
    simp
  rw [namedPair?, htext, hdrop]
  simp only [Option.bind_eq_bind, Option.bind_some, hcut, dropPrefix?_append, dropSuffix?_append,
    String.ofList_toList]
  rfl

/-! ### The look-up by place -/

/-- The generated look-up of a name by its place among the names. -/
def displayCode (name : String) (names : List String) : List (List Char) :=
  (["std::string const & display_name(std::size_t index)", "\x7b",
      "static std::string const names[] =", "\x7b"] ++
    withCommas (names.map fun n => "\x22" ++ n ++ "\x22") ++
    ["\x7d;", "static_assert(sizeof(names) / sizeof(names[0]) == " ++ toString names.length ++
        ", \x22display names out of sync with " ++ name ++ "\x22);",
      "return names[index];", "\x7d"]).map String.toList

/-! ### The switch -/

/-- A constant and the index that is returned for it. -/
def case? (name : String) (l : List Char) : Option (String × Nat) := do
  let (constant, rest) ← cut? [':'] (← l.dropPrefix? ("case " ++ name ++ "::").toList)
  let rest ← rest.dropPrefix? (" return " ++ name ++ "_tables::display_name(").toList
  return (.ofList constant, ← decimal? (← rest.dropSuffix? [')', ';']))

/-- The line of a case. -/
def caseLine (name : String) (c : String × Nat) : List Char :=
  ("case " ++ name ++ "::" ++ c.1 ++ ": return " ++ name ++ "_tables::display_name(" ++
    toString c.2 ++ ");").toList

lemma case?_caseLine (name : String) {c : String × Nat} (h : ':' ∉ c.1.toList) :
    case? name (caseLine name c) = some c := by
  have htext : caseLine name c = ("case " ++ name ++ "::").toList ++ (c.1.toList ++ ':' :: ([] ++
      ((" return " ++ name ++ "_tables::display_name(").toList ++
        (Nat.toDigits 10 c.2 ++ [')', ';'])))) := by
    simp [caseLine]
  rw [case?, htext, dropPrefix?_append]
  simp only [Option.bind_eq_bind, Option.bind_some, cut?_append h, dropPrefix?_append,
    dropSuffix?_append, decimal?_toDigits, String.ofList_toList]
  rfl

lemma marked_caseLine {marks : List Char} (hmark : ';' ∈ marks) {name : String}
    (hname : '\n' ∉ name.toList) {c : String × Nat} (hc : '\n' ∉ c.1.toList) :
    Marked marks (caseLine name c) := by
  have hdigits : '\n' ∉ Nat.toDigits 10 c.2 := not_mem_toDigits (by decide) c.2
  refine marked_of_mem ?_ (c := ';') (by simp [caseLine]) hmark
  simp [caseLine, hname, hc, hdigits]

/-- The line in front of the body of the look-up by value. -/
def valueLookup (name : String) : List Char :=
  ("std::string const & value_to_name(" ++ name ++ " value)").toList

/-- The cases of the switch over a value. Every line between its braces has to be one. -/
def switch? (name : String) (ls : List (List Char)) : Option (List (String × Nat)) := do
  let behind ← behindLast? (· == valueLookup name) ls
  let (cases, _) ← cut? [['\x7d']]
    (← behind.dropPrefix? [['\x7b'], "switch (value)".toList, ['\x7b']])
  cases.mapM (case? name)

lemma switch?_append {name : String} {cases behind rest : List (List Char)}
    (hbehind : behind = [['\x7b'], "switch (value)".toList, ['\x7b']] ++
      (cases ++ ['\x7d'] :: rest))
    (hlast : valueLookup name ∉ behind) (hclosing : ['\x7d'] ∉ cases)
    (before : List (List Char)) :
    switch? name (before ++ valueLookup name :: behind) = cases.mapM (case? name) := by
  have hfound := behindLast?_append (p := (· == valueLookup name)) BEq.rfl
    (fun l hl => beq_false_of_ne fun h => hlast (h ▸ hl)) before
  have hcut := cut?_append hclosing [] rest
  rw [List.nil_append] at hcut
  rw [switch?, hfound, Option.bind_eq_bind, Option.bind_some, hbehind, dropPrefix?_append,
    Option.bind_eq_bind, Option.bind_some, hcut]
  rfl

/-- The switch of a text is read back if all behind it is marked and its first line is not. -/
lemma switch?_bareLines {l : Layout} {marks : List Char} {name : String}
    {cases : List (String × Nat)} {before rest : List (List Char)}
    (hl : bare l = before ++ valueLookup name :: ([['\x7b'], "switch (value)".toList, ['\x7b']] ++
      (cases.map (caseLine name) ++ ['\x7d'] :: rest)))
    (hmarks : ['\x7b', '\x7d', ';'] ⊆ marks) (hname : '\n' ∉ name.toList)
    (hlookup : ¬ Marked marks (valueLookup name))
    (hcases : ∀ c ∈ cases, '\n' ∉ c.1.toList ∧ ':' ∉ c.1.toList)
    (hrest : ∀ t ∈ rest, Marked marks t) :
    switch? name (bareLines l.text) = some cases := by
  obtain ⟨behind, hbehind⟩ : ∃ behind, behind =
      [['\x7b'], "switch (value)".toList, ['\x7b']] ++
        (cases.map (caseLine name) ++ ['\x7d'] :: rest) := ⟨_, rfl⟩
  have hswitch : valueLookup name ≠ "switch (value)".toList := by simp [valueLookup]
  have hmarked : ∀ t ∈ behind, t = "switch (value)".toList ∨ Marked marks t := by
    have hbrace : Marked marks ['\x7b'] :=
      marked_of_mem (by decide) List.mem_cons_self (hmarks (by decide))
    rw [hbehind, List.forall_mem_append, List.forall_mem_cons, List.forall_mem_cons,
      List.forall_mem_singleton, List.forall_mem_append, List.forall_mem_cons, List.forall_mem_map]
    refine ⟨⟨.inr hbrace, .inl rfl, .inr hbrace⟩, fun c hc => .inr ?_, .inr ?_, fun t ht =>
      .inr (hrest t ht)⟩
    · exact marked_caseLine (hmarks (by decide)) hname (hcases c hc).1
    · exact marked_of_mem (by decide) List.mem_cons_self (hmarks (by decide))
  have hnot : valueLookup name ∉ behind := by
    intro hmem
    rcases hmarked _ hmem with heq | hmark
    · exact hswitch heq
    · exact hlookup hmark
  have hclosing : ['\x7d'] ∉ cases.map (caseLine name) := by
    intro hmem
    obtain ⟨c, -, heq⟩ := List.mem_map.mp hmem
    simp [caseLine] at heq
  have hbreak : ∀ t ∈ valueLookup name :: behind, '\n' ∉ t := by
    refine List.forall_mem_cons.mpr ⟨by simp [valueLookup, hname], fun t ht => ?_⟩
    rcases hmarked t ht with rfl | hmark
    · decide
    · exact hmark.1
  rw [← hbehind] at hl
  obtain ⟨before', hlines, hlast⟩ := exists_bareLines_behind hl hbreak
    (fun hnil => hlookup (hnil ▸ marked_nil marks)) hnot
  have htail : behind ++ [[]] = [['\x7b'], "switch (value)".toList, ['\x7b']] ++
      (cases.map (caseLine name) ++ ['\x7d'] :: (rest ++ [[]])) := by
    rw [hbehind]
    simp
  have hread : (cases.map (caseLine name)).mapM (case? name) = some (cases.map id) :=
    mapM_map_eq_some fun c hc => case?_caseLine name (hcases c hc).2
  rw [hlines, switch?_append htail hlast hclosing before', hread, List.map_id]

end EnumForge.Reading
