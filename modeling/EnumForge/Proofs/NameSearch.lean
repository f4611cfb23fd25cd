import EnumForge.Proofs.SourceTables
import EnumForge.Proofs.ZeroTerminated

/-!
The search for a name in the generated code, run on the table that is read back from a source file.
It halves the table as `std::lower_bound` does and compares zero-terminated strings, so of a key it
sees only what stands in front of the first zero. It answers as the look-up does, but for the keys
in which a declared name stands there.
-/

namespace EnumForge

open Layout Reading

/-! ### Halving -/

/-- The first of the places from `first` on, of which there are `count`, that is not `below`, if
those that are `below` come first; the place behind all of them if there is none. -/
def lowerBound (below : Nat → Bool) (first count : Nat) : Nat :=
  if count = 0 then first
  else
    let step := count / 2
    if below (first + step) then lowerBound below (first + step + 1) (count - (step + 1))
    else lowerBound below first step
termination_by count
decreasing_by all_goals omega

theorem lowerBound_boundary {below : Nat → Bool} (first count : Nat)
    (front : ∀ i j, i ≤ j → j < first + count → below j → below i) :
    lowerBound below first count ≤ first + count ∧
      (∀ i, first ≤ i → i < lowerBound below first count → below i) ∧
      (lowerBound below first count < first + count →
        below (lowerBound below first count) = false) := by
  fun_induction lowerBound below first count with
  | case1 first => exact ⟨by omega, fun i _ _ => by omega, fun h => by omega⟩
  | case2 first count hcount step hbelow ih =>
    obtain ⟨hle, hfront, hstop⟩ := ih fun i j hij hj => front i j hij (by omega)
    refine ⟨by omega, fun i hi hlt => ?_, fun hlt => hstop (by omega)⟩
    by_cases hmid : i ≤ first + step
    · exact front i (first + step) hmid (by omega) hbelow
    · exact hfront i (by omega) hlt
  | case3 first count hcount step hbelow ih =>
    obtain ⟨hle, hfront, hstop⟩ := ih fun i j hij hj => front i j hij (by omega)
    refine ⟨by omega, hfront, fun hlt => ?_⟩
    rcases Nat.lt_or_ge (lowerBound below first step) (first + step) with hin | hout
    · exact hstop hin
    · rw [Nat.le_antisymm hle hout]
      simpa using hbelow

/-- If the places that are `below` come first, they are those in front of the one that is found. -/
lemma lt_lowerBound_iff {below : Nat → Bool} {count : Nat}
    (front : ∀ i j, i ≤ j → j < count → below j → below i) {i : Nat} (hi : i < count) :
    i < lowerBound below 0 count ↔ below i := by
  obtain ⟨-, hfront, hstop⟩ := lowerBound_boundary 0 count (by simpa using front)
  refine ⟨hfront i (Nat.zero_le i), fun hbelow => ?_⟩
  by_contra hge
  have hfirst := front _ i (Nat.le_of_not_lt hge) hi hbelow
  rw [hstop (by omega)] at hfirst
  cases hfirst

/-! ### The generated search -/

namespace Reading

/-- The order by which the generated code searches. -/
def orderCode : List (List Char) :=
  ["bool name_less(char const * lhs, char const * rhs)", "\x7b",
    "return std::strcmp(lhs, rhs) < 0;", "\x7d"].map String.toList

/-- The generated search for a name. -/
def searchCode (name : String) : List (List Char) :=
  let tables := name ++ "_tables"
  ["template <>", name ++ " name_to_value<" ++ name ++ ">(std::string const & name)", "\x7b",
    tables ++ "::Entry const * first = std::begin(" ++ tables ++ "::by_name);",
    tables ++ "::Entry const * last = std::end(" ++ tables ++ "::by_name);",
    tables ++ "::Entry const * found = std::lower_bound(",
    "first, last, name.c_str(),",
    "[](" ++ tables ++ "::Entry const & entry, char const * key) \x7b return " ++ tables ++
      "::name_less(entry.name, key); \x7d);",
    "if (found == last || " ++ tables ++ "::name_less(name.c_str(), found->name))", "\x7b",
    "throw " ++ name ++ "LookupError(name);", "\x7d",
    "return found->value;", "\x7d"].map String.toList

lemma bare_infix_bare_all {l : Layout} {ls : List Layout} (h : l ∈ ls) :
    bare l <:+: bare (all ls) := by
  obtain ⟨before, behind, rfl⟩ := List.append_of_mem h
  rw [bare_all, List.flatMap_append, List.flatMap_cons]
  exact List.infix_append' _ _ _

end Reading

namespace SourceTables

/-- What the generated search returns for a key; nothing if it throws. -/
def search? (t : SourceTables) (key : Text.Bytes) : Option String :=
  let below (i : Nat) : Bool :=
    t.entries[i]?.any fun entry => Text.zeroTerminatedLess (Text.bytes entry.1) key
  match t.entries[lowerBound below 0 t.entries.length]? with
  | none => none
  | some entry =>
    if Text.zeroTerminatedLess key (Text.bytes entry.1) then none else some entry.2

section

variable {t : SourceTables} (hascending : t.entries.Pairwise fun a b => Text.less a.1 b.1)
  (hzero : ∀ entry ∈ t.entries, 0 ∉ Text.bytes entry.1) {key : Text.Bytes}

include hascending

lemma bytes_lt_bytes {i j : Nat} (hj : j < t.entries.length) (hij : i < j) :
    Text.bytes t.entries[i].1 < Text.bytes t.entries[j].1 :=
  (Text.less_iff_lt _ _).mp (List.pairwise_iff_getElem.mp hascending i j _ hj hij)

include hzero

/-- In front of the place at which the search stops are the entries with a lesser name than what the
key begins with. -/
lemma lt_place_iff {i : Nat} (hi : i < t.entries.length) :
    i < lowerBound (fun i => t.entries[i]?.any fun entry =>
        Text.zeroTerminatedLess (Text.bytes entry.1) key) 0 t.entries.length ↔
      Text.bytes t.entries[i].1 < Text.untilZero key := by
  have hless (i : Nat) (hi : i < t.entries.length) :
      (t.entries[i]?.any fun entry => Text.zeroTerminatedLess (Text.bytes entry.1) key) ↔
        Text.bytes t.entries[i].1 < Text.untilZero key := by
    rw [List.getElem?_eq_getElem hi, Option.any_some, Text.zeroTerminatedLess_iff,
      Text.untilZero_of_not_mem (hzero _ (List.getElem_mem hi))]
  rw [lt_lowerBound_iff (fun i j hij hj hlt => ?_) hi, hless i hi]
  rcases Nat.eq_or_lt_of_le hij with rfl | hij
  · exact hlt
  · rw [hless _ (by omega)] at hlt ⊢
    exact List.lt_trans (bytes_lt_bytes hascending hj hij) hlt

/-- In entries that ascend by names without a zero, the search finds the name that the key begins
with. -/
theorem search?_eq_some_iff {value : String} :
    t.search? key = some value ↔
      ∃ entry ∈ t.entries, Text.bytes entry.1 = Text.untilZero key ∧ entry.2 = value := by
  have hplace {i : Nat} (hi : i < t.entries.length) := @lt_place_iff t hascending hzero key i hi
  have hgreater {entry : String × String} (hmem : entry ∈ t.entries) :
      Text.zeroTerminatedLess key (Text.bytes entry.1) ↔
        Text.untilZero key < Text.bytes entry.1 := by
    rw [Text.zeroTerminatedLess_iff, Text.untilZero_of_not_mem (hzero _ hmem)]
  rw [search?]
  generalize lowerBound _ 0 t.entries.length = k at hplace
  constructor
  · intro hfound
    split at hfound
    · cases hfound
    · next entry hentry =>
      split at hfound
      · cases hfound
      · next hnot =>
        obtain ⟨hk, rfl⟩ := List.getElem?_eq_some_iff.mp hentry
        have hmem := List.getElem_mem hk
        have hge := mt (hplace hk).mpr (Nat.lt_irrefl k)
        rw [hgreater hmem, List.not_lt] at hnot
        exact ⟨_, hmem, List.le_antisymm hnot (List.not_lt.mp hge), Option.some.inj hfound⟩
  · rintro ⟨entry, hmem, hkey, rfl⟩
    obtain ⟨i, hi, rfl⟩ := List.getElem_of_mem hmem
    -- the search stops neither behind the entry of the key nor in front of it
    have hbehind : ¬ i < k := by
      rw [hplace hi, hkey]
      exact List.lt_irrefl _
    have hfront : ¬ k < i := fun hlt => by
      have hless := bytes_lt_bytes hascending hi hlt
      rw [hkey, ← hplace (Nat.lt_trans hlt hi)] at hless
      exact Nat.lt_irrefl k hless
    obtain rfl : k = i := by omega
    have hnot : ¬ Text.zeroTerminatedLess key (Text.bytes t.entries[k].1) := by
      rw [hgreater hmem, hkey]
      exact List.lt_irrefl _
    rw [List.getElem?_eq_getElem hi]
    exact if_neg hnot

end

end SourceTables

/-! ### The search and the look-up -/

/-- The bytes are those of a name for which the constant is found. -/
def Lookup.Finds (t : Lookup) (key : Text.Bytes) (c : Constant) : Prop :=
  ∃ n, Text.bytes n = key ∧ t.find? n = some c

namespace SourceTables

/-- The search for a key answers what the look-up of other bytes does: the constant that is found,
and nothing if none is found. -/
def Answers (t : SourceTables) (e : Enumeration) (key asked : Text.Bytes) : Prop :=
  (∀ c ∈ e.constants, t.search? key = some (e.definition.path c.name) ↔ e.tables.Finds asked c) ∧
    (t.search? key = none ↔ ∀ c, ¬ e.tables.Finds asked c)

section

variable {e : Enumeration} (he : e.Valid)

include he

lemma finds_iff {key : Text.Bytes} {c : Constant} :
    e.tables.Finds key c ↔ c ∈ e.constants ∧ Text.bytes c.name = key := by
  constructor
  · rintro ⟨n, rfl, hfind⟩
    obtain ⟨hmem, rfl⟩ := (Lookup.find?_eq_some_iff he.distinctNames).mp hfind
    exact ⟨hmem, rfl⟩
  · rintro ⟨hmem, rfl⟩
    exact ⟨c.name, rfl, (Lookup.find?_eq_some_iff he.distinctNames).mpr ⟨hmem, rfl⟩⟩

lemma zero_not_mem_names {c : Constant} (hc : c ∈ e.constants) : 0 ∉ Text.bytes c.name :=
  Text.zero_not_mem_bytes (Identifier.not_mem_of_isMark (by decide) (he.names c hc))

lemma search?_ofEnumeration {key : Text.Bytes} {value : String} :
    (ofEnumeration e).search? key = some value ↔
      ∃ c, e.tables.Finds (Text.untilZero key) c ∧ e.definition.path c.name = value := by
  have hmem (c : Constant) : c ∈ e.tables.byName ↔ c ∈ e.constants :=
    (Lookup.perm_byName e.constants).mem_iff
  have hascending : (ofEnumeration e).entries.Pairwise fun a b => Text.less a.1 b.1 :=
    List.pairwise_map.mpr (Lookup.ascending_byName he.distinctNames)
  have hzero : ∀ entry ∈ (ofEnumeration e).entries, 0 ∉ Text.bytes entry.1 :=
    List.forall_mem_map.mpr fun c hc => zero_not_mem_names he ((hmem c).mp hc)
  rw [search?_eq_some_iff hascending hzero]
  constructor
  · rintro ⟨entry, hentry, hkey, rfl⟩
    obtain ⟨c, hc, rfl⟩ := List.mem_map.mp hentry
    exact ⟨c, (finds_iff he).mpr ⟨(hmem c).mp hc, hkey⟩, rfl⟩
  · rintro ⟨c, hfinds, rfl⟩
    obtain ⟨hc, hkey⟩ := (finds_iff he).mp hfinds
    exact ⟨_, List.mem_map_of_mem ((hmem c).mpr hc), hkey, rfl⟩

/-- The search sees of a key what stands in front of the first zero. -/
theorem answers_untilZero (key : Text.Bytes) :
    (ofEnumeration e).Answers e key (Text.untilZero key) := by
  constructor
  · intro c hc
    rw [search?_ofEnumeration he]
    constructor
    · rintro ⟨c', hfinds, hpath⟩
      have hname : c'.name = c.name := by
        rw [← globalName_append, ← globalName_append] at hpath
        exact String.append_right_inj _ |>.mp hpath
      obtain ⟨hmem, -⟩ := (finds_iff he).mp hfinds
      rwa [← Lookup.eq_of_name_eq he.distinctNames hmem hc hname]
    · exact fun hfinds => ⟨c, hfinds, rfl⟩
  · rw [Option.eq_none_iff_forall_not_mem]
    constructor
    · exact fun hnone c hfinds =>
        hnone _ ((search?_ofEnumeration he).mpr ⟨c, hfinds, rfl⟩)
    · intro hnone value hvalue
      obtain ⟨c, hfinds, -⟩ := (search?_ofEnumeration he).mp hvalue
      exact hnone c hfinds

theorem answers_self_iff (key : Text.Bytes) :
    (ofEnumeration e).Answers e key key ↔
      0 ∉ key ∨ ∀ c, ¬ e.tables.Finds (Text.untilZero key) c := by
  have hcut := answers_untilZero he key
  by_cases hzero : 0 ∈ key
  · -- no name holds a zero, so the look-up finds nothing for the whole key
    have hnone : ∀ c, ¬ e.tables.Finds key c := by
      intro c hfinds
      obtain ⟨hmem, rfl⟩ := (finds_iff he).mp hfinds
      exact zero_not_mem_names he hmem hzero
    constructor
    · exact fun h => .inr (hcut.2.mp (h.2.mpr hnone))
    · rintro (h | h)
      · exact absurd hzero h
      · have hsearch := hcut.2.mpr h
        refine ⟨fun c _ => ?_, iff_of_true hsearch hnone⟩
        rw [hsearch]
        exact iff_of_false (by simp) (hnone c)
  · rw [Text.untilZero_of_not_mem hzero] at hcut
    exact iff_of_true hcut (.inl hzero)

end

end SourceTables

/-! ### The search in a source file -/

namespace Source

open Generated

/-- A source file up to the caller's own code. -/
def beforeCode (d : Definition) (t : Lookup) (headerFile : String) : Layout := .all [
  .line banner,
  .blank,
  includes d headerFile,
  .openScope d.scope,
  tables d t,
  .blank,
  lookupErrorMembers d,
  .blank,
  nameToValue d.name,
  .blank,
  valueToName d t,
  .blank,
  streamOperators d.name,
  .blank]

/-- A definition without the caller's own code in its source file. -/
def withoutCode (d : Definition) : Definition := { d with implementationCode := none }

lemma text_layout (d : Definition) (t : Lookup) (headerFile : String) :
    (layout d t headerFile).text = (beforeCode d t headerFile).text ++
      (Header.callerCode d.implementationCode).text ++ (closeScope d.scope).text := by
  apply String.toList_inj.mp
  simp [toList_text, layout, beforeCode]

/-- Without the caller's own code the rest of a source file is the same. -/
lemma text_layout_withoutCode (d : Definition) (t : Lookup) (headerFile : String) :
    (layout (withoutCode d) t headerFile).text =
      (beforeCode d t headerFile).text ++ (closeScope d.scope).text := by
  have hnone : (Header.callerCode none).text = "" := rfl
  rw [text_layout]
  simp only [withoutCode, hnone, String.append_empty]
  rfl

lemma bare_nameOrder : bare nameOrder = orderCode := by rfl

lemma bare_nameToValue {name : String} (h : Identifier.isIdentifier name) :
    bare (nameToValue name) = searchCode name := by
  have hspace : ' ' ∉ name.toList := Identifier.not_mem_of_isMark (by decide) h
  cases hname : name.toList with
  | nil =>
    rw [String.toList_eq_nil_iff.mp hname] at h
    cases h
  | cons c cs =>
    have hc : c ≠ ' ' := fun heq => hspace (by simp [hname, heq])
    simp [bare, nameToValue, searchCode, texts, unindented, tablesNamespace, lookupError, toString,
      hname, hc]

/-- Behind the entries stand the order and the search. -/
lemma code_infix_bareLines {e : Enumeration} (he : e.Valid)
    (hcode : e.definition.implementationCode = none) (headerFile : String) :
    orderCode <:+: bareLines (layout e.definition e.tables headerFile).text ∧
      searchCode e.definition.name <:+:
        bareLines (layout e.definition e.tables headerFile).text := by
  obtain ⟨before, hl⟩ : ∃ before, bare (layout e.definition e.tables headerFile) =
      before ++ (bare (behindEntries e.definition) ++
        (bare (valueSwitch e.definition e.tables) ++ bare (behindSwitch e.definition))) := by
    refine ⟨bare (front e.definition headerFile) ++
      (bare (namesTable e.definition.name e.tables) ++ (bare (behindNames e.definition) ++
        bare (entryTable e.definition.name (globalName e.definition) e.tables))), ?_⟩
    rw [bare_layout hcode, List.append_assoc, List.append_assoc, List.append_assoc]
  obtain ⟨before', hlines⟩ := exists_bareLines_text hl fun l hl => (marked_rest_entries he l hl).1
  have hbehind : bare (behindEntries e.definition) <:+:
      bareLines (layout e.definition e.tables headerFile).text := by
    rw [hlines, List.append_assoc]
    exact List.infix_append' _ _ _
  rw [behindEntries] at hbehind
  rw [← bare_nameOrder, ← bare_nameToValue he.typeName]
  exact ⟨(bare_infix_bare_all (by simp)).trans hbehind,
    (bare_infix_bare_all (by simp)).trans hbehind⟩

end Source

/-- **The generated search**: a source file is read back without the caller's own code. The table
in it is searched by the code behind it, and the search answers a key as the look-up does what
stands in front of the first zero. So it agrees with the look-up of the key itself unless the key
has a zero and a declared name in front of it. -/
theorem Definition.search_answers_iff {d : Definition} {e : Enumeration} (h : d.check = .ok e)
    {x : Extensions} (hx : x.header ≠ x.source) :
    ∃ files before behind t, e.render x = .ok files ∧
      files.source = before ++ (Header.callerCode d.implementationCode).text ++ behind ∧
      SourceTables.read? d.name (before ++ behind) = some t ∧
      orderCode <:+: bareLines (before ++ behind) ∧
      searchCode d.name <:+: bareLines (before ++ behind) ∧
      ∀ key, t.Answers e key (Text.untilZero key) ∧
        (t.Answers e key key ↔ 0 ∉ key ∨ ∀ c, ¬ e.tables.Finds (Text.untilZero key) c) := by
  obtain ⟨rfl, he⟩ := Enumeration.valid_of_check h
  obtain ⟨files, hfiles, -, hsource⟩ := e.render_eq_ok hx
  obtain ⟨rest, hrest⟩ : ∃ rest : Enumeration,
      rest = { e with definition := Source.withoutCode e.definition } := ⟨_, rfl⟩
  have hvalid : rest.Valid := by
    subst hrest
    exact { he with }
  have htext := Source.text_layout_withoutCode e.definition e.tables
    (x.headerFile e.definition.fileStem)
  have hread := SourceTables.read?_layout hvalid (by rw [hrest]; rfl)
    (x.headerFile e.definition.fileStem)
  have hcode := Source.code_infix_bareLines hvalid (by rw [hrest]; rfl)
    (x.headerFile e.definition.fileStem)
  subst hrest
  refine ⟨files, (Source.beforeCode e.definition e.tables
    (x.headerFile e.definition.fileStem)).text, (closeScope e.definition.scope).text,
    SourceTables.ofEnumeration e, hfiles, ?_, ?_, ?_, ?_, fun key => ⟨?_, ?_⟩⟩
  · rw [hsource]
    exact Source.text_layout _ _ _
  · rw [← htext]
    exact hread
  · rw [← htext]
    exact hcode.1
  · rw [← htext]
    exact hcode.2
  · exact SourceTables.answers_untilZero he key
  · exact SourceTables.answers_self_iff he key

/-- The separators with code of the caller that looks like a table. -/
def separatorsWithCode : Definition :=
  { separators with implementationCode := some "Entry const by_name[] =\n\x7b\n\x7d;" }

lemma check_separatorsWithCode :
    separatorsWithCode.check =
      .ok { separatorsEnumeration with definition := separatorsWithCode } := by
  cbv

theorem separatorsWithCode_search_answers :
    ∃ e files before behind t, separatorsWithCode.check = .ok e ∧ e.render {} = .ok files ∧
      files.source = before ++ "Entry const by_name[] =\n\x7b\n\x7d;\n\n" ++ behind ∧
      SourceTables.read? "Separator" (before ++ behind) = some t ∧
      t.Answers e (Text.bytes "QUOTE") (Text.bytes "QUOTE") ∧
      ¬ t.Answers e (Text.bytes "COMMA\x00x") (Text.bytes "COMMA\x00x") := by
  obtain ⟨-, he⟩ := Enumeration.valid_of_check check_separatorsWithCode
  obtain ⟨files, before, behind, t, hfiles, hsource, hread, -, -, hanswers⟩ :=
    Definition.search_answers_iff check_separatorsWithCode (x := {}) (by decide)
  refine ⟨_, files, before, behind, t, check_separatorsWithCode, hfiles, hsource, hread, ?_, ?_⟩
  · exact (hanswers _).2.mpr (.inl (by decide))
  · rw [(hanswers _).2, not_or, not_not, not_forall_not]
    refine ⟨by decide, ⟨"COMMA", .char ','⟩, (SourceTables.finds_iff he).mpr ⟨by decide, ?_⟩⟩
    decide

/-- Behind a zero a key may go on as it likes: the search still finds the name in front of it. -/
theorem search_finds_name_in_front_of_zero :
    ∃ files t, separatorsEnumeration.render {} = .ok files ∧
      SourceTables.read? "Separator" files.source = some t ∧
      t.search? (Text.bytes "COMMA\x00x") = some "::text::Separator::COMMA" ∧
      separatorsEnumeration.tables.find? "COMMA\x00x" = none := by
  obtain ⟨-, he⟩ := Enumeration.valid_of_check check_separators
  obtain ⟨files, hfiles, -, hsource⟩ := separatorsEnumeration.render_eq_ok (x := {}) (by decide)
  refine ⟨files, SourceTables.ofEnumeration separatorsEnumeration, hfiles, ?_, ?_, ?_⟩
  · rw [hsource]
    exact SourceTables.read?_layout he rfl _
  · rw [SourceTables.search?_ofEnumeration he]
    refine ⟨⟨"COMMA", .char ','⟩, (SourceTables.finds_iff he).mpr ⟨by decide, ?_⟩, rfl⟩
    decide
  · rw [Option.eq_none_iff_forall_not_mem]
    intro c hc
    obtain ⟨hmem, hname⟩ := (Lookup.find?_eq_some_iff he.distinctNames).mp hc
    have hnames : ∀ c ∈ separatorsEnumeration.constants, c.name ≠ "COMMA\x00x" := by decide
    exact hnames c hmem hname

end EnumForge
