import EnumForge.Proofs.LookupTables
import EnumForge.Proofs.Rendering
import EnumForge.Proofs.SourceReading

/-!
The parts of a source file in their order. Behind each of its tables every line holds a mark that
the first line of the table does not hold, so each table is read back from the whole file.
-/

namespace EnumForge

open Layout Reading

namespace Source

open Generated Identifier

/-! ### The parts of a source file -/

/-- What stands in front of the names. -/
def front (d : Definition) (headerFile : String) : Layout := .all [
  .line banner,
  .blank,
  includes d headerFile,
  .openScope d.scope,
  .line "namespace",
  .line "\x7b",
  .line s!"namespace {tablesNamespace d.name}",
  .line "\x7b",
  .line "std::string const & display_name(std::size_t index)",
  .line "\x7b"]

/-- What stands behind the switch. -/
def behindSwitch (d : Definition) : Layout := .all [
  .line (s!"throw std::out_of_range(\"value_to_name: not a declared {d.qualifiedName} " ++
    "constant\");"),
  .line "\x7d",
  .blank,
  streamOperators d.name,
  .blank,
  .closeScope d.scope]

/-- What stands between the entries and the look-up by value. -/
def behindEntries (d : Definition) : Layout := .all [
  .blank,
  nameOrder,
  .line "\x7d",
  .line "\x7d",
  .blank,
  lookupErrorMembers d,
  .blank,
  nameToValue d.name,
  .blank]

/-- What stands between the names and the entries. -/
def behindNames (d : Definition) : Layout := .all [
  .line "return names[index];",
  .line "\x7d",
  .blank,
  entryType (globalName d),
  .blank]

def namesTable (name : String) (t : Lookup) : Layout := .all [
  .line "static std::string const names[] =",
  .block "" "\x7d;" (.list (t.declared.map fun c => s!"\"{c.name}\"")),
  .line (s!"static_assert(sizeof(names) / sizeof(names[0]) == {t.size}, " ++
    s!"\"display names out of sync with {name}\");")]

def valueSwitch (d : Definition) (t : Lookup) : Layout := .all [
  .line s!"std::string const & value_to_name({d.name} value)",
  .line "\x7b",
  .block "switch (value)" "\x7d" (cases d.name t)]

lemma texts_layout {d : Definition} (hcode : d.implementationCode = none) (t : Lookup)
    (headerFile : String) :
    (layout d t headerFile).texts = (front d headerFile).texts ++ ((namesTable d.name t).texts ++
      ((behindNames d).texts ++ ((entryTable d.name (globalName d) t).texts ++
        ((behindEntries d).texts ++ ((valueSwitch d t).texts ++ (behindSwitch d).texts))))) := by
  have hbrace : "\x7b".toList = ['\x7b'] := rfl
  simp [layout, front, namesTable, behindNames, behindEntries, behindSwitch, valueSwitch, tables,
    displayNames, valueToName, hcode, Header.callerCode, texts, toString, hbrace,
    -String.reduceToList, -String.toList_append]

lemma bare_layout {d : Definition} (hcode : d.implementationCode = none) (t : Lookup)
    (headerFile : String) :
    bare (layout d t headerFile) = bare (front d headerFile) ++ (bare (namesTable d.name t) ++
      (bare (behindNames d) ++ (bare (entryTable d.name (globalName d) t) ++
        (bare (behindEntries d) ++ (bare (valueSwitch d t) ++ bare (behindSwitch d)))))) := by
  simp only [bare, texts_layout hcode, List.map_append]

/-! ### What each part looks like without indentation -/

lemma unindented_of_mem_withCommas {x : Char} (hx : x ≠ ' ') {items : List String}
    (h : ∀ s ∈ items, s.toList.head? = some x) :
    ∀ s ∈ withCommas items, unindented s.toList = s.toList := by
  have hcommas : ∀ s ∈ withCommas items, s.toList.head? = some x :=
    forall_mem_withCommas (by simp +contextual) h
  refine fun s hs => unindented_of_head? ?_
  rw [hcommas s hs]
  simpa using hx

lemma bare_namesTable (name : String) (t : Lookup) :
    bare (namesTable name t) = declaration "static std::string const" "names" :: ['\x7b'] ::
      ((withCommas (t.declared.map fun c => "\x22" ++ c.name ++ "\x22")).map String.toList ++
        ['\x7d', ';'] :: [beforeSize "names" ++ (Nat.toDigits 10 t.size ++
          ',' :: (" \x22display names out of sync with " ++ name ++ "\x22);").toList)]) := by
  have hitem : ∀ s ∈ t.declared.map fun c => "\x22" ++ c.name ++ "\x22",
      s.toList.head? = some '\x22' := by simp
  have hitems := unindented_of_mem_withCommas (by decide) hitem
  simpa [namesTable, bare, texts, declaration, beforeSize, toString, unindented]
    using hitems

lemma bare_entryTable (name globalName : String) (t : Lookup) :
    bare (entryTable name globalName t) = declaration "Entry const" "by_name" :: ['\x7b'] ::
      ((withCommas (t.byName.map (entry globalName))).map String.toList ++ ['\x7d', ';'] ::
        [beforeSize "by_name" ++ (Nat.toDigits 10 t.size ++
          ',' :: (" \x22name table out of sync with " ++ name ++ "\x22);").toList)]) := by
  have hitem : ∀ s ∈ t.byName.map (entry globalName), s.toList.head? = some '\x7b' := by
    simp [entry, toString]
  have hitems := unindented_of_mem_withCommas (by decide) hitem
  simpa [entryTable, bare, texts, declaration, beforeSize, toString, unindented] using hitems

lemma bare_cases (name : String) (t : Lookup) :
    bare (cases name t) =
      (t.declared.zipIdx.map fun (c, i) => (c.name, i)).map (caseLine name) := by
  have hline (c : Constant) (i : Nat) :
      bare (.line s!"case {name}::{c.name}: return {tablesNamespace name}::display_name({i});") =
        [caseLine name (c.name, i)] := by
    simp [bare, texts, caseLine, tablesNamespace, toString, unindented]
  rw [cases, bare_all, List.flatMap_map, List.map_map, List.map_eq_flatMap]
  exact congrArg (List.flatMap · t.declared.zipIdx) (funext fun p => hline p.1 p.2)

lemma bare_valueSwitch (d : Definition) (t : Lookup) :
    bare (valueSwitch d t) = valueLookup d.name ::
      ([['\x7b'], "switch (value)".toList, ['\x7b']] ++
        ((t.declared.zipIdx.map fun (c, i) => (c.name, i)).map (caseLine d.name) ++
          [['\x7d']])) := by
  rw [← bare_cases]
  simp [valueSwitch, bare, texts, valueLookup, toString, unindented]

lemma displayCode_eq (name : String) (t : Lookup) :
    displayCode name (t.declared.map Constant.name) =
      ["std::string const & display_name(std::size_t index)".toList, ['\x7b']] ++
        (bare (namesTable name t) ++ ["return names[index];".toList, ['\x7d']]) := by
  rw [bare_namesTable]
  simp [displayCode, declaration, beforeSize, Lookup.size, Function.comp_def]

lemma exists_bare_front (d : Definition) (headerFile : String) :
    ∃ before, bare (front d headerFile) =
      before ++ ["std::string const & display_name(std::size_t index)".toList, ['\x7b']] := by
  refine ⟨bare (.all [.line banner, .blank, includes d headerFile, .openScope d.scope,
    .line "namespace", .line "\x7b", .line s!"namespace {tablesNamespace d.name}",
    .line "\x7b"]), ?_⟩
  simp only [front, bare_all, List.flatMap_cons, List.flatMap_nil, List.append_assoc]
  rfl

lemma exists_bare_behindNames (d : Definition) :
    ∃ behind, bare (behindNames d) = ["return names[index];".toList, ['\x7d']] ++ behind :=
  ⟨bare (.all [.blank, entryType (globalName d), .blank]), rfl⟩

/-! ### Marks behind the tables -/

/-- Marks that do not stand in the first line of the look-up by value. The line in front of the
entries has no bracket either, the one in front of the names no capital. -/
def marks : List Char := ['\x7b', '\x7d', ';', '<', '>']

lemma marked_behindSwitch {d : Definition} (hname : '\n' ∉ d.name.toList)
    (hqualified : '\n' ∉ d.qualifiedName.toList) (hscope : ∀ s ∈ d.scope, '\n' ∉ s.toList) :
    ∀ t ∈ (behindSwitch d).texts, Marked marks t := by
  simpa +decide [behindSwitch, streamOperators, texts, Marked, toString, hname, hqualified,
    or_imp, forall_and] using hscope

lemma marked_behindEntries {d : Definition} (hname : '\n' ∉ d.name.toList)
    (hqualified : '\n' ∉ d.qualifiedName.toList) :
    ∀ t ∈ (behindEntries d).texts, Marked ('(' :: marks) t := by
  simp +decide [behindEntries, nameOrder, lookupErrorMembers, lookupError, nameToValue,
    tablesNamespace, texts, Marked, toString, hname, hqualified, or_imp, forall_and]

lemma marked_behindNames {d : Definition} (hqualified : '\n' ∉ d.qualifiedName.toList) :
    ∀ t ∈ (behindNames d).texts, Marked ('E' :: '(' :: marks) t := by
  simp +decide [behindNames, entryType, globalName, texts, Marked, toString, hqualified,
    or_imp, forall_and]

lemma marked_valueSwitch {d : Definition} {t : Lookup} (hname : '\n' ∉ d.name.toList)
    (hnames : ∀ c ∈ t.declared, '\n' ∉ c.name.toList) :
    ∀ l ∈ bare (valueSwitch d t), Marked ('(' :: marks) l := by
  have hcases : ∀ l ∈ (t.declared.zipIdx.map fun (c, i) => (c.name, i)).map (caseLine d.name),
      Marked ('(' :: marks) l := by
    rw [List.map_map]
    refine List.forall_mem_map.mpr fun (c, i) hc => ?_
    exact marked_caseLine (by decide) hname (hnames c (List.fst_mem_of_mem_zipIdx hc))
  rw [bare_valueSwitch]
  simpa +decide [valueLookup, Marked, hname, or_imp, forall_and] using hcases

lemma marked_entryTable {name globalName : String} {t : Lookup} (hname : '\n' ∉ name.toList)
    (hglobal : '\n' ∉ globalName.toList) (hnames : ∀ c ∈ t.byName, '\n' ∉ c.name.toList) :
    ∀ l ∈ (entryTable name globalName t).texts, Marked ('E' :: '\x22' :: '(' :: marks) l := by
  have hentry : ∀ s ∈ t.byName.map (entry globalName), '\n' ∉ s.toList ∧ '\x7b' ∈ s.toList := by
    refine List.forall_mem_map.mpr fun c hc => ?_
    simp [entry, toString, hglobal, hnames c hc]
  have hitems : ∀ s ∈ withCommas (t.byName.map (entry globalName)),
      Marked ('E' :: '\x22' :: '(' :: marks) s.toList := by
    have hcommas := forall_mem_withCommas (by simp +contextual) hentry
    exact fun s hs => marked_of_mem (hcommas s hs).1 (hcommas s hs).2 (by decide)
  have hdigits : '\n' ∉ Nat.toDigits 10 t.size := not_mem_toDigits (by decide) t.size
  simpa +decide [entryTable, texts, Marked, toString, hname, hdigits, or_imp, forall_and]
    using hitems

/-! ### Tables of accepted enumerations -/

section

variable {e : Enumeration} (he : e.Valid) (hcode : e.definition.implementationCode = none)
  (headerFile : String)

include he

/-- Everything behind the entries is marked. -/
lemma marked_rest_entries : ∀ l ∈ bare (behindEntries e.definition) ++
    (bare (valueSwitch e.definition e.tables) ++ bare (behindSwitch e.definition)),
    Marked ('(' :: marks) l := by
  have hname := he.not_mem_name isMark_newline
  have hqualified := he.not_mem_qualifiedName isMark_newline (by decide)
  have hscope := he.not_mem_scope isMark_newline
  rw [List.forall_mem_append, List.forall_mem_append]
  refine ⟨?_, ?_, fun l hl => ?_⟩
  · exact marked_of_mem_bare (by decide) (marked_behindEntries hname hqualified)
  · exact marked_valueSwitch hname (he.not_mem_names isMark_newline)
  · have hmarked := marked_of_mem_bare (by decide) (marked_behindSwitch hname hqualified hscope)
    exact (hmarked l hl).mono (by decide)

/-- Everything behind the names is marked. -/
lemma marked_rest_names : ∀ l ∈ bare (behindNames e.definition) ++
    (bare (entryTable e.definition.name (globalName e.definition) e.tables) ++
      (bare (behindEntries e.definition) ++
        (bare (valueSwitch e.definition e.tables) ++ bare (behindSwitch e.definition)))),
    Marked ('E' :: '\x22' :: '(' :: marks) l := by
  have hname := he.not_mem_name isMark_newline
  have hqualified := he.not_mem_qualifiedName isMark_newline (by decide)
  have hglobal : '\n' ∉ (globalName e.definition).toList := by simp [globalName, hqualified]
  have hnames : ∀ c ∈ e.tables.byName, '\n' ∉ c.name.toList := fun c hc =>
    he.not_mem_names isMark_newline c ((Lookup.perm_byName e.constants).mem_iff.mp hc)
  rw [List.forall_mem_append, List.forall_mem_append]
  refine ⟨fun l hl => ?_, ?_, fun l hl => (marked_rest_entries he l hl).mono (by decide)⟩
  · have hmarked := marked_of_mem_bare (by decide) (marked_behindNames hqualified)
    exact (hmarked l hl).mono (by decide)
  · exact marked_of_mem_bare (by decide) (marked_entryTable hname hglobal hnames)

lemma newline_not_mem_namesTable :
    ∀ l ∈ bare (namesTable e.definition.name e.tables), '\n' ∉ l := by
  have hitems : ∀ s ∈ withCommas (e.tables.declared.map fun c => "\x22" ++ c.name ++ "\x22"),
      '\n' ∉ s.toList := by
    refine forall_mem_withCommas (by simp +contextual) (List.forall_mem_map.mpr fun c hc => ?_)
    simp [he.not_mem_names isMark_newline c hc]
  have hdigits : '\n' ∉ Nat.toDigits 10 e.tables.size := not_mem_toDigits (by decide) _
  rw [bare_namesTable]
  simpa +decide [declaration, beforeSize, he.not_mem_name isMark_newline, hdigits, or_imp,
    forall_and] using hitems

lemma not_marked_valueLookup : ¬ Marked marks (valueLookup e.definition.name) := by
  have hmarks : ∀ c ∈ marks, isMark c := List.all_eq_true.mp rfl
  have hname : hasMark marks e.definition.name.toList = false := by
    rw [Bool.eq_false_iff, Ne, hasMark_iff]
    rintro ⟨c, hc, hmark⟩
    exact not_mem_of_isMark (hmarks c hmark) he.typeName hc
  simp +decide [Marked, valueLookup, hname]

include hcode

lemma array?_names :
    array? "static std::string const" "names"
        (bareLines (layout e.definition e.tables headerFile).text) =
      some ((e.constants.map fun c => "\x22" ++ c.name ++ "\x22").map String.toList,
        e.constants.length) := by
  have hl := bare_layout hcode e.tables headerFile
  rw [bare_namesTable] at hl
  simp only [List.cons_append, List.append_assoc, List.nil_append] at hl
  have hdeclaration : ¬ Marked ('E' :: '\x22' :: '(' :: marks)
      (declaration "static std::string const" "names") := by
    simp +decide [Marked]
  have hitems : ∀ s ∈ e.constants.map fun c => "\x22" ++ c.name ++ "\x22",
      s.toList.head? = some '\x22' ∧ '\n' ∉ s.toList := by
    refine List.forall_mem_map.mpr fun c hc => ?_
    simp [he.not_mem_names isMark_newline c hc]
  refine array?_bareLines hl (by decide) (by decide) hdeclaration (by decide) ?_ (by decide)
    (by decide) hitems (marked_rest_names he)
  simp [he.not_mem_name isMark_newline]

lemma array?_entries :
    array? "Entry const" "by_name" (bareLines (layout e.definition e.tables headerFile).text) =
      some ((e.tables.byName.map (entry (globalName e.definition))).map String.toList,
        e.constants.length) := by
  obtain ⟨before, hl⟩ : ∃ before, bare (layout e.definition e.tables headerFile) =
      before ++ (bare (entryTable e.definition.name (globalName e.definition) e.tables) ++
        (bare (behindEntries e.definition) ++
          (bare (valueSwitch e.definition e.tables) ++ bare (behindSwitch e.definition)))) := by
    refine ⟨bare (front e.definition headerFile) ++
      (bare (namesTable e.definition.name e.tables) ++ bare (behindNames e.definition)), ?_⟩
    rw [bare_layout hcode, List.append_assoc, List.append_assoc]
  rw [bare_entryTable] at hl
  simp only [List.cons_append, List.append_assoc, List.nil_append] at hl
  have hdeclaration : ¬ Marked ('(' :: marks) (declaration "Entry const" "by_name") := by
    simp +decide [Marked]
  have hqualified := he.not_mem_qualifiedName isMark_newline (by decide)
  have hitems : ∀ s ∈ e.tables.byName.map (entry (globalName e.definition)),
      s.toList.head? = some '\x7b' ∧ '\n' ∉ s.toList := by
    refine List.forall_mem_map.mpr fun c hc => ?_
    have hname := he.not_mem_names isMark_newline c ((Lookup.perm_byName e.constants).mem_iff.mp hc)
    simp [entry, globalName, toString, hname, hqualified]
  refine array?_bareLines hl (by decide) (by decide) hdeclaration (by decide) ?_ (by decide)
    (by decide) hitems (marked_rest_entries he)
  simp [he.not_mem_name isMark_newline]

lemma switch?_cases :
    switch? e.definition.name (bareLines (layout e.definition e.tables headerFile).text) =
      some (e.constants.zipIdx.map fun (c, i) => (c.name, i)) := by
  obtain ⟨before, hl⟩ : ∃ before, bare (layout e.definition e.tables headerFile) =
      before ++ (bare (valueSwitch e.definition e.tables) ++ bare (behindSwitch e.definition)) := by
    refine ⟨bare (front e.definition headerFile) ++
      (bare (namesTable e.definition.name e.tables) ++ (bare (behindNames e.definition) ++
        (bare (entryTable e.definition.name (globalName e.definition) e.tables) ++
          bare (behindEntries e.definition)))), ?_⟩
    rw [bare_layout hcode, List.append_assoc, List.append_assoc, List.append_assoc,
      List.append_assoc]
  rw [bare_valueSwitch] at hl
  simp only [List.cons_append, List.append_assoc, List.nil_append] at hl
  have hname := he.not_mem_name isMark_newline
  have hscope := he.not_mem_scope isMark_newline
  refine switch?_bareLines hl (by decide) hname (not_marked_valueLookup he) ?_
    (marked_of_mem_bare (by decide)
      (marked_behindSwitch hname (he.not_mem_qualifiedName isMark_newline (by decide)) hscope))
  rintro ⟨n, i⟩ hc
  obtain ⟨⟨c, j⟩, hmem, heq⟩ := List.mem_map.mp hc
  have hident := he.names c (List.fst_mem_of_mem_zipIdx hmem)
  cases heq
  exact ⟨not_mem_of_isMark (by decide) hident,
    not_mem_of_isMark (by decide) hident⟩

/-- The look-up by place stands in the text, around the names. -/
lemma displayCode_infix_bareLines :
    displayCode e.definition.name (e.constants.map Constant.name) <:+:
      bareLines (layout e.definition e.tables headerFile).text := by
  obtain ⟨before, hfront⟩ := exists_bare_front e.definition headerFile
  obtain ⟨rest, hrest⟩ := exists_bare_behindNames e.definition
  have hmarked := marked_rest_names he
  have hl := bare_layout hcode e.tables headerFile
  rw [hrest, List.append_assoc] at hmarked
  rw [hfront, hrest, List.append_assoc, List.append_assoc] at hl
  generalize rest ++ _ = behind at hl hmarked
  obtain ⟨before', hlines⟩ := exists_bareLines_text hl (by
    rw [List.forall_mem_append, List.forall_mem_append]
    exact ⟨by decide, newline_not_mem_namesTable he, fun l hl => (hmarked l hl).1⟩)
  have hdisplay : displayCode e.definition.name (e.constants.map Constant.name) = _ :=
    displayCode_eq e.definition.name e.tables
  rw [hlines, hdisplay]
  exact ⟨before', behind ++ [[]], by simp only [List.append_assoc]⟩

end

end Source

end EnumForge
