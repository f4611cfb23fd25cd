import EnumForge.Proofs.OutputPaths
import EnumForge.Proofs.SourceParts

/-!
The lines of the two files. Without the caller's own code their number is known from the definition,
but for the files that the caller wants included: each has a line of its own, and one more for every
line break inside its text, since only the ends of the text are trimmed.
-/

namespace EnumForge

open Text

/-! ### Heights of layouts -/

namespace Layout

/-- How many rows a layout writes. -/
def height : Layout → Nat
  | empty => 0
  | line _ => 1
  | label _ => 1
  | blank => 1
  | verbatim _ => 1
  | list items => items.length
  | openScope segments => segments.length + min 1 segments.length
  | closeScope segments => segments.length
  | block opening _ body => (if opening.isEmpty then 0 else 1) + body.height + 2
  | append first second => first.height + second.height

@[simp] lemma height_append (first second : Layout) :
    (first ++ second).height = first.height + second.height := rfl

@[simp] lemma height_all (ls : List Layout) : (all ls).height = (ls.map height).sum := by
  induction ls with
  | nil => rfl
  | cons l ls ih => exact congrArg (l.height + ·) ih

lemma length_withCommas (items : List String) : (withCommas items).length = items.length := by
  fun_induction withCommas items with
  | case1 => rfl
  | case2 => rfl
  | case3 s rest _ ih => rw [List.length_cons, List.length_cons, ih]

lemma length_rows (l : Layout) (depth : Nat) : (l.rows depth).length = l.height := by
  induction l generalizing depth with
  | empty => rfl
  | line => rfl
  | label => rfl
  | blank => rfl
  | verbatim => rfl
  | list items => rw [rows, List.length_map, length_withCommas, height]
  | openScope segments =>
    cases segments with
    | nil => rfl
    | cons s rest => simp [rows, height]
  | closeScope segments => simp [rows, height]
  | block opening closing body ih =>
    by_cases h : opening.isEmpty
    · simp [rows, height, ih, h]
    · simp [rows, height, ih, h]; omega
  | append first second ih₁ ih₂ => rw [rows, List.length_append, ih₁, ih₂, height]

end Layout

open Layout Identifier Reading

/-! ### Lines for the caller's files -/

/-- A line for a file begins as one. It is cut only by the line breaks inside the text, so it is one
line if there is none. -/
lemma exists_lines_includeLine (file : String) : ∃ rest others,
    lines (Literal.includeLine file).toList = ("#include".toList ++ rest) :: others ∧
      others.length = (trim file).toList.count '\n' := by
  obtain ⟨cs, hcs, hcount⟩ : ∃ cs, (Literal.includeLine file).toList = "#include".toList ++ cs ∧
      (Literal.includeLine file).toList.count '\n' = (trim file).toList.count '\n' := by
    unfold Literal.includeLine
    dsimp only
    split
    · next hwhole =>
      obtain ⟨cs, hcs⟩ := List.isPrefixOf_iff_prefix.mp hwhole
      exact ⟨cs, hcs.symm, rfl⟩
    · split
      · exact ⟨' ' :: (trim file).toList, by simp, by simp⟩
      · exact ⟨' ' :: '\x22' :: ((trim file).toList ++ ['\x22']), by simp, by simp⟩
  obtain ⟨rest, others, hlines⟩ := @exists_lines_append "#include".toList (by decide) cs
  refine ⟨rest, others, by rw [hcs, hlines], ?_⟩
  have hlength := length_lines (Literal.includeLine file).toList
  rw [hcount, hcs, hlines, List.length_cons] at hlength
  omega

/-- The lines for the files stand in their order, in the middle of the others. -/
def FilesBetween (text : String) (files : List String) (above below : Nat) : Prop :=
  ∃ front back, lines text.toList =
      front ++ files.flatMap (fun f => lines (Literal.includeLine f).toList) ++ back ∧
    front.length = above ∧ back.length = below

lemma Header.rows_callerIncludes (files : List String) : (callerIncludes files).rows 0 =
    List.replicate (min 1 files.length) [] ++
      files.map fun f => (Literal.includeLine f).toList := by
  have hrow (s : String) : row 0 s = s.toList := by
    unfold row
    split
    · next hs => rw [String.isEmpty_iff.mp hs]; rfl
    · rfl
  cases files with
  | nil => rfl
  | cons f rest =>
    have hlines : (all ((f :: rest).map fun f => .line (Literal.includeLine f))).rows 0 =
        (f :: rest).map fun f => (Literal.includeLine f).toList := by
      rw [rows_all, List.flatMap_map, List.map_eq_flatMap]
      simp only [rows, hrow]
    have hne : ¬ (f :: rest).isEmpty := Bool.false_ne_true
    have hmin : min 1 (f :: rest).length = 1 := by simp
    rw [callerIncludes, if_neg hne, rows_append, hlines, hmin]
    rfl

/-- Nothing but the lines for the files is cut. -/
lemma filesBetween_text {l above below : Layout} {files : List String}
    (hrows : l.rows 0 = above.rows 0 ++ (Header.callerIncludes files).rows 0 ++ below.rows 0)
    (habove : above.Unbroken) (hbelow : below.Unbroken) :
    FilesBetween l.text files (above.height + min 1 files.length) (below.height + 1) := by
  refine ⟨above.rows 0 ++ List.replicate (min 1 files.length) [], below.rows 0 ++ [[]], ?_, ?_, ?_⟩
  · have hblank : '\n' ∉ ([] : List Char) := List.not_mem_nil
    have hfront : ∀ r ∈ above.rows 0 ++ List.replicate (min 1 files.length) [], '\n' ∉ r := by
      rw [List.forall_mem_append]
      exact ⟨newline_not_mem_rows habove 0, fun r hr => List.eq_of_mem_replicate hr ▸ hblank⟩
    have hback : lines (unlines (below.rows 0)) = below.rows 0 ++ [[]] := by
      simpa [lines] using lines_unlines_append (newline_not_mem_rows hbelow 0) []
    rw [toList_text, hrows, Header.rows_callerIncludes, ← List.append_assoc, unlines_append,
      unlines_append, List.append_assoc, lines_unlines_append hfront, lines_unlines_flatMap, hback,
      List.flatMap_map]
    simp only [List.append_assoc]
  · rw [List.length_append, length_rows, List.length_replicate]
  · rw [List.length_append, length_rows, List.length_singleton]

lemma length_lines_of_filesBetween {text : String} {files : List String} {above below : Nat}
    (h : FilesBetween text files above below) : (lines text.toList).length =
      above + (files.map fun f => (trim f).toList.count '\n' + 1).sum + below := by
  have hfile (f : String) : (lines (Literal.includeLine f).toList).length =
      (trim f).toList.count '\n' + 1 := by
    obtain ⟨rest, others, hlines, hothers⟩ := exists_lines_includeLine f
    rw [hlines, List.length_cons, hothers]
  obtain ⟨front, back, hlines, rfl, rfl⟩ := h
  simp only [hlines, List.length_append, List.length_flatMap, hfile]

/-! ### Headers -/

namespace Header

open Generated

/-- A header above the caller's files. -/
def aboveFiles (d : Definition) (extension : String) : Layout := .all [
  .line banner,
  .blank,
  .line s!"#ifndef {IncludeGuard.ofParts d.scope d.name extension}",
  .line s!"#define {IncludeGuard.ofParts d.scope d.name extension}",
  .blank,
  if d.storage.any Storage.needsFixedWidth then .line "#include <cstdint>" else .empty,
  .line "#include <iosfwd>",
  .line "#include <stdexcept>",
  .line "#include <string>"]

/-- A header below the caller's files. -/
def belowFiles (d : Definition) (cs : List Constant) (extension : String) : Layout := .all [
  .blank,
  .openScope d.scope,
  enumeration d cs,
  .blank,
  lookupErrorClass d.name,
  .blank,
  lookups d.name,
  callerCode d.interfaceCode,
  streamOperators d.name,
  if d.scope.isEmpty then .empty else .closeScope d.scope ++ .blank,
  .line s!"#endif // {IncludeGuard.ofParts d.scope d.name extension}"]

lemma rows_layout (d : Definition) (cs : List Constant) (extension : String) :
    (layout d cs extension).rows 0 = (aboveFiles d extension).rows 0 ++
      (callerIncludes d.interfaceIncludes).rows 0 ++ (belowFiles d cs extension).rows 0 := by
  simp [layout, guarded, includes, aboveFiles, belowFiles]

lemma unbroken_aboveFiles (d : Definition) (extension : String) :
    (aboveFiles d extension).Unbroken := by
  have hguard : '\n' ∉ (IncludeGuard.ofParts d.scope d.name extension).toList :=
    IncludeGuard.not_mem_ofParts isMark_newline _ _ _
  cases hwidth : d.storage.any Storage.needsFixedWidth <;>
    simp +decide [aboveFiles, toString, hguard, hwidth]

lemma height_aboveFiles (d : Definition) (extension : String) : (aboveFiles d extension).height =
    8 + if d.storage.any Storage.needsFixedWidth then 1 else 0 := by
  cases hwidth : d.storage.any Storage.needsFixedWidth <;> simp [aboveFiles, height, hwidth]

lemma unbroken_enumeration {e : Enumeration} (he : e.Valid) :
    (enumeration e.definition e.constants).Unbroken := by
  have hname := he.not_mem_name isMark_newline
  have hlist : (list (e.constants.map enumerator)).Unbroken := by
    refine unbroken_list (List.forall_mem_map.mpr fun c hc => ?_)
    simp [enumerator, toString, he.not_mem_names isMark_newline c hc, newline_not_mem_value]
  cases hs : e.definition.storage with
  | none => simp [enumeration, hs, toString, hname, hlist]
  | some storage =>
    have htype : '\n' ∉ (trim storage).toList :=
      not_mem_of_isTypeName isMark_newline (by decide) (by decide) (he.storage storage hs)
    simp [enumeration, hs, toString, hname, htype, hlist]

section

variable {name : String} (hname : '\n' ∉ name.toList)

include hname

lemma unbroken_lookupErrorClass : (lookupErrorClass name).Unbroken := by
  simp +decide [lookupErrorClass, lookupError, toString, hname]

lemma unbroken_lookups : (lookups name).Unbroken := by
  simp +decide [lookups, toString, hname]

lemma unbroken_streamOperators : (streamOperators name).Unbroken := by
  simp +decide [streamOperators, toString, hname]

end

lemma unbroken_belowFiles {e : Enumeration} (he : e.Valid)
    (hcode : e.definition.interfaceCode = none) (extension : String) :
    (belowFiles e.definition e.constants extension).Unbroken := by
  have hname := he.not_mem_name isMark_newline
  have hscope := he.not_mem_scope isMark_newline
  have hguard : '\n' ∉ (IncludeGuard.ofParts e.definition.scope e.definition.name
      extension).toList := IncludeGuard.not_mem_ofParts isMark_newline _ _ _
  simp only [belowFiles, unbroken_all, List.forall_mem_cons, hcode, callerCode]
  refine ⟨unbroken_blank, unbroken_openScope hscope, unbroken_enumeration he, unbroken_blank,
    unbroken_lookupErrorClass hname, unbroken_blank, unbroken_lookups hname, unbroken_empty,
    unbroken_streamOperators hname, ?_, ?_, List.forall_mem_nil _⟩
  · split
    · exact unbroken_empty
    · exact unbroken_append.mpr ⟨unbroken_closeScope hscope, unbroken_blank⟩
  · simp [toString, hguard]

lemma height_belowFiles {d : Definition} (hcode : d.interfaceCode = none) (cs : List Constant)
    (extension : String) : (belowFiles d cs extension).height =
      27 + cs.length + 2 * (d.scope.length + min 1 d.scope.length) := by
  have henumeration : (enumeration d cs).height = 3 + cs.length := by
    cases hs : d.storage <;> simp [enumeration, hs, height, toString] <;> omega
  have herror : (lookupErrorClass d.name).height = 9 := by
    simp [lookupErrorClass, height, toString]
  have hlookups : (lookups d.name).height = 8 := rfl
  have hstreams : (streamOperators d.name).height = 3 := rfl
  have hclose : (if d.scope.isEmpty then empty else closeScope d.scope ++ blank).height =
      d.scope.length + min 1 d.scope.length := by
    cases d.scope <;> simp [height]
  simp only [belowFiles, height_all, List.map_cons, List.map_nil, List.sum_cons, List.sum_nil,
    henumeration, herror, hlookups, hstreams, hclose, hcode, callerCode, height]
  clear hcode henumeration herror hlookups hstreams hclose
  omega

end Header

/-! ### Sources -/

namespace Source

open Generated

/-- A source file above the caller's files. -/
def aboveFiles (headerFile : String) : Layout := .all [
  .line banner,
  .blank,
  .line s!"#include \"{headerFile}\"",
  .blank,
  .line "#include <algorithm>",
  .line "#include <cstddef>",
  .line "#include <cstring>",
  .line "#include <istream>",
  .line "#include <iterator>",
  .line "#include <ostream>"]

/-- A source file below the caller's files. -/
def belowFiles (d : Definition) (t : Lookup) : Layout := .all [
  .blank,
  .openScope d.scope,
  tables d t,
  .blank,
  lookupErrorMembers d,
  .blank,
  nameToValue d.name,
  .blank,
  valueToName d t,
  .blank,
  streamOperators d.name,
  .blank,
  Header.callerCode d.implementationCode,
  .closeScope d.scope]

lemma rows_layout (d : Definition) (t : Lookup) (headerFile : String) :
    (layout d t headerFile).rows 0 = (aboveFiles headerFile).rows 0 ++
      (Header.callerIncludes d.implementationIncludes).rows 0 ++ (belowFiles d t).rows 0 := by
  simp [layout, includes, aboveFiles, belowFiles]

lemma unbroken_aboveFiles {headerFile : String} (h : '\n' ∉ headerFile.toList) :
    (aboveFiles headerFile).Unbroken := by
  simp +decide [aboveFiles, toString, h]

lemma height_aboveFiles (headerFile : String) : (aboveFiles headerFile).height = 10 := rfl

lemma height_belowFiles {d : Definition} (hcode : d.implementationCode = none) (t : Lookup) :
    (belowFiles d t).height =
      81 + (2 * t.declared.length + t.byName.length) +
        (2 * d.scope.length + min 1 d.scope.length) := by
  have hcases : (cases d.name t).height = t.declared.length := by
    simp [cases, Function.comp_def, height]
  have htables : (tables d t).height = 30 + (t.declared.length + t.byName.length) := by
    simp [tables, displayNames, entryType, entryTable, nameOrder, height, toString]
    omega
  have herror : (lookupErrorMembers d).height = 10 := by
    simp [lookupErrorMembers, height, toString]
  have hsearch : (nameToValue d.name).height = 14 := by simp [nameToValue, height, toString]
  have hswitch : (valueToName d t).height = 7 + t.declared.length := by
    simp [valueToName, hcases, height, toString]
    omega
  have hstreams : (streamOperators d.name).height = 14 := by
    simp [streamOperators, height, toString]
  simp only [belowFiles, height_all, List.map_cons, List.map_nil, List.sum_cons, List.sum_nil,
    htables, herror, hsearch, hswitch, hstreams, hcode, Header.callerCode, height]
  clear hcode hcases htables herror hsearch hswitch hstreams
  omega

lemma unbroken_of_marked {l : Layout} {marks : List Char} (h : ∀ t ∈ l.texts, Marked marks t) :
    l.Unbroken := fun t ht => (h t ht).1

section

variable {e : Enumeration} (he : e.Valid)

include he

lemma unbroken_displayNames : (displayNames e.definition.name e.tables).Unbroken := by
  have hname := he.not_mem_name isMark_newline
  have hdigits : '\n' ∉ Nat.toDigits 10 e.tables.size := not_mem_toDigits (by decide) _
  have hitems : (list (e.tables.declared.map fun c => s!"\"{c.name}\"")).Unbroken := by
    refine unbroken_list (List.forall_mem_map.mpr fun c hc => ?_)
    simp [toString, he.not_mem_names isMark_newline c hc]
  simp +decide only [displayNames, unbroken_block, unbroken_all, List.forall_mem_cons,
    unbroken_line, hitems]
  simp +decide [toString, hname, hdigits]

lemma unbroken_cases : (cases e.definition.name e.tables).Unbroken := by
  have hname := he.not_mem_name isMark_newline
  rw [cases, unbroken_all]
  refine List.forall_mem_map.mpr ?_
  rintro ⟨c, i⟩ hc
  rw [unbroken_line]
  have hdigits : '\n' ∉ Nat.toDigits 10 i := not_mem_toDigits (by decide) i
  have hconstant := he.not_mem_names isMark_newline c (List.fst_mem_of_mem_zipIdx hc)
  simp [tablesNamespace, toString, hname, hconstant, hdigits]

/-- Most parts of a source file are known to hold no line breaks, since they are marked. -/
lemma unbroken_belowFiles (hcode : e.definition.implementationCode = none) :
    (belowFiles e.definition e.tables).Unbroken := by
  have hname := he.not_mem_name isMark_newline
  have hscope := he.not_mem_scope isMark_newline
  have hqualified := he.not_mem_qualifiedName isMark_newline (by decide)
  have hglobal : '\n' ∉ (globalName e.definition).toList := by simp [globalName, hqualified]
  have hbyName : ∀ c ∈ e.tables.byName, '\n' ∉ c.name.toList := fun c hc =>
    he.not_mem_names isMark_newline c ((Lookup.perm_byName e.constants).mem_iff.mp hc)
  have hentryTable := unbroken_of_marked (marked_entryTable hname hglobal hbyName)
  have hbehindNames := unbroken_of_marked (marked_behindNames hqualified)
  have hbehindEntries := unbroken_of_marked (marked_behindEntries hname hqualified)
  have hbehindSwitch := unbroken_of_marked (marked_behindSwitch hname hqualified hscope)
  simp only [behindNames, behindEntries, behindSwitch, unbroken_all, List.forall_mem_cons]
    at hbehindNames hbehindEntries hbehindSwitch
  obtain ⟨-, -, -, hentryType, -⟩ := hbehindNames
  obtain ⟨-, hnameOrder, -, -, -, herror, -, hsearch, -⟩ := hbehindEntries
  obtain ⟨hthrow, -, -, hstreams, -, hclose, -⟩ := hbehindSwitch
  have htables : (tables e.definition e.tables).Unbroken := by
    have hbody : (Layout.all [displayNames e.definition.name e.tables, .blank,
        entryType (globalName e.definition), .blank,
        entryTable e.definition.name (globalName e.definition) e.tables, .blank,
        nameOrder]).Unbroken := by
      simp [unbroken_displayNames he, hentryType, hentryTable, hnameOrder]
    simp +decide [tables, tablesNamespace, toString, hname, hbody]
  have hvalueToName : (valueToName e.definition e.tables).Unbroken := by
    rw [valueToName, unbroken_block]
    refine ⟨by simp [toString, hname], by decide, ?_⟩
    simp [unbroken_cases he, hthrow]
  simp only [belowFiles, unbroken_all, List.forall_mem_cons, hcode, Header.callerCode]
  exact ⟨unbroken_blank, unbroken_openScope hscope, htables, unbroken_blank, herror, unbroken_blank,
    hsearch, unbroken_blank, hvalueToName, unbroken_blank, hstreams, unbroken_blank, unbroken_empty,
    hclose, List.forall_mem_nil _⟩

end

end Source

/-! ### Both files -/

namespace Enumeration.Valid

variable {e : Enumeration} (he : e.Valid)

include he

lemma filesBetween_header (hcode : e.definition.interfaceCode = none) (extension : String) :
    FilesBetween (Header.layout e.definition e.constants extension).text
      e.definition.interfaceIncludes
      (8 + (if e.definition.storage.any Storage.needsFixedWidth then 1 else 0) +
        min 1 e.definition.interfaceIncludes.length)
      (28 + e.constants.length +
        2 * (e.definition.scope.length + min 1 e.definition.scope.length)) := by
  have hlines := filesBetween_text (Header.rows_layout e.definition e.constants extension)
    (Header.unbroken_aboveFiles _ _) (Header.unbroken_belowFiles he hcode _)
  have hbelow (n k : Nat) : 27 + n + k + 1 = 28 + n + k := by omega
  rwa [Header.height_aboveFiles, Header.height_belowFiles hcode, hbelow] at hlines

lemma filesBetween_source (hcode : e.definition.implementationCode = none) {headerFile : String}
    (hfile : '\n' ∉ headerFile.toList) :
    FilesBetween (Source.layout e.definition e.tables headerFile).text
      e.definition.implementationIncludes
      (10 + min 1 e.definition.implementationIncludes.length)
      (82 + 3 * e.constants.length +
        (2 * e.definition.scope.length + min 1 e.definition.scope.length)) := by
  have hlines := filesBetween_text (Source.rows_layout e.definition e.tables headerFile)
    (Source.unbroken_aboveFiles hfile) (Source.unbroken_belowFiles he hcode)
  have hdeclared : e.tables.declared.length = e.constants.length := rfl
  have hbyName : e.tables.byName.length = e.constants.length :=
    (Lookup.perm_byName e.constants).length_eq
  have hbelow (n k : Nat) : 81 + (2 * n + n) + k + 1 = 82 + 3 * n + k := by omega
  rwa [Source.height_aboveFiles, Source.height_belowFiles hcode, hdeclared, hbyName,
    hbelow] at hlines

end Enumeration.Valid

/-- **Lines**: without the caller's own code, the lines of either file are a known number of lines
above the caller's files, the lines for these in their order, and a known number of lines below. The
lines for a file begin as an inclusion, and there is one more than there are line breaks inside its
text. -/
theorem Definition.lines_generate {d : Definition} {e : Enumeration} (h : d.check = .ok e)
    (hinterface : d.interfaceCode = none) (himplementation : d.implementationCode = none)
    {x : Extensions} (hx : x.header ≠ x.source) (hextension : '\n' ∉ x.header.toList) :
    ∃ files, d.generate x = .ok files ∧
      FilesBetween files.header d.interfaceIncludes
        (8 + (if d.storage.any Storage.needsFixedWidth then 1 else 0) +
          min 1 d.interfaceIncludes.length)
        (28 + e.constants.length + 2 * (d.scope.length + min 1 d.scope.length)) ∧
      FilesBetween files.source d.implementationIncludes
        (10 + min 1 d.implementationIncludes.length)
        (82 + 3 * e.constants.length + (2 * d.scope.length + min 1 d.scope.length)) ∧
      ∀ file, ∃ rest others,
        lines (Literal.includeLine file).toList = ("#include".toList ++ rest) :: others ∧
          others.length = (trim file).toList.count '\n' := by
  obtain ⟨rfl, he⟩ := Enumeration.valid_of_check h
  have hstem : '\n' ∉ e.definition.fileStem.toList := fun hmem => by
    have hchar := mem_of_hasShape he.stem hmem
    revert hchar
    decide
  have hheader : '\n' ∉ (x.headerFile e.definition.fileStem).toList := by
    simp [Extensions.headerFile, hstem, hextension]
  exact ⟨_, generate_eq_ok_iff.mpr ⟨e, h, e.render_of_ne hx⟩, he.filesBetween_header hinterface _,
    he.filesBetween_source himplementation hheader, exists_lines_includeLine⟩

/-- A scope, a type of a fixed width, and an included text with a line break inside it and more at
its ends. -/
def brokenInclude : Definition where
  name := "E"
  scope := ["s"]
  storage := some "uint8_t"
  values := some (.names ["A", "B"])
  interfaceIncludes := ["<vector>", "\na\nb\n"]

theorem brokenInclude_lines :
    brokenInclude.check = .ok ⟨brokenInclude, [⟨"A", .integer 0⟩, ⟨"B", .integer 1⟩]⟩ ∧
      ∃ files, brokenInclude.generate {} = .ok files ∧
        FilesBetween files.header brokenInclude.interfaceIncludes 10 34 ∧
        FilesBetween files.source [] 10 91 := by
  have h : brokenInclude.check = .ok ⟨brokenInclude, [⟨"A", .integer 0⟩, ⟨"B", .integer 1⟩]⟩ := by
    decide +kernel
  have hwidth : brokenInclude.storage.any Storage.needsFixedWidth := by decide +kernel
  obtain ⟨files, hfiles, hheader, hsource, -⟩ :=
    @Definition.lines_generate _ _ h rfl rfl {} (by decide) (by decide)
  rw [if_pos hwidth] at hheader
  exact ⟨h, files, hfiles, hheader, hsource⟩

/-- A definition with one included text. -/
def including (file : String) : Definition where
  name := "E"
  values := some (.names ["A"])
  interfaceIncludes := [file]

/-- The headers of two definitions with as many values, includes and scopes have not as many lines:
the text that the second one includes is cut in two, and the second line does not begin as an
inclusion. -/
theorem include_on_two_lines : ∃ e e' files files',
    (including "a b").check = .ok e ∧ (including "a b").generate {} = .ok files ∧
      (including "a\nb").check = .ok e' ∧ (including "a\nb").generate {} = .ok files' ∧
      (lines files.header.toList).length = 39 ∧ (lines files'.header.toList).length = 40 ∧
      lines (Literal.includeLine "a\nb").toList = ["#include \"a".toList, "b\"".toList] := by
  have h (file : String) : (including file).check = .ok ⟨including file, [⟨"A", .integer 0⟩]⟩ := by
    cbv
  have hgenerate (file : String) : ∃ files, (including file).generate {} = .ok files ∧
      (lines files.header.toList).length = 39 + (trim file).toList.count '\n' := by
    obtain ⟨-, he⟩ := Enumeration.valid_of_check (h file)
    have hrender := Enumeration.render_of_ne ⟨including file, [⟨"A", .integer 0⟩]⟩
      (x := {}) (by decide)
    refine ⟨_, Definition.generate_eq_ok_iff.mpr ⟨_, h file, hrender⟩, ?_⟩
    have hcount := length_lines_of_filesBetween (he.filesBetween_header rfl "hpp")
    have hsum : 9 + ([file].map fun f => (trim f).toList.count '\n' + 1).sum + 29 =
        39 + (trim file).toList.count '\n' := by
      simp
      omega
    exact hcount.trans hsum
  obtain ⟨files, hfiles, hlength⟩ := hgenerate "a b"
  obtain ⟨files', hfiles', hlength'⟩ := hgenerate "a\nb"
  have hcount : (trim "a b").toList.count '\n' = 0 := by decide +kernel
  have hcount' : (trim "a\nb").toList.count '\n' = 1 := by decide +kernel
  rw [hcount] at hlength
  rw [hcount'] at hlength'
  exact ⟨_, _, files, files', h _, hfiles, h _, hfiles', hlength, hlength', by decide +kernel⟩

end EnumForge
