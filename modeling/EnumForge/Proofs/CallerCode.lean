import EnumForge.Proofs.NameSearch
import EnumForge.Proofs.OutputPaths

/-!
The caller's own code in the two files. It is put in as it is, at one place of each file, and all
that stands before and behind is the same with any code and without.
-/

namespace EnumForge

open Layout

/-- What is put in for a text: the text, a line break if it does not end in one, and a blank line.
-/
def insertion : Option String → String
  | none => ""
  | some code => code ++ (if code.toList.getLast? = some '\n' then "" else "\n") ++ "\n"

lemma Header.text_callerCode (code : Option String) : (callerCode code).text = insertion code := by
  cases code with
  | none => rfl
  | some code =>
    have hrun : (callerCode (some code)).text = "" ++
        (if Page.endsLine code then code else code ++ "\n") ++ "\n" := rfl
    rw [hrun, insertion, String.empty_append]
    by_cases hline : code.toList.getLast? = some '\n'
    · simp [Page.endsLine, hline]
    · simp [Page.endsLine, hline]

/-! ### Headers -/

namespace Header

open Generated

/-- A header up to the look-ups. -/
def beforeLookups (d : Definition) (cs : List Constant) (extension : String) : Layout := .all [
  .line banner,
  .blank,
  .line s!"#ifndef {IncludeGuard.ofParts d.scope d.name extension}",
  .line s!"#define {IncludeGuard.ofParts d.scope d.name extension}",
  .blank,
  includes d,
  .openScope d.scope,
  enumeration d cs,
  .blank,
  lookupErrorClass d.name,
  .blank]

/-- A header up to the caller's own code. -/
def beforeCode (d : Definition) (cs : List Constant) (extension : String) : Layout :=
  beforeLookups d cs extension ++ lookups d.name

/-- A header behind the caller's own code. -/
def behindCode (d : Definition) (extension : String) : Layout := .all [
  streamOperators d.name,
  if d.scope.isEmpty then .empty else .closeScope d.scope ++ .blank,
  .line s!"#endif // {IncludeGuard.ofParts d.scope d.name extension}"]

lemma text_layout (d : Definition) (cs : List Constant) (extension : String) :
    (layout d cs extension).text =
      (beforeCode d cs extension).text ++ (callerCode d.interfaceCode).text ++
        (behindCode d extension).text := by
  apply String.toList_inj.mp
  simp [toList_text, layout, guarded, beforeCode, beforeLookups, behindCode]

/-- Up to the caller's own code, a header ends with the declaration of `value_to_name`. -/
lemma exists_text_beforeCode (d : Definition) (cs : List Constant) (extension : String) :
    ∃ front, (beforeCode d cs extension).text =
      front ++ s!"std::string const & value_to_name({d.name} value);\n\n" := by
  refine ⟨(beforeLookups d cs extension ++ .all [
    .line "template <typename Enum>",
    .line "Enum name_to_value(std::string const & name);",
    .blank,
    .line "template <>",
    .line s!"{d.name} name_to_value<{d.name}>(std::string const & name);",
    .blank]).text, String.toList_inj.mp ?_⟩
  simp [toList_text, beforeCode, lookups, rows, row, toString]

end Header

/-! ### Sources -/

lemma text_closeScope (segments : List String) :
    (closeScope segments).text =
      String.join (segments.reverse.map fun s => "\x7d // namespace " ++ s ++ "\n") := by
  apply String.toList_inj.mp
  simp only [toList_text, rows, Text.unlines, String.toList_join, List.flatMap_map]
  congr 1
  funext s
  simp [row]

namespace Source

open Generated

set_option maxRecDepth 1000 in
lemma text_streamOperators (name : String) :
    (streamOperators name).text =
      s!"std::ostream & operator<<(std::ostream & os, {name} value)\n" ++
        "\x7b\n  return os << value_to_name(value);\n\x7d\n\n" ++
        s!"std::istream & operator>>(std::istream & is, {name} & value)\n" ++
        "\x7b\n  std::string token;\n  if (is >> token)\n  \x7b\n" ++
        s!"    value = name_to_value<{name}>(token);\n  \x7d\n  return is;\n\x7d\n" := by
  apply String.toList_inj.mp
  simp [toList_text, streamOperators, rows, row, toString]

/-- Up to the caller's own code, a source file ends with the stream operators. -/
lemma exists_text_beforeCode (d : Definition) (t : Lookup) (headerFile : String) :
    ∃ front, (beforeCode d t headerFile).text =
      front ++ (streamOperators d.name).text ++ "\n" := by
  refine ⟨(Layout.all [
    .line banner,
    .blank,
    includes d headerFile,
    .openScope d.scope,
    tables d t,
    .blank,
    lookupErrorMembers d,
    .blank,
    nameToValue d.name,
    .blank,
    valueToName d t,
    .blank]).text, String.toList_inj.mp ?_⟩
  simp [toList_text, beforeCode, rows]

end Source

/-! ### Definitions with other code -/

namespace Definition

variable {d : Definition} {e : Enumeration}

/-- A definition with other code of the caller's own. -/
def withCode (d : Definition) (interface implementation : Option String) : Definition :=
  { d with interfaceCode := interface, implementationCode := implementation }

/-- No rule looks at the caller's own code. -/
lemma check_withCode (h : d.check = .ok e) (interface implementation : Option String) :
    (d.withCode interface implementation).check =
      .ok ⟨d.withCode interface implementation, e.constants⟩ := by
  obtain ⟨vs, hrules, rfl⟩ := check_eq_ok_iff.mp h
  exact check_eq_ok_iff.mpr ⟨vs, { hrules with }, rfl⟩

/-- **Insertion**: whatever code the caller has for either file, the files are made and the code
stands as it is between texts that do not depend on it nor on the code for the other file. -/
theorem code_is_inserted (h : d.check = .ok e) {x : Extensions} (hx : x.header ≠ x.source) :
    ∃ before behind before' behind' : String,
      (∀ interface implementation,
        (d.withCode interface implementation).generate x = .ok {
          name := d.qualifiedName
          headerPath := x.headerFile d.fileStem
          header := before ++ insertion interface ++ behind
          sourcePath := x.sourceFile d.fileStem
          source := before' ++ insertion implementation ++ behind' }) ∧
      (∃ front, before = front ++ s!"std::string const & value_to_name({d.name} value);\n\n") ∧
      (∃ front, before' = front ++
        (s!"std::ostream & operator<<(std::ostream & os, {d.name} value)\n" ++
          "\x7b\n  return os << value_to_name(value);\n\x7d\n\n" ++
          s!"std::istream & operator>>(std::istream & is, {d.name} & value)\n" ++
          "\x7b\n  std::string token;\n  if (is >> token)\n  \x7b\n" ++
          s!"    value = name_to_value<{d.name}>(token);\n  \x7d\n  return is;\n\x7d\n") ++
        "\n") ∧
      behind' = String.join (d.scope.reverse.map fun s => "\x7d // namespace " ++ s ++ "\n") := by
  refine ⟨(Header.beforeCode d e.constants x.header).text, (Header.behindCode d x.header).text,
    (Source.beforeCode d (.ofConstants e.constants) (x.headerFile d.fileStem)).text,
    (closeScope d.scope).text, fun interface implementation => ?_,
    Header.exists_text_beforeCode _ _ _, ?_, text_closeScope d.scope⟩
  · refine generate_eq_ok_iff.mpr ⟨_, check_withCode h interface implementation, ?_⟩
    rw [Enumeration.render_of_ne _ hx]
    simp only [Header.text_layout, Source.text_layout, ← Header.text_callerCode]
    rfl
  · rw [← Source.text_streamOperators]
    exact Source.exists_text_beforeCode _ _ _

end Definition

/-- Code without a line break at its end, and code that looks like the end of a scope. -/
theorem separators_code_is_inserted :
    ∃ files before behind before' behind', separators.generate {} = .ok files ∧
      files.header = before ++ behind ∧ files.source = before' ++ behind' ∧
      (separators.withCode (some "struct Extra;") none).generate {} =
        .ok { files with header := before ++ "struct Extra;\n\n" ++ behind } ∧
      (separators.withCode none (some "\x7d\n")).generate {} =
        .ok { files with source := before' ++ "\x7d\n\n" ++ behind' } := by
  obtain ⟨before, behind, before', behind', hfiles, -⟩ :=
    Definition.code_is_inserted check_separators (x := {}) (by decide)
  have hnone : insertion none = "" := rfl
  have hstruct : insertion (some "struct Extra;") = "struct Extra;\n\n" := by decide
  have hbrace : insertion (some "\x7d\n") = "\x7d\n\n" := by decide
  refine ⟨_, before, behind, before', behind', hfiles none none, ?_, ?_, ?_, ?_⟩
  · simp only [hnone, String.append_empty]
  · simp only [hnone, String.append_empty]
  · rw [hfiles, hstruct]
  · rw [hfiles, hbrace]

end EnumForge
