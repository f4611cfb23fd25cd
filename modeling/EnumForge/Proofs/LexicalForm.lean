import EnumForge.Proofs.Lexing
import EnumForge.Proofs.OutputPaths

/-!
Both files of an accepted enumeration are lexically well formed. Their parts close what they open
for any words as names, and the scopes around them are closed again.

To scan a part, the lines of its layout are cut at the names, every name is taken for a letter, and
the literals between them are taken as the lists of characters that they are made of; what is left
is to run the scan.
-/

namespace EnumForge

open Text Layout Lexing Generated

/-! ### Names as words -/

namespace Lexing

lemma isWord_of_isIdentifier {s : String} (h : Identifier.isIdentifier s) : IsWord s.toList := by
  refine isWord_of_isMark ?_ fun c hc _ _ => Identifier.not_mem_of_isMark hc h
  exact mt String.toList_eq_nil_iff.mp (Identifier.ne_empty h)

lemma isWord_of_isTypeName {s : String} (h : Identifier.isTypeName s) : IsWord s.toList := by
  refine isWord_of_isMark ?_ fun c hc hcolon hspace =>
    Identifier.not_mem_of_isTypeName hc hcolon hspace h
  intro hnil
  rw [String.toList_eq_nil_iff.mp hnil] at h
  cases h

end Lexing

namespace Enumeration.Valid

variable {e : Enumeration} (he : e.Valid)

include he

lemma isWord_name : IsWord e.definition.name.toList := isWord_of_isIdentifier he.typeName

lemma isWord_scope : ∀ s ∈ e.definition.scope, IsWord s.toList :=
  fun s hs => isWord_of_isIdentifier (he.scope s hs)

lemma isWord_names : ∀ c ∈ e.constants, IsWord c.name.toList :=
  fun c hc => isWord_of_isIdentifier (he.names c hc)

lemma isWord_storage : ∀ s, e.definition.storage = some s → IsWord (Text.trim s).toList :=
  fun s hs => isWord_of_isTypeName (he.storage s hs)

lemma isWord_globalName : IsWord (globalName e.definition).toList := by
  refine isWord_of_isMark (by simp [globalName]) fun c hc hcolon _ => ?_
  simp [globalName, hcolon, he.not_mem_qualifiedName hc hcolon]

lemma isWord_qualifiedName : IsWord e.definition.qualifiedName.toList := by
  refine isWord_of_isMark ?_ fun c hc hcolon _ => he.not_mem_qualifiedName hc hcolon
  have hname := he.isWord_name.1
  cases hscope : e.definition.scope with
  | nil => simpa [Definition.qualifiedName, qualify, hscope] using hname
  | cons s rest => simp [Definition.qualifiedName, qualify, hscope]

/-- The name of the header can be quoted if its extension can. -/
lemma isQuotable_headerFile {x : Extensions} (hx : IsQuotable x.header.toList) :
    IsQuotable (x.headerFile e.definition.fileStem).toList := by
  have hstem : IsQuotable e.definition.fileStem.toList := by
    intro c hc
    have hshape := Identifier.mem_of_hasShape he.stem hc
    refine ⟨?_, ?_, ?_⟩
    · rintro rfl
      simp [Identifier.isLetter, Identifier.isDigit] at hshape
    · rintro rfl
      simp [Identifier.isLetter, Identifier.isDigit] at hshape
    · rw [Bool.eq_false_iff]
      intro hbreak
      rcases (by simpa [isLineBreak] using hbreak : c = '\n' ∨ c = '\r') with rfl | rfl <;>
        simp [Identifier.isLetter, Identifier.isDigit] at hshape
  intro c hc
  rcases (by simpa [Extensions.headerFile] using hc :
      c ∈ e.definition.fileStem.toList ∨ c = '.' ∨ c ∈ x.header.toList) with hc | rfl | hc
  · exact hstem c hc
  · decide
  · exact hx c hc

end Enumeration.Valid

namespace IncludeGuard

/-- The guard is a word, since the name is always a part of it. -/
lemma isWord_ofParts {name : String} (hname : name ≠ "") (scope : List String)
    (extension : String) : IsWord (ofParts scope name extension).toList := by
  refine isWord_of_isMark ?_ fun c hc _ _ => not_mem_ofParts hc scope name extension
  have hmem : name ∈ parts scope name extension := by simp [parts, List.mem_filter, hname]
  exact mt String.toList_eq_nil_iff.mp (ofParts_ne_empty (List.ne_nil_of_mem hmem))

end IncludeGuard

/-! ### The header -/

namespace Header

lemma nest_guarded {guard : String} (hguard : IsWord guard.toList) {body : Layout}
    (hbody : body.nest [] = some []) : (guarded guard body).nest [] = some [] := by
  simp only [guarded, banner, nest_all_nil, nest_all_cons, nest_line, nest_blank, nest_inside hbody,
    scanLine, toString, String.toList_append, scan_append, scan_word hguard]
  repeat rw [String.toList_ofList]
  rfl

lemma nest_callerIncludes_nil (missing : List Char) :
    (callerIncludes []).nest missing = some missing := rfl

lemma nest_includes {d : Definition} (h : d.interfaceIncludes = []) (missing : List Char) :
    (includes d).nest missing = some missing := by
  refine nest_inside ?_ missing
  simp only [includes, h, nest_all_nil, nest_all_cons, nest_line, nest_blank,
    nest_callerIncludes_nil]
  split
  · rfl
  · rfl

lemma neutral_enumerator {c : Constant} (h : IsWord c.name.toList) :
    Neutral (enumerator c).toList := by
  rw [enumerator, String.toList_append]
  refine Neutral.append ?_ (neutral_value c.value)
  simp only [neutral_iff, toString, String.toList_append, scan_append, scan_word h]
  repeat rw [String.toList_ofList]
  decide

lemma nest_enumeration {d : Definition} {cs : List Constant} (hname : IsWord d.name.toList)
    (hstorage : ∀ s, d.storage = some s → IsWord (Text.trim s).toList)
    (hnames : ∀ c ∈ cs, IsWord c.name.toList) (missing : List Char) :
    (enumeration d cs).nest missing = some missing := by
  have hitems : ∀ s ∈ cs.map enumerator, Neutral s.toList :=
    List.forall_mem_map.mpr fun c hc => neutral_enumerator (hnames c hc)
  refine nest_inside ?_ missing
  simp only [enumeration, nest_block, nest_list hitems]
  cases hs : d.storage with
  | none =>
    simp only [scanLine, toString, String.toList_append, scan_append, scan_word hname]
    repeat rw [String.toList_ofList]
    rfl
  | some s =>
    simp only [scanLine, toString, String.toList_append, scan_append, scan_word hname,
      scan_word (hstorage s hs)]
    repeat rw [String.toList_ofList]
    rfl

section

variable {name : String} (hname : IsWord name.toList)

include hname

lemma nest_lookupErrorClass (missing : List Char) :
    (lookupErrorClass name).nest missing = some missing := by
  refine nest_inside ?_ missing
  simp only [lookupErrorClass, lookupError, nest_block, nest_all_nil, nest_all_cons, nest_line,
    nest_label, nest_blank, scanLine, toString, String.toList_append, scan_append, scan_word hname]
  repeat rw [String.toList_ofList]
  rfl

lemma nest_lookups (missing : List Char) : (lookups name).nest missing = some missing := by
  refine nest_inside ?_ missing
  simp only [lookups, nest_all_nil, nest_all_cons, nest_line, nest_blank, scanLine, toString,
    String.toList_append, scan_append, scan_word hname]
  repeat rw [String.toList_ofList]
  rfl

lemma nest_streamOperators (missing : List Char) :
    (streamOperators name).nest missing = some missing := by
  refine nest_inside ?_ missing
  simp only [streamOperators, nest_all_nil, nest_all_cons, nest_line, nest_blank, scanLine,
    toString, String.toList_append, scan_append, scan_word hname]
  repeat rw [String.toList_ofList]
  rfl

end

/-- The header is well formed if its names are words and nothing is the caller's. -/
lemma wellFormed_layout {e : Enumeration} (he : e.Valid)
    (hincludes : e.definition.interfaceIncludes = [])
    (hcode : e.definition.interfaceCode = none) (extension : String) :
    WellFormed (layout e.definition e.constants extension).text := by
  refine wellFormed_text (nest_guarded (IncludeGuard.isWord_ofParts (Identifier.ne_empty he.typeName) _ _) ?_)
  have hname := he.isWord_name
  have hscope := he.isWord_scope
  have hclose : (if e.definition.scope.isEmpty then Layout.empty
      else .closeScope e.definition.scope ++ .blank).nest
        (List.replicate e.definition.scope.length '\x7d' ++ []) = some [] := by
    split
    · next hempty =>
      rw [List.isEmpty_iff.mp hempty]
      rfl
    · rw [nest_append, nest_closeScope hscope, Option.bind_some, nest_blank]
  simp only [nest_all_cons, nest_all_nil, nest_blank, nest_empty, nest_includes hincludes,
    nest_openScope hscope, nest_enumeration hname he.isWord_storage he.isWord_names,
    nest_lookupErrorClass hname, nest_lookups hname, nest_streamOperators hname, hcode, callerCode,
    hclose, Option.bind_some]

end Header

/-! ### The source -/

namespace Source

lemma nest_includes {d : Definition} (h : d.implementationIncludes = []) {headerFile : String}
    (hfile : IsQuotable headerFile.toList) (missing : List Char) :
    (includes d headerFile).nest missing = some missing := by
  have hline : Neutral s!"#include \"{headerFile}\"".toList := by
    have hsplit : s!"#include \"{headerFile}\"".toList =
        "#include ".toList ++ ('\x22' :: (headerFile.toList ++ ['\x22'])) := by
      simp [toString]
    rw [hsplit]
    exact Neutral.append (neutral_iff.mpr (by decide)) (neutral_quoted hfile)
  refine nest_inside ?_ missing
  simp only [includes, h, nest_all_nil, nest_all_cons, nest_line, nest_blank,
    scanLine_of_neutral hline, Header.nest_callerIncludes_nil]
  rfl

lemma nest_nameOrder (missing : List Char) : nameOrder.nest missing = some missing := by
  refine nest_inside ?_ missing
  rfl

section

variable {globalName : String} (hglobal : IsWord globalName.toList)

include hglobal

lemma nest_entryType (missing : List Char) :
    (entryType globalName).nest missing = some missing := by
  refine nest_inside ?_ missing
  simp only [entryType, nest_block, nest_all_nil, nest_all_cons, nest_line, scanLine, toString,
    String.toList_append, scan_append, scan_word hglobal]
  repeat rw [String.toList_ofList]
  rfl

lemma neutral_entry {c : Constant} (h : IsWord c.name.toList) :
    Neutral (entry globalName c).toList := by
  simp only [neutral_iff, entry, toString, String.toList_append, scan_append, scan_word h,
    scan_word hglobal]
  repeat rw [String.toList_ofList]
  decide

end

section

variable {name : String} (hname : IsWord name.toList) {t : Lookup}

include hname

lemma nest_displayNames (hnames : ∀ c ∈ t.declared, IsWord c.name.toList) (missing : List Char) :
    (displayNames name t).nest missing = some missing := by
  have hitems : ∀ s ∈ t.declared.map fun c => s!"\"{c.name}\"", Neutral s.toList := by
    refine List.forall_mem_map.mpr fun c hc => ?_
    simp only [neutral_iff, toString, String.toList_append, scan_append, scan_word (hnames c hc)]
    repeat rw [String.toList_ofList]
    decide
  refine nest_inside ?_ missing
  simp only [displayNames, nest_block, nest_all_nil, nest_all_cons, nest_line, nest_list hitems]
  simp only [scanLine, toString, String.toList_append, Nat.toList_repr, scan_append,
    scan_word hname, scan_word (isWord_toDigits _)]
  repeat rw [String.toList_ofList]
  rfl

lemma nest_entryTable {globalName : String} (hglobal : IsWord globalName.toList)
    (hnames : ∀ c ∈ t.byName, IsWord c.name.toList) (missing : List Char) :
    (entryTable name globalName t).nest missing = some missing := by
  have hitems : ∀ s ∈ t.byName.map (entry globalName), Neutral s.toList :=
    List.forall_mem_map.mpr fun c hc => neutral_entry hglobal (hnames c hc)
  refine nest_inside ?_ missing
  simp only [entryTable, nest_block, nest_all_nil, nest_all_cons, nest_line, nest_list hitems]
  simp only [scanLine, toString, String.toList_append, Nat.toList_repr, scan_append,
    scan_word hname, scan_word (isWord_toDigits _)]
  repeat rw [String.toList_ofList]
  rfl

lemma nest_nameToValue (missing : List Char) : (nameToValue name).nest missing = some missing := by
  refine nest_inside ?_ missing
  simp only [nameToValue, lookupError, tablesNamespace, nest_block, nest_all_nil, nest_all_cons,
    nest_line, scanLine, toString, String.toList_append, scan_append, scan_word hname]
  repeat rw [String.toList_ofList]
  rfl

lemma nest_cases (hnames : ∀ c ∈ t.declared, IsWord c.name.toList) (missing : List Char) :
    (cases name t).nest missing = some missing := by
  refine nest_all (List.forall_mem_map.mpr ?_) missing
  rintro ⟨c, i⟩ hmem
  have hc := hnames c (List.fst_mem_of_mem_zipIdx hmem)
  simp only [nest_line, tablesNamespace, scanLine, toString, String.toList_append, Nat.toList_repr,
    scan_append, scan_word hname, scan_word hc, scan_word (isWord_toDigits _)]
  repeat rw [String.toList_ofList]
  rfl

lemma nest_streamOperators (missing : List Char) :
    (streamOperators name).nest missing = some missing := by
  refine nest_inside ?_ missing
  simp only [streamOperators, nest_block, nest_all_nil, nest_all_cons, nest_line, nest_blank,
    scanLine, toString, String.toList_append, scan_append, scan_word hname]
  repeat rw [String.toList_ofList]
  rfl

end

section

variable {d : Definition} (hname : IsWord d.name.toList)

include hname

lemma nest_lookupErrorMembers (hqualified : IsWord d.qualifiedName.toList)
    (missing : List Char) : (lookupErrorMembers d).nest missing = some missing := by
  refine nest_inside ?_ missing
  simp only [lookupErrorMembers, lookupError, nest_block, nest_all_nil, nest_all_cons, nest_line,
    nest_blank, scanLine, toString, String.toList_append, scan_append, scan_word hname,
    scan_word hqualified]
  repeat rw [String.toList_ofList]
  rfl

lemma nest_valueToName (hqualified : IsWord d.qualifiedName.toList) {t : Lookup}
    (hnames : ∀ c ∈ t.declared, IsWord c.name.toList)
    (missing : List Char) : (valueToName d t).nest missing = some missing := by
  refine nest_inside ?_ missing
  simp only [valueToName, nest_block, nest_all_nil, nest_all_cons, nest_line,
    nest_cases hname hnames, scanLine, toString, String.toList_append, scan_append, scan_word hname,
    scan_word hqualified]
  repeat rw [String.toList_ofList]
  rfl

lemma nest_tables {t : Lookup} (hglobal : IsWord (globalName d).toList)
    (hdeclared : ∀ c ∈ t.declared, IsWord c.name.toList)
    (hbyName : ∀ c ∈ t.byName, IsWord c.name.toList) (missing : List Char) :
    (tables d t).nest missing = some missing := by
  refine nest_inside ?_ missing
  simp only [tables, tablesNamespace, nest_block, nest_all_nil, nest_all_cons, nest_line,
    nest_blank, nest_displayNames hname hdeclared, nest_entryType hglobal,
    nest_entryTable hname hglobal hbyName, nest_nameOrder, scanLine, toString, String.toList_append,
    scan_append, scan_word hname]
  repeat rw [String.toList_ofList]
  rfl

end

/-- The source is well formed if nothing in it is the caller's and the header's name can be
quoted. -/
lemma wellFormed_layout {e : Enumeration} (he : e.Valid)
    (hincludes : e.definition.implementationIncludes = [])
    (hcode : e.definition.implementationCode = none) {headerFile : String}
    (hfile : IsQuotable headerFile.toList) :
    WellFormed (layout e.definition (.ofConstants e.constants) headerFile).text := by
  have hname := he.isWord_name
  have hscope := he.isWord_scope
  have hqualified := he.isWord_qualifiedName
  have hdeclared : ∀ c ∈ (Lookup.ofConstants e.constants).declared, IsWord c.name.toList :=
    he.isWord_names
  have hbyName : ∀ c ∈ (Lookup.ofConstants e.constants).byName, IsWord c.name.toList :=
    fun c hc => he.isWord_names c (List.mem_mergeSort.mp hc)
  have hbanner : scanLine banner.toList [] = some [] := rfl
  refine wellFormed_text ?_
  simp only [layout, nest_all_cons, nest_all_nil, nest_line, nest_blank, nest_empty, hbanner,
    nest_includes hincludes hfile, nest_openScope hscope, nest_closeScope hscope,
    nest_tables hname he.isWord_globalName hdeclared hbyName,
    nest_lookupErrorMembers hname hqualified, nest_nameToValue hname,
    nest_valueToName hname hqualified hdeclared, nest_streamOperators hname, hcode,
    Header.callerCode, Option.bind_some]

end Source

/-- **Lexical form**: both files of an accepted definition without includes and code of the caller
are well formed, whatever its scope, its values and its extensions are. -/
theorem Definition.files_well_formed {d : Definition} {e : Enumeration} (h : d.check = .ok e)
    (hinterface : d.interfaceIncludes = [] ∧ d.interfaceCode = none)
    (himplementation : d.implementationIncludes = [] ∧ d.implementationCode = none)
    {x : Extensions} (hx : x.header ≠ x.source) (hheader : IsQuotable x.header.toList) :
    ∃ files, d.generate x = .ok files ∧ WellFormed files.header ∧ WellFormed files.source := by
  obtain ⟨rfl, he⟩ := Enumeration.valid_of_check h
  obtain ⟨files, hrender, hheaderText, hsourceText⟩ := e.render_eq_ok hx
  refine ⟨files, generate_eq_ok_iff.mpr ⟨e, h, hrender⟩, ?_, ?_⟩
  · rw [hheaderText]
    exact Header.wellFormed_layout he hinterface.1 hinterface.2 x.header
  · rw [hsourceText]
    exact Source.wellFormed_layout he himplementation.1 himplementation.2
      (he.isQuotable_headerFile hheader)

/-- The characters are a comma, a quote and a line break, and the extension of the header looks like
a comment behind an open bracket. -/
theorem separators_well_formed :
    separators.check = .ok separatorsEnumeration ∧
      ∃ files, separators.generate ⟨"(//\x27", "cpp"⟩ = .ok files ∧
        WellFormed files.header ∧ WellFormed files.source :=
  ⟨check_separators,
    Definition.files_well_formed check_separators ⟨rfl, rfl⟩ ⟨rfl, rfl⟩ (by decide)
      (by simp [IsQuotable, isLineBreak])⟩

end EnumForge
