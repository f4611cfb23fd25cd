import EnumForge.Proofs.LiteralReading
import EnumForge.Proofs.Rendering

/-!
The enumerators of a header, read back from its text. They stand between the braces behind the line
that names the type, one to a line, each with its value. The reader knows nothing of the enumeration
and finds the declared constants again, whatever characters their values are.
-/

namespace EnumForge

open Text Layout Reading Identifier

namespace Reading

/-- A name and the value that is written behind it. -/
def enumerator? (l : List Char) : Option Constant := do
  let (name, literal) ← cut? [' ', '=', ' '] l
  return ⟨.ofList name, ← value? literal⟩

/-- The constants between the braces of the enumeration in a header. -/
def enumerators? (header : String) : Option (List Constant) := do
  let behind ← behindFirst? "enum class ".toList.isPrefixOf (lines header.toList)
  let (items, _) ← cut? [['\x7d', ';']] (← behind.dropPrefix? [['\x7b']])
  (← items? [' ', ' '] items).mapM enumerator?

lemma enumerator?_enumerator {c : Constant} (hname : isIdentifier c.name)
    (hrange : ∀ i, c.value = .integer i → -(2 ^ 63) ≤ i ∧ i < 2 ^ 64) :
    enumerator? (Header.enumerator c).toList = some c := by
  have hspace : ' ' ∉ c.name.toList := not_mem_of_isMark (by decide) hname
  have hcut : cut? [' ', '=', ' '] (Header.enumerator c).toList =
      some (c.name.toList, (Literal.value c.value).toList) := by
    have h := cut?_append hspace ['=', ' '] (Literal.value c.value).toList
    simpa [Header.enumerator, toString] using h
  simp [enumerator?, hcut, value?_literal hrange]

lemma enumerators?_of_lines {header : String} {before items behind : List (List Char)}
    {rest : List Char}
    (hlines : lines header.toList =
      before ++ ("enum class ".toList ++ rest) :: ['\x7b'] :: (items ++ ['\x7d', ';'] :: behind))
    (hbefore : ∀ l ∈ before, "enum class ".toList.isPrefixOf l = false)
    (hclosing : ['\x7d', ';'] ∉ items) :
    enumerators? header = (items? [' ', ' '] items).bind (·.mapM enumerator?) := by
  have hopening : "enum class ".toList.isPrefixOf ("enum class ".toList ++ rest) := by simp
  have hbehind := behindFirst?_append hbefore hopening
    (['\x7b'] :: (items ++ ['\x7d', ';'] :: behind))
  have hbrace := dropPrefix?_append [['\x7b']] (items ++ ['\x7d', ';'] :: behind)
  have hcut := cut?_append hclosing [] behind
  rw [List.singleton_append] at hbrace
  rw [List.nil_append] at hcut
  rw [enumerators?, hlines, hbehind, Option.bind_eq_bind, Option.bind_some, hbrace,
    Option.bind_eq_bind, Option.bind_some, hcut]
  rfl

end Reading

namespace Header

/-- What stands in front of the enumeration. -/
def beginning (d : Definition) (extension : String) : Layout :=
  let guard := IncludeGuard.ofParts d.scope d.name extension
  .all [
    .line Generated.banner,
    .blank,
    .line s!"#ifndef {guard}",
    .line s!"#define {guard}",
    .blank,
    includes d,
    .openScope d.scope]

lemma exists_rows_layout (d : Definition) (cs : List Constant) (extension : String) :
    ∃ after, (layout d cs extension).rows 0 =
      (beginning d extension).rows 0 ++ (enumeration d cs).rows 0 ++ after := by
  simp only [layout, guarded, beginning, rows_all, List.flatMap_cons, List.flatMap_nil,
    List.append_assoc, List.append_nil]
  exact ⟨_, rfl⟩

/-- No line in front of the enumeration begins as its first line does. -/
lemma forall_mem_rows_beginning {d : Definition} (hscope : ∀ s ∈ d.scope, '\n' ∉ s.toList)
    (hincludes : d.interfaceIncludes = []) (extension : String) :
    ∀ r ∈ (beginning d extension).rows 0, '\n' ∉ r ∧ r.head? ≠ some 'e' := by
  have hguard : '\n' ∉ (IncludeGuard.ofParts d.scope d.name extension).toList :=
    IncludeGuard.not_mem_ofParts isMark_newline _ _ _
  have hindent : ∀ k t, '\n' ∉ t ∧ t.head? ≠ some 'e' →
      '\n' ∉ List.replicate k ' ' ++ t ∧ (List.replicate k ' ' ++ t).head? ≠ some 'e' := by
    rintro k t ⟨hbreak, hhead⟩
    cases k with
    | zero => exact ⟨hbreak, hhead⟩
    | succ k => simp [List.replicate_succ, hbreak]
  refine forall_mem_rows hindent ?_
  cases hwidth : d.storage.any Storage.needsFixedWidth <;>
    simpa +decide [beginning, includes, callerIncludes, texts, toString, hguard, hincludes, hwidth,
      or_imp, forall_and] using hscope

lemma exists_rows_enumeration {d : Definition} (hname : '\n' ∉ d.name.toList)
    (hstorage : ∀ s, d.storage = some s → Identifier.isTypeName (Text.trim s))
    (cs : List Constant) :
    ∃ rest, '\n' ∉ rest ∧ (enumeration d cs).rows 0 =
      ("enum class ".toList ++ rest) :: ['\x7b'] ::
        ((Layout.list (cs.map enumerator)).rows 1 ++ [['\x7d', ';']]) := by
  cases hs : d.storage with
  | none =>
    refine ⟨d.name.toList, hname, ?_⟩
    simp [enumeration, hs, rows, row, toString]
  | some storage =>
    have ht : '\n' ∉ (Text.trim storage).toList :=
      not_mem_of_isTypeName isMark_newline (by decide) (by decide) (hstorage storage hs)
    refine ⟨(d.name ++ " : " ++ Text.trim storage).toList, by simp [hname, ht], ?_⟩
    simp [enumeration, hs, rows, row, toString]

lemma newline_not_mem_rows_list {cs : List Constant} (hnames : ∀ c ∈ cs, '\n' ∉ c.name.toList) :
    ∀ r ∈ (Layout.list (cs.map enumerator)).rows 1, '\n' ∉ r := by
  have hitem : ∀ s ∈ cs.map enumerator, '\n' ∉ s.toList := by
    refine List.forall_mem_map.mpr fun c hc => ?_
    simp [enumerator, toString, hnames c hc, newline_not_mem_value]
  exact forall_mem_rows (by simp) (List.forall_mem_map.mpr (forall_mem_withCommas (by simp) hitem))

end Header

/-- The lines of a header up to the end of its enumerators; the text behind them may be anything. -/
lemma exists_lines_header {e : Enumeration} (he : e.Valid)
    (hincludes : e.definition.interfaceIncludes = []) (extension : String) :
    ∃ rest behind,
      lines (Header.layout e.definition e.constants extension).text.toList =
        (Header.beginning e.definition extension).rows 0 ++
          ("enum class ".toList ++ rest) :: ['\x7b'] ::
            ((Layout.list (e.constants.map Header.enumerator)).rows 1 ++
              ['\x7d', ';'] :: behind) := by
  obtain ⟨after, hlayout⟩ := Header.exists_rows_layout e.definition e.constants extension
  obtain ⟨rest, hrest, henumeration⟩ :=
    Header.exists_rows_enumeration (he.not_mem_name isMark_newline) he.storage e.constants
  have hbeginning :=
    Header.forall_mem_rows_beginning (he.not_mem_scope isMark_newline) hincludes extension
  have hitems := Header.newline_not_mem_rows_list (he.not_mem_names isMark_newline)
  have hbreak : ∀ r ∈ (Header.beginning e.definition extension).rows 0 ++
      (Header.enumeration e.definition e.constants).rows 0, '\n' ∉ r := by
    rw [henumeration, List.forall_mem_append, List.forall_mem_cons, List.forall_mem_cons,
      List.forall_mem_append, List.forall_mem_singleton]
    exact ⟨fun r hr => (hbeginning r hr).1, by simp [hrest], by decide, hitems, by decide⟩
  -- the rows behind the enumeration hold the caller's code, so nothing is said of their lines
  refine ⟨rest, lines (unlines after), ?_⟩
  rw [toList_text, hlayout, unlines_append, lines_unlines_append hbreak, henumeration]
  simp

namespace Reading

lemma enumerators?_header {e : Enumeration} (he : e.Valid)
    (hincludes : e.definition.interfaceIncludes = [])
    (hrange : ∀ c ∈ e.constants, ∀ i, c.value = .integer i → -(2 ^ 63) ≤ i ∧ i < 2 ^ 64)
    (extension : String) :
    enumerators? (Header.layout e.definition e.constants extension).text = some e.constants := by
  obtain ⟨rest, behind, hlines⟩ := exists_lines_header he hincludes extension
  have hfirst : ∀ l ∈ (Header.beginning e.definition extension).rows 0,
      "enum class ".toList.isPrefixOf l = false := by
    intro l hl
    have hhead := (Header.forall_mem_rows_beginning (he.not_mem_scope isMark_newline) hincludes
      extension l hl).2
    cases l with
    | nil => rfl
    | cons c l =>
      have hc : c ≠ 'e' := by simpa using hhead
      simp [List.isPrefixOf, Ne.symm hc]
  have hitem : ∀ s ∈ e.constants.map Header.enumerator, s ≠ "" := by
    refine List.forall_mem_map.mpr fun c _ => ?_
    simp [Header.enumerator, toString]
  have hclosing : ['\x7d', ';'] ∉ (Layout.list (e.constants.map Header.enumerator)).rows 1 :=
    fun hmem => absurd (head?_of_mem_rows_list 0 hitem _ hmem) (by decide)
  have hitems : items? [' ', ' '] ((Layout.list (e.constants.map Header.enumerator)).rows 1) =
      some ((e.constants.map Header.enumerator).map String.toList) := items?_rows 1 hitem
  have hread : ((e.constants.map Header.enumerator).map String.toList).mapM enumerator? =
      some e.constants := by
    have h := mapM_map_eq_some fun c hc => enumerator?_enumerator (he.names c hc) (hrange c hc)
    simpa [Function.comp_def] using h
  rw [enumerators?_of_lines hlines hfirst hclosing, hitems, Option.bind_some, hread]

end Reading

/-- **Enumerators**: the declared constants are read back from the header in their order, each with
its name and its value. -/
theorem Definition.enumerators_read_back {d : Definition} {e : Enumeration} (h : d.check = .ok e)
    (hincludes : d.interfaceIncludes = [])
    (hrange : ∀ c ∈ e.constants, ∀ i, c.value = .integer i → -(2 ^ 63) ≤ i ∧ i < 2 ^ 64)
    {x : Extensions} (hx : x.header ≠ x.source) :
    ∃ files, e.render x = .ok files ∧ Reading.enumerators? files.header = some e.constants := by
  obtain ⟨rfl, he⟩ := Enumeration.valid_of_check h
  obtain ⟨files, hfiles, hheader, -⟩ := e.render_eq_ok hx
  refine ⟨files, hfiles, ?_⟩
  rw [hheader]
  exact Reading.enumerators?_header he hincludes hrange x.header

/-- The least and the greatest number that 64 bits can hold, in a type that is not known. -/
def extremes : Definition where
  name := "Extreme"
  storage := some "Wide"
  values := some (.mapping [("GREATEST", .integer 18446744073709551615),
    ("LEAST", .integer (-9223372036854775808))])

def extremesEnumeration : Enumeration where
  definition := extremes
  constants := [⟨"LEAST", .integer (-9223372036854775808)⟩,
    ⟨"GREATEST", .integer 18446744073709551615⟩]

lemma check_extremes : extremes.check = .ok extremesEnumeration := by cbv

theorem extremes_and_separators_read_back :
    (∃ files, extremesEnumeration.render {} = .ok files ∧
      Reading.enumerators? files.header = some extremesEnumeration.constants) ∧
    ∃ files, separatorsEnumeration.render {} = .ok files ∧
      Reading.enumerators? files.header = some separatorsEnumeration.constants := by
  refine ⟨Definition.enumerators_read_back check_extremes rfl ?_ (by decide),
    Definition.enumerators_read_back check_separators rfl ?_ (by decide)⟩
  · simp [extremesEnumeration]
  · simp [separatorsEnumeration]

end EnumForge
