import EnumForge.FilePair
import EnumForge.Proofs.Acceptance
import EnumForge.Proofs.Lines

/-!
What the files of an accepted enumeration are made of. They are made whenever their extensions
differ, and no name, type or guard that they spell holds a line break or a mark of the generated
code.
-/

namespace EnumForge

/-! ### Characters of names -/

namespace Identifier

lemma mem_of_hasShape {start rest : Char → Bool} {cs : List Char} (h : hasShape start rest cs)
    {c : Char} (hc : c ∈ cs) : start c ∨ rest c := by
  cases cs with
  | nil => cases h
  | cons x xs =>
    obtain ⟨hstart, hrest⟩ : start x = true ∧ xs.all rest = true := by simpa [hasShape] using h
    rcases List.mem_cons.mp hc with rfl | hc
    · exact .inl hstart
    · exact .inr (List.all_eq_true.mp hrest c hc)

/-- A character that is no letter, digit or underscore. -/
def isMark (c : Char) : Bool := !(isLetter c || isDigit c || c == '_')

lemma isMark_newline : isMark '\n' := rfl

lemma isIdentifier_iff {s : String} : isIdentifier s ↔
    hasShape (fun c => isLetter c || c == '_') (fun c => !isMark c) s.toList ∧
      s ∉ keywords ∧ s ∉ standardMacros ∧ isReserved s.toList = false := by
  simp [isIdentifier, isMark, and_assoc]

lemma ne_empty {s : String} (h : isIdentifier s) : s ≠ "" := by
  rintro rfl
  cases h

lemma not_mem_of_isMark {c : Char} (hc : isMark c) {s : String} (h : isIdentifier s) :
    c ∉ s.toList := by
  intro hmem
  have hrest := mem_of_hasShape (isIdentifier_iff.mp h).1 hmem
  rw [hc] at hrest
  simp only [isMark, Bool.not_eq_true', Bool.or_eq_false_iff] at hc
  simp [hc.1.1, hc.2] at hrest

lemma not_mem_of_isTypeName {c : Char} (hc : isMark c) (hcolon : c ≠ ':') (hspace : c ≠ ' ')
    {s : String} (h : isTypeName s) : c ∉ s.toList := by
  intro hmem
  have hrest := mem_of_hasShape h hmem
  simp only [isMark, Bool.not_eq_true', Bool.or_eq_false_iff] at hc
  simp [hc.1.1, hc.1.2, hc.2, hcolon, hspace] at hrest

end Identifier

open Identifier

/-! No mark stands in a name of an accepted enumeration. -/

namespace Enumeration.Valid

variable {e : Enumeration} (he : e.Valid) {c : Char} (hc : isMark c)

include he hc

lemma not_mem_name : c ∉ e.definition.name.toList := not_mem_of_isMark hc he.typeName

lemma not_mem_names : ∀ k ∈ e.constants, c ∉ k.name.toList :=
  fun k hk => not_mem_of_isMark hc (he.names k hk)

lemma not_mem_scope : ∀ s ∈ e.definition.scope, c ∉ s.toList :=
  fun s hs => not_mem_of_isMark hc (he.scope s hs)

lemma not_mem_qualifiedName (hcolon : c ≠ ':') : c ∉ e.definition.qualifiedName.toList := by
  have hname := he.not_mem_name hc
  have hscope := he.not_mem_scope hc
  unfold Definition.qualifiedName
  generalize e.definition.scope = scope at hscope
  induction scope with
  | nil => exact hname
  | cons s rest ih =>
    rw [List.forall_mem_cons] at hscope
    have hrest := ih hscope.2
    have hcons : qualify (s :: rest) e.definition.name =
        s ++ "::" ++ qualify rest e.definition.name := rfl
    simp [hcons, hscope.1, hcolon, hrest]

end Enumeration.Valid

namespace IncludeGuard

/-! The code of a character is not empty and holds nothing but letters and digits. -/

lemma length_encodeChar_pos (c : Char) : 0 < (encodeChar c).length := by
  unfold encodeChar
  split_ifs <;> exact Nat.succ_pos _

lemma plain_hexDigit (n : Nat) :
    (isLetter (hexDigit (n % 16)) || isDigit (hexDigit (n % 16))) = true := by
  have hall : ∀ m : Fin 16, (isLetter (hexDigit m) || isDigit (hexDigit m)) = true := by decide
  exact hall ⟨n % 16, Nat.mod_lt n (by decide)⟩

lemma plain_of_mem_hexDigits {count n : Nat} {c : Char} (hc : c ∈ hexDigits count n) :
    (isLetter c || isDigit c) = true := by
  induction count generalizing n with
  | zero => cases hc
  | succ count ih =>
    rcases List.mem_append.mp hc with hc | hc
    · exact ih hc
    · rw [List.mem_singleton.mp hc]
      exact plain_hexDigit n

lemma plain_of_mem_encodeChar {x c : Char} (hc : c ∈ encodeChar x) :
    (isLetter c || isDigit c) = true := by
  unfold encodeChar at hc
  split at hc
  · simp only [List.mem_cons, List.not_mem_nil, or_false, or_self] at hc
    rw [hc]
    rfl
  · split at hc
    · rcases (by simpa using hc : c = 'Z' ∨ c = 'U') with rfl | rfl <;> rfl
    · split at hc
      · next hx =>
        rw [List.mem_singleton.mp hc]
        exact hx
      · rcases List.mem_cons.mp hc with rfl | hc
        · rfl
        · rcases List.mem_cons.mp hc with rfl | hc
          · rfl
          · exact plain_of_mem_hexDigits hc

/-- What is coded in a guard: those of the scope, the name and the extension that are not empty. -/
def parts (scope : List String) (name extension : String) : List String :=
  (scope ++ [name, extension]).filter (!·.isEmpty)

lemma toList_ofParts (scope : List String) (name extension : String) :
    (ofParts scope name extension).toList =
      ['_'].intercalate ((parts scope name extension).map encode) := String.toList_ofList

lemma encode_ne_nil {part : String} (h : part ≠ "") : encode part ≠ [] := by
  have hchar (c : Char) : encodeChar c ≠ [] := List.ne_nil_of_length_pos (length_encodeChar_pos c)
  cases hpart : part.toList with
  | nil => exact absurd (String.toList_eq_nil_iff.mp hpart) h
  | cons c cs => simp [encode, hpart, hchar]

/-- A guard is empty only if all its parts are. -/
lemma ofParts_ne_empty {scope : List String} {name extension : String}
    (h : parts scope name extension ≠ []) : ofParts scope name extension ≠ "" := by
  have hparts : ∀ p ∈ parts scope name extension, p ≠ "" := by
    intro p hp
    simpa using (List.mem_filter.mp hp).2
  rw [Ne, ← String.toList_eq_nil_iff, toList_ofParts]
  generalize parts scope name extension = ps at h hparts
  cases ps with
  | nil => exact absurd rfl h
  | cons p rest =>
    cases rest with
    | nil => simpa using encode_ne_nil (hparts p List.mem_cons_self)
    | cons q rest => simp [List.intercalate_cons_cons]

/-- A guard is made of letters, digits and underscores, whatever the extension is. -/
lemma not_mem_ofParts {c : Char} (hc : isMark c) (scope : List String) (name extension : String) :
    c ∉ (ofParts scope name extension).toList := by
  have hunderscore : c ≠ '_' := by rintro rfl; cases hc
  rw [toList_ofParts]
  generalize parts scope name extension = ps
  intro hmem
  induction ps with
  | nil => cases hmem
  | cons p rest ih =>
    have hp : c ∉ encode p := by
      intro hmem
      obtain ⟨x, -, hx⟩ := List.mem_flatMap.mp hmem
      rw [isMark, plain_of_mem_encodeChar hx] at hc
      cases hc
    cases rest with
    | nil => exact hp (by simpa using hmem)
    | cons q rest =>
      rw [List.map_cons, List.map_cons, List.intercalate_cons_cons, List.mem_append,
        List.mem_append, List.mem_singleton] at hmem
      rcases hmem with (hmem | hmem) | hmem
      · exact hp hmem
      · exact hunderscore hmem
      · exact ih hmem

end IncludeGuard

/-! ### Files -/

lemma Lookup.checkSizes_ofConstants (cs : List Constant) :
    (Lookup.ofConstants cs).checkSizes cs.length = .ok () := by
  have hdeclared : (Lookup.ofConstants cs).declared.length = cs.length := rfl
  have hbyName : (Lookup.ofConstants cs).byName.length = cs.length := by
    simp [Lookup.ofConstants]
  simp [Lookup.checkSizes, hdeclared, hbyName]

/-- The files have different paths just when they have different extensions. -/
lemma Extensions.headerFile_eq_sourceFile_iff (x : Extensions) (stem : String) :
    x.headerFile stem = x.sourceFile stem ↔ x.header = x.source := by
  simp [headerFile, sourceFile]

lemma Enumeration.render_of_ne (e : Enumeration) {x : Extensions} (hx : x.header ≠ x.source) :
    e.render x = .ok {
      name := e.definition.qualifiedName
      headerPath := x.headerFile e.definition.fileStem
      header := (Header.layout e.definition e.constants x.header).text
      sourcePath := x.sourceFile e.definition.fileStem
      source := (Source.layout e.definition (.ofConstants e.constants)
        (x.headerFile e.definition.fileStem)).text } := by
  have hpaths := mt (x.headerFile_eq_sourceFile_iff e.definition.fileStem).mp hx
  simp only [render, Lookup.checkSizes_ofConstants, if_neg hpaths]
  rfl

lemma Enumeration.render_of_eq (e : Enumeration) {x : Extensions} (hx : x.header = x.source) :
    e.render x = .error (.samePath (x.headerFile e.definition.fileStem)) := by
  have hpaths := (x.headerFile_eq_sourceFile_iff e.definition.fileStem).mpr hx
  simp only [render, Lookup.checkSizes_ofConstants, if_pos hpaths]
  rfl

/-- Only the extensions can keep an enumeration, checked or not, from being rendered. -/
lemma Enumeration.render_eq_error_iff {e : Enumeration} {x : Extensions} {cause : RenderError} :
    e.render x = .error cause ↔
      x.header = x.source ∧ cause = .samePath (x.headerFile e.definition.fileStem) := by
  by_cases hx : x.header = x.source
  · simp [e.render_of_eq hx, hx, eq_comm]
  · simp [e.render_of_ne hx, hx]

/-- The files of an enumeration are made if their extensions differ. -/
theorem Enumeration.render_eq_ok (e : Enumeration) {x : Extensions} (hx : x.header ≠ x.source) :
    ∃ files, e.render x = .ok files ∧
      files.header = (Header.layout e.definition e.constants x.header).text ∧
      files.source = (Source.layout e.definition (.ofConstants e.constants)
        (x.headerFile e.definition.fileStem)).text :=
  ⟨_, e.render_of_ne hx, rfl, rfl⟩

end EnumForge
