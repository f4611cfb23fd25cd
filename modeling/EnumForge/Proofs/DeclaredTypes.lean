import EnumForge.Proofs.BatchChoices
import EnumForge.Proofs.GuardMacro

/-!
The types that the headers of a batch declare, and the macros that keep the headers from being read
twice. Generating a batch compares the names of its files and nothing else, so whether the headers
can be included together depends on the scopes and the names of the definitions.
-/

namespace EnumForge

open Generated Reading

/-! ### The types of a layout -/

namespace Layout

/-- The type that a block declares, if its first line says that it is an enumeration or a class. -/
def typeName? (opening : String) : Option String :=
  ((opening.toList.dropPrefix? "enum class ".toList).or
    (opening.toList.dropPrefix? "class ".toList)).map fun rest => .ofList (rest.takeWhile (· ≠ ' '))

/-- The scopes that are open behind a layout, outermost first. -/
def scopesBehind : Layout → List String → List String
  | openScope segments, scopes => scopes ++ segments
  | closeScope segments, scopes => scopes.take (scopes.length - segments.length)
  | append first second, scopes => second.scopesBehind (first.scopesBehind scopes)
  | _, scopes => scopes

/-- The types that a layout declares in the scopes around it, each with these scopes in front of its
name. The caller's own text is not looked into. -/
def types : Layout → List String → List (List String)
  | block opening _ _, scopes => (typeName? opening).toList.map fun name => scopes ++ [name]
  | append first second, scopes => first.types scopes ++ second.types (first.scopesBehind scopes)
  | _, _ => []

section

variable {opening name : String} (hspace : ' ' ∉ name.toList) (behind : List Char)
  (hbehind : behind.takeWhile (· ≠ ' ') = [])

include hspace hbehind

/-- A name ends at the first space behind it. -/
lemma ofList_takeWhile_name :
    .ofList ((name.toList ++ behind).takeWhile (· ≠ ' ')) = name := by
  have hname : ∀ c ∈ name.toList, decide (c ≠ ' ') := by
    intro c hc
    exact decide_eq_true (ne_of_mem_of_not_mem hc hspace)
  rw [List.takeWhile_append_of_pos hname, hbehind, List.append_nil, String.ofList_toList]

lemma typeName?_enum
    (hopening : opening.toList = "enum class ".toList ++ (name.toList ++ behind)) :
    typeName? opening = some name := by
  rw [typeName?, hopening, dropPrefix?_append, Option.some_or, Option.map_some,
    ofList_takeWhile_name hspace behind hbehind]

lemma typeName?_class (hopening : opening.toList = "class ".toList ++ (name.toList ++ behind)) :
    typeName? opening = some name := by
  have hother : ("class ".toList ++ (name.toList ++ behind)).dropPrefix? "enum class ".toList =
      none := rfl
  rw [typeName?, hopening, hother, dropPrefix?_append, Option.none_or, Option.map_some,
    ofList_takeWhile_name hspace behind hbehind]

end

@[simp] lemma scopesBehind_append (first second : Layout) (scopes : List String) :
    (first ++ second).scopesBehind scopes = second.scopesBehind (first.scopesBehind scopes) := rfl

@[simp] lemma types_append (first second : Layout) (scopes : List String) :
    (first ++ second).types scopes =
      first.types scopes ++ second.types (first.scopesBehind scopes) := rfl

/-- A layout that opens no scope and declares no type. -/
def IsPlain (l : Layout) : Prop := ∀ scopes, l.scopesBehind scopes = scopes ∧ l.types scopes = []

lemma IsPlain.append {first second : Layout} (h₁ : first.IsPlain) (h₂ : second.IsPlain) :
    (first ++ second).IsPlain := by
  intro scopes
  rw [scopesBehind_append, types_append, (h₁ scopes).1, (h₁ scopes).2]
  exact h₂ scopes

lemma isPlain_all {ls : List Layout} (h : ∀ l ∈ ls, l.IsPlain) : (all ls).IsPlain := by
  induction ls with
  | nil => exact fun scopes => ⟨rfl, rfl⟩
  | cons l ls ih =>
    rw [List.forall_mem_cons] at h
    exact h.1.append (ih h.2)

lemma isPlain_empty : IsPlain empty := fun _ => ⟨rfl, rfl⟩

lemma isPlain_line (s : String) : IsPlain (line s) := fun _ => ⟨rfl, rfl⟩

lemma isPlain_blank : IsPlain blank := fun _ => ⟨rfl, rfl⟩

lemma isPlain_verbatim (s : String) : IsPlain (verbatim s) := fun _ => ⟨rfl, rfl⟩

end Layout

/-- The enumeration and its exception. -/
def Definition.declaredTypes (d : Definition) : List (List String) :=
  [d.scope ++ [d.name], d.scope ++ [lookupError d.name]]

namespace Header

open Layout

lemma isPlain_includes (d : Definition) : (includes d).IsPlain := by
  have hcaller : (callerIncludes d.interfaceIncludes).IsPlain := by
    unfold callerIncludes
    split
    · exact isPlain_empty
    · exact isPlain_blank.append (isPlain_all (List.forall_mem_map.mpr fun _ _ => isPlain_line _))
  have hwidth : (if d.storage.any Storage.needsFixedWidth then
      line "#include <cstdint>" else empty).IsPlain := by
    split
    · exact isPlain_line _
    · exact isPlain_empty
  refine isPlain_all ?_
  simp only [List.forall_mem_cons]
  exact ⟨hwidth, isPlain_line _, isPlain_line _, isPlain_line _, hcaller, isPlain_blank, nofun⟩

lemma isPlain_lookups (name : String) : (lookups name).IsPlain := fun _ => ⟨rfl, rfl⟩

lemma isPlain_callerCode (code : Option String) : (callerCode code).IsPlain := by
  cases code with
  | none => exact isPlain_empty
  | some code => exact (isPlain_verbatim code).append isPlain_blank

lemma isPlain_streamOperators (name : String) : (streamOperators name).IsPlain :=
  fun _ => ⟨rfl, rfl⟩

lemma types_enumeration {e : Enumeration} (he : e.Valid) (scopes : List String) :
    (enumeration e.definition e.constants).types scopes = [scopes ++ [e.definition.name]] := by
  have hspace : ' ' ∉ e.definition.name.toList := he.not_mem_name (by decide)
  rw [enumeration]
  cases e.definition.storage with
  | none =>
    have htype : typeName? s!"enum class {e.definition.name}" = some e.definition.name :=
      typeName?_enum hspace [] rfl (by simp [toString])
    simp only [types, htype, Option.toList_some, List.map_cons, List.map_nil]
  | some storage =>
    have htype : typeName? (s!"enum class {e.definition.name} : " ++ Text.trim storage) =
        some e.definition.name :=
      typeName?_enum hspace (" : ".toList ++ (Text.trim storage).toList) rfl (by simp [toString])
    simp only [types, htype, Option.toList_some, List.map_cons, List.map_nil]

lemma types_lookupErrorClass {e : Enumeration} (he : e.Valid) (scopes : List String) :
    (lookupErrorClass e.definition.name).types scopes =
      [scopes ++ [lookupError e.definition.name]] := by
  have hname : ' ' ∉ e.definition.name.toList := he.not_mem_name (by decide)
  have hspace : ' ' ∉ (lookupError e.definition.name).toList := by simp [lookupError, hname]
  have htype : typeName?
      s!"class {lookupError e.definition.name} : public std::invalid_argument" =
        some (lookupError e.definition.name) :=
    typeName?_class hspace " : public std::invalid_argument".toList rfl (by simp [toString])
  simp only [lookupErrorClass, types, htype, Option.toList_some, List.map_cons, List.map_nil]

lemma types_layout {e : Enumeration} (he : e.Valid) (extension : String) :
    (layout e.definition e.constants extension).types [] = e.definition.declaredTypes := by
  have hclose (scopes : List String) : (if e.definition.scope = [] then Layout.empty
      else .closeScope e.definition.scope ++ .blank).types scopes = [] := by
    split <;> rfl
  have henum (scopes : List String) :
      (enumeration e.definition e.constants).scopesBehind scopes = scopes := rfl
  have herror (scopes : List String) :
      (lookupErrorClass e.definition.name).scopesBehind scopes = scopes := rfl
  simp [layout, guarded, Layout.all, types, scopesBehind, (isPlain_includes _ _).1,
    (isPlain_includes _ _).2, (isPlain_lookups _ _).1, (isPlain_lookups _ _).2,
    (isPlain_callerCode _ _).1, (isPlain_callerCode _ _).2,
    (isPlain_streamOperators _ _).1, (isPlain_streamOperators _ _).2, hclose, henum, herror,
    types_enumeration he, types_lookupErrorClass he, Definition.declaredTypes]

end Header

/-! ### The headers of a batch -/

/-- The scope and the name of a definition. -/
def Definition.scopedName (d : Definition) : List String × String := (d.scope, d.name)

namespace Batch

variable {b : Batch} {x : Extensions}

/-- The headers of generated definitions, each with its layout. -/
lemma exists_layouts {pairs : List FilePair}
    (h : List.Forall₂ (fun d pair => d.generate x = .ok pair) b pairs) :
    ∃ layouts : List Layout,
      List.Forall₂ (fun d l => ∃ e, d.check = .ok e ∧ l = Header.layout d e.constants x.header)
        b layouts ∧
      pairs.map FilePair.header = layouts.map Layout.text ∧
      layouts.map (Layout.types · []) = b.map Definition.declaredTypes := by
  induction h with
  | nil => exact ⟨[], .nil, rfl, rfl⟩
  | cons hpair _ ih =>
    obtain ⟨e, he, hheader⟩ := Definition.header_of_generate hpair
    obtain ⟨layouts, hlayouts, htexts, htypes⟩ := ih
    obtain ⟨rfl, hvalid⟩ := Enumeration.valid_of_check he
    refine ⟨_ :: layouts, .cons ⟨e, he, rfl⟩ hlayouts, ?_, ?_⟩
    · rw [List.map_cons, List.map_cons, htexts, hheader]
    · rw [List.map_cons, List.map_cons, htypes, Header.types_layout hvalid]

/-- The guards of generated definitions. -/
lemma map_guard? {pairs : List FilePair}
    (h : List.Forall₂ (fun d pair => d.generate x = .ok pair) b pairs) :
    pairs.map (fun pair => guard? pair.header) =
      (b.map fun d => IncludeGuard.ofParts d.scope d.name x.header).map some := by
  induction h with
  | nil => rfl
  | cons hpair _ ih =>
    rw [List.map_cons, List.map_cons, List.map_cons, ih, Reading.guard?_of_generate hpair]

lemma nodup_guards_iff (h : ∀ d ∈ b, ∃ pair, d.generate x = .ok pair) :
    (b.map fun d => IncludeGuard.ofParts d.scope d.name x.header).Nodup ↔
      (b.map Definition.scopedName).Nodup := by
  rw [List.Nodup, List.Nodup, List.pairwise_map, List.pairwise_map]
  refine List.Pairwise.iff_of_mem fun {d d'} hd hd' => not_congr ?_
  obtain ⟨_, hpair⟩ := h d hd
  obtain ⟨_, hpair'⟩ := h d' hd'
  obtain ⟨e, he, -⟩ := Definition.header_of_generate hpair
  obtain ⟨e', he', -⟩ := Definition.header_of_generate hpair'
  obtain ⟨rfl, hvalid⟩ := Enumeration.valid_of_check he
  obtain ⟨rfl, hvalid'⟩ := Enumeration.valid_of_check he'
  rw [hvalid.guard_eq_guard_iff x.header hvalid', Definition.scopedName,
    Definition.scopedName, Prod.mk.injEq]

/-- Names that are derived, different ones from different names, clash just when the names do. -/
lemma nodup_derived_iff {f : String → String} (hf : Function.Injective f) (b : Batch) :
    (b.map fun d => d.scope ++ [f d.name]).Nodup ↔ (b.map Definition.scopedName).Nodup := by
  have hinjective : Function.Injective fun p : List String × String => p.1 ++ [f p.2] := by
    intro p p' h
    obtain ⟨hscope, hname⟩ := List.append_singleton_inj.mp h
    exact Prod.ext hscope (hf hname)
  rw [← List.nodup_map_iff hinjective, List.map_map]
  rfl

lemma lookupError_injective : Function.Injective lookupError :=
  fun _ _ h => (String.append_left_inj _).mp h

lemma disjoint_errors_iff (b : Batch) :
    List.Disjoint (b.map fun d => d.scope ++ [d.name])
        (b.map fun d => d.scope ++ [lookupError d.name]) ↔
      ∀ d ∈ b, ∀ d' ∈ b, d.scope = d'.scope → d.name ≠ lookupError d'.name := by
  constructor
  · intro h d hd d' hd' hscope hname
    refine h (List.mem_map_of_mem hd) (List.mem_map.mpr ⟨d', hd', ?_⟩)
    rw [hscope, hname]
  · intro h p hp hp'
    obtain ⟨d, hd, rfl⟩ := List.mem_map.mp hp
    obtain ⟨d', hd', hsame⟩ := List.mem_map.mp hp'
    obtain ⟨hscope, hname⟩ := List.append_singleton_inj.mp hsame
    exact h d hd d' hd' hscope.symm hname.symm

/-- Two definitions declare one type if they have one scope and one name, or if one of them has the
name of the exception of the other one. -/
lemma nodup_types_iff (b : Batch) :
    (b.flatMap Definition.declaredTypes).Nodup ↔ (b.map Definition.scopedName).Nodup ∧
      ∀ d ∈ b, ∀ d' ∈ b, d.scope = d'.scope → d.name ≠ lookupError d'.name := by
  -- the enumerations of all definitions, and then their exceptions
  have hperm : List.Perm (b.map (fun d => d.scope ++ [d.name]) ++
      b.map fun d => d.scope ++ [lookupError d.name]) (b.flatMap Definition.declaredTypes) := by
    have hsplit := List.map_append_flatMap_perm b (fun d => d.scope ++ [d.name])
      fun d => [d.scope ++ [lookupError d.name]]
    rwa [← List.map_eq_flatMap] at hsplit
  have henums : (b.map fun d => d.scope ++ [d.name]).Nodup ↔
      (b.map Definition.scopedName).Nodup := nodup_derived_iff Function.injective_id b
  rw [← hperm.nodup_iff, List.nodup_append', henums, nodup_derived_iff lookupError_injective,
    disjoint_errors_iff, ← and_assoc, and_self]

/-- **Clashing names**: where all definitions of a batch are generated, the guards of their headers
are different just when no two of them have one scope and one name. The types that the headers
declare are different just when, beside that, no definition has the name of the exception of another
one in its scope. -/
theorem names_clash_iff {r : Report} (h : b.generate x .stopAtFirst = .ok r) :
    ∃ (guards : List String) (layouts : List Layout),
      r.pairs.map (fun pair => guard? pair.header) = guards.map some ∧
      List.Forall₂ (fun d l => ∃ e, d.check = .ok e ∧ l = Header.layout d e.constants x.header)
        b layouts ∧
      r.pairs.map FilePair.header = layouts.map Layout.text ∧
      layouts.map (Layout.types · []) = b.map Definition.declaredTypes ∧
      (guards.Nodup ↔ (b.map Definition.scopedName).Nodup) ∧
      ((layouts.flatMap (Layout.types · [])).Nodup ↔ (b.map Definition.scopedName).Nodup ∧
        ∀ d ∈ b, ∀ d' ∈ b, d.scope = d'.scope → d.name ≠ lookupError d'.name) := by
  obtain ⟨-, -, hpairs⟩ := generate_stopAtFirst_iff_forall₂.mp h
  obtain ⟨layouts, hlayouts, htexts, htypes⟩ := exists_layouts hpairs
  have hgenerate := (exists_generate_iff.mp ⟨r, h⟩).2 rfl
  refine ⟨_, layouts, map_guard? hpairs, hlayouts, htexts, htypes, nodup_guards_iff hgenerate, ?_⟩
  rw [← nodup_types_iff, List.flatMap_def, htypes, ← List.flatMap_def]

end Batch

/-- The headers of three types can be read together. -/
theorem threeTypes_apart :
    ∃ (r : Report) (guards : List String) (layouts : List Layout),
      threeTypes.generate {} .stopAtFirst = .ok r ∧
      r.pairs.map (fun pair => guard? pair.header) = guards.map some ∧ guards.Nodup ∧
      r.pairs.map FilePair.header = layouts.map Layout.text ∧
      (layouts.flatMap (Layout.types · [])).Nodup := by
  obtain ⟨r, hr⟩ := exists_generate_threeTypes
  obtain ⟨guards, layouts, hguards, -, htexts, -, hapart, htypes⟩ := Batch.names_clash_iff hr
  exact ⟨r, guards, layouts, hr, hguards, hapart.mpr (by decide), htexts, htypes.mpr (by decide)⟩

/-- One type twice, in files of different names. -/
def colorsTwice : Batch := [colors.withFileStem "one", colors.withFileStem "two"]

/-- A type, and another one with the name of its exception. -/
def colorsAndError : Batch := [colors, { colors with name := "ColorLookupError" }]

lemma exists_generate_colorsTwice : ∃ r, colorsTwice.generate {} .stopAtFirst = .ok r := by
  refine Batch.exists_generate_of_checks .stopAtFirst (by decide) (by decide) ?_
  rw [colorsTwice, List.forall_mem_cons, List.forall_mem_singleton]
  exact ⟨⟨_, by cbv⟩, _, by cbv⟩

lemma exists_generate_colorsAndError : ∃ r, colorsAndError.generate {} .stopAtFirst = .ok r := by
  refine Batch.exists_generate_of_checks .stopAtFirst (by decide) (by decide) ?_
  rw [colorsAndError, List.forall_mem_cons, List.forall_mem_singleton]
  exact ⟨⟨_, check_colors⟩, _, by cbv⟩

/-- So a batch can be generated and one of its headers be skipped behind another one, or declare a
type that another one has declared. -/
theorem headers_clash :
    (∃ (r : Report) (layouts : List Layout), colorsTwice.generate {} .stopAtFirst = .ok r ∧
      ¬ (r.pairs.map fun pair => guard? pair.header).Nodup ∧
      r.pairs.map FilePair.header = layouts.map Layout.text ∧
      ¬ (layouts.flatMap (Layout.types · [])).Nodup) ∧
    ∃ (r : Report) (layouts : List Layout), colorsAndError.generate {} .stopAtFirst = .ok r ∧
      r.pairs.map FilePair.header = layouts.map Layout.text ∧
      ¬ (layouts.flatMap (Layout.types · [])).Nodup := by
  constructor
  · obtain ⟨r, hr⟩ := exists_generate_colorsTwice
    obtain ⟨-, -, hpairs⟩ := Batch.generate_stopAtFirst_iff_forall₂.mp hr
    obtain ⟨layouts, -, htexts, htypes⟩ := Batch.exists_layouts hpairs
    refine ⟨r, layouts, hr, ?_, htexts, ?_⟩
    · rw [Batch.map_guard? hpairs]
      decide
    · rw [List.flatMap_def, htypes]
      decide
  · obtain ⟨r, hr⟩ := exists_generate_colorsAndError
    obtain ⟨-, -, hpairs⟩ := Batch.generate_stopAtFirst_iff_forall₂.mp hr
    obtain ⟨layouts, -, htexts, htypes⟩ := Batch.exists_layouts hpairs
    refine ⟨r, layouts, hr, htexts, ?_⟩
    rw [List.flatMap_def, htypes]
    decide

end EnumForge
