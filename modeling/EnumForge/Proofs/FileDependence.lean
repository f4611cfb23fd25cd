import EnumForge.Proofs.OutputPaths

/-!
What each of the two files depends on. The header does not know the stem nor what goes into the
source alone. The source knows of the values only in which order they put the names: it spells names
and positions, and the tables sort by names.
-/

namespace EnumForge

namespace Definition

/-- The definitions declare the same for their headers, their values apart. -/
structure SameForHeader (d₁ d₂ : Definition) : Prop where
  name : d₁.name = d₂.name
  scope : d₁.scope = d₂.scope
  storage : d₁.storage = d₂.storage
  interfaceCode : d₁.interfaceCode = d₂.interfaceCode
  interfaceIncludes : d₁.interfaceIncludes = d₂.interfaceIncludes

/-- The definitions declare the same for their sources, their values apart. -/
structure SameForSource (d₁ d₂ : Definition) : Prop where
  name : d₁.name = d₂.name
  scope : d₁.scope = d₂.scope
  fileStem : d₁.fileStem = d₂.fileStem
  implementationCode : d₁.implementationCode = d₂.implementationCode
  implementationIncludes : d₁.implementationIncludes = d₂.implementationIncludes

lemma SameForSource.qualifiedName {d₁ d₂ : Definition} (h : d₁.SameForSource d₂) :
    d₁.qualifiedName = d₂.qualifiedName := by
  rw [Definition.qualifiedName, Definition.qualifiedName, h.scope, h.name]

end Definition

/-! ### Headers -/

theorem Header.layout_eq_of_sameForHeader {d₁ d₂ : Definition} (h : d₁.SameForHeader d₂)
    (cs : List Constant) (extension : String) :
    layout d₁ cs extension = layout d₂ cs extension := by
  have hincludes : includes d₁ = includes d₂ := by
    rw [includes, includes, h.storage, h.interfaceIncludes]
  have henumeration : enumeration d₁ cs = enumeration d₂ cs := by
    rw [enumeration, enumeration, h.name, h.storage]
  rw [layout, layout, hincludes, henumeration, h.name, h.scope, h.interfaceCode]

/-! ### Tables -/

namespace Lookup

/-- The tables hold the same names at the same positions. -/
structure SameNames (s t : Lookup) : Prop where
  declared : s.declared.map Constant.name = t.declared.map Constant.name
  byName : s.byName.map Constant.name = t.byName.map Constant.name

/-- Sorting looks at the names alone. -/
lemma map_name_byName (cs : List Constant) :
    (ofConstants cs).byName.map Constant.name =
      (cs.map Constant.name).mergeSort fun a b => !Text.less b a :=
  List.map_mergeSort fun _ _ _ _ => rfl

lemma sameNames_ofConstants {cs ds : List Constant}
    (h : cs.map Constant.name = ds.map Constant.name) :
    (ofConstants cs).SameNames (ofConstants ds) where
  declared := h
  byName := by rw [map_name_byName, map_name_byName, h]

variable {s t : Lookup} (h : s.SameNames t)

include h

lemma SameNames.size : s.size = t.size := by
  have hlength := congrArg List.length h.declared
  rwa [List.length_map, List.length_map] at hlength

/-- What is written for a constant by its name is the same in both tables. -/
lemma SameNames.map_declared (f : String → String) :
    (s.declared.map fun c => f c.name) = t.declared.map fun c => f c.name := by
  have hmap := congrArg (List.map f) h.declared
  rwa [List.map_map, List.map_map] at hmap

lemma SameNames.map_byName (f : String → String) :
    (s.byName.map fun c => f c.name) = t.byName.map fun c => f c.name := by
  have hmap := congrArg (List.map f) h.byName
  rwa [List.map_map, List.map_map] at hmap

lemma SameNames.map_zipIdx {α : Type} (f : String → Nat → α) :
    (s.declared.zipIdx.map fun (c, i) => f c.name i) =
      t.declared.zipIdx.map fun (c, i) => f c.name i := by
  have hmap := congrArg (fun ns => ns.zipIdx.map fun p => f p.1 p.2) h.declared
  simpa [List.zipIdx_map, Function.comp_def] using hmap

end Lookup

/-! ### Sources -/

namespace Source

variable {s t : Lookup} (h : s.SameNames t)

include h

lemma displayNames_eq (name : String) : displayNames name s = displayNames name t := by
  rw [displayNames, displayNames, h.map_declared fun n => s!"\"{n}\"", h.size]

lemma entryTable_eq (name globalName : String) :
    entryTable name globalName s = entryTable name globalName t := by
  have hentries : s.byName.map (entry globalName) = t.byName.map (entry globalName) :=
    h.map_byName fun n => s!"\x7b \"{n}\", {globalName}::{n} \x7d"
  rw [entryTable, entryTable, hentries, h.size]

lemma cases_eq (name : String) : cases name s = cases name t :=
  congrArg Layout.all (h.map_zipIdx fun n i => Layout.line
    s!"case {name}::{n}: return {Generated.tablesNamespace name}::display_name({i});")

theorem layout_eq_of_sameForSource {d₁ d₂ : Definition} (hd : d₁.SameForSource d₂)
    (headerFile : String) : layout d₁ s headerFile = layout d₂ t headerFile := by
  have hglobal : Generated.globalName d₁ = Generated.globalName d₂ :=
    congrArg ("::" ++ ·) hd.qualifiedName
  have hincludes : includes d₁ headerFile = includes d₂ headerFile := by
    rw [includes, includes, hd.implementationIncludes]
  have htables : tables d₁ s = tables d₂ t := by
    rw [tables, tables, hglobal, hd.name, displayNames_eq h, entryTable_eq h]
  have herror : lookupErrorMembers d₁ = lookupErrorMembers d₂ := by
    rw [lookupErrorMembers, lookupErrorMembers, hd.name, hd.qualifiedName]
  have hvalue : valueToName d₁ s = valueToName d₂ t := by
    rw [valueToName, valueToName, hd.name, hd.qualifiedName, cases_eq h]
  rw [layout, layout, hincludes, htables, herror, hvalue, hd.name, hd.scope, hd.implementationCode]

end Source

/-! ### Files -/

/-- **Dependence**: two accepted definitions have the same header if they declare the same for it
and have the same constants, and the same source if they declare the same for it and have the same
names in the same order, whatever the values are. -/
theorem Definition.files_depend_on_declared {d₁ d₂ : Definition} {e₁ e₂ : Enumeration}
    (h₁ : d₁.check = .ok e₁) (h₂ : d₂.check = .ok e₂) {x₁ x₂ : Extensions}
    (hx₁ : x₁.header ≠ x₁.source) (hx₂ : x₂.header ≠ x₂.source) (hx : x₁.header = x₂.header) :
    ∃ files₁ files₂, d₁.generate x₁ = .ok files₁ ∧ d₂.generate x₂ = .ok files₂ ∧
      (d₁.SameForHeader d₂ → e₁.constants = e₂.constants → files₁.header = files₂.header) ∧
      (d₁.SameForSource d₂ →
        e₁.constants.map Constant.name = e₂.constants.map Constant.name →
        files₁.source = files₂.source) := by
  obtain ⟨rfl, -⟩ := Enumeration.valid_of_check h₁
  obtain ⟨rfl, -⟩ := Enumeration.valid_of_check h₂
  obtain ⟨files₁, hfiles₁, hheader₁, hsource₁⟩ := e₁.render_eq_ok hx₁
  obtain ⟨files₂, hfiles₂, hheader₂, hsource₂⟩ := e₂.render_eq_ok hx₂
  refine ⟨files₁, files₂, generate_eq_ok_iff.mpr ⟨e₁, h₁, hfiles₁⟩,
    generate_eq_ok_iff.mpr ⟨e₂, h₂, hfiles₂⟩, fun hd hconstants => ?_, fun hd hnames => ?_⟩
  · rw [hheader₁, hheader₂, hconstants, hx, Header.layout_eq_of_sameForHeader hd]
  · have hfile : x₁.headerFile e₁.definition.fileStem = x₂.headerFile e₂.definition.fileStem := by
      rw [Extensions.headerFile, Extensions.headerFile, hd.fileStem, hx]
    rw [hsource₁, hsource₂, hfile,
      Source.layout_eq_of_sameForSource (Lookup.sameNames_ofConstants hnames) hd]

/-- Two constants by position. -/
def colors : Definition where
  name := "Color"
  values := some (.names ["RED", "GREEN"])

def colorsEnumeration : Enumeration := ⟨colors, [⟨"RED", .integer 0⟩, ⟨"GREEN", .integer 1⟩]⟩

/-- The same constants with their numbers, in files of another name. -/
def numberedColors : Definition :=
  { colors with
    stem := some "palette"
    values := some (.mapping [("GREEN", .integer 1), ("RED", .integer 0)])
    implementationCode := some "int drawn = 0;" }

def numberedColorsEnumeration : Enumeration := ⟨numberedColors, colorsEnumeration.constants⟩

/-- The same names for characters. -/
def letteredColors : Definition :=
  { colors with
    storage := some "char"
    values := some (.mapping [("GREEN", .text "h"), ("RED", .text "g")])
    interfaceIncludes := ["<vector>"] }

def letteredColorsEnumeration : Enumeration :=
  ⟨letteredColors, [⟨"RED", .char 'g'⟩, ⟨"GREEN", .char 'h'⟩]⟩

lemma check_colors : colors.check = .ok colorsEnumeration := by cbv

theorem colors_share_files :
    (∃ files₁ files₂, colors.generate {} = .ok files₁ ∧
      numberedColors.generate { source := "cc" } = .ok files₂ ∧ files₁.header = files₂.header) ∧
    ∃ files₁ files₂, colors.generate {} = .ok files₁ ∧
      letteredColors.generate { source := "cc" } = .ok files₂ ∧ files₁.source = files₂.source := by
  have hnumbered : numberedColors.check = .ok numberedColorsEnumeration := by cbv
  have hlettered : letteredColors.check = .ok letteredColorsEnumeration := by cbv
  have hcpp : ({} : Extensions).header ≠ ({} : Extensions).source := by decide
  have hcc : ({ source := "cc" } : Extensions).header ≠
      ({ source := "cc" } : Extensions).source := by decide
  obtain ⟨files₁, files₂, h₁, h₂, hheader, -⟩ :=
    Definition.files_depend_on_declared check_colors hnumbered hcpp hcc rfl
  obtain ⟨files₃, files₄, h₃, h₄, -, hsource⟩ :=
    Definition.files_depend_on_declared check_colors hlettered hcpp hcc rfl
  exact ⟨⟨files₁, files₂, h₁, h₂, hheader ⟨rfl, rfl, rfl, rfl, rfl⟩ rfl⟩,
    files₃, files₄, h₃, h₄, hsource ⟨rfl, rfl, rfl, rfl, rfl⟩ rfl⟩

end EnumForge
