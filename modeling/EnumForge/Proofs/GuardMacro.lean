import EnumForge.Proofs.FileDependence
import EnumForge.Proofs.GuardCodes
import EnumForge.Proofs.Reading

/-!
The macro that a header defines for its guard, read back from the text, beside the names that the
header declares. It is empty, so a name that is spelled like it is gone from the header. That cannot
happen to a scope, but it can happen to a constant and, without an extension, to the type.
-/

namespace EnumForge

open Text Layout Reading Identifier

/-! ### The macro of a header -/

namespace Reading

/-- The first macro that a header defines. -/
def guard? (header : String) : Option String :=
  (lines header.toList).findSome? fun l => (l.dropPrefix? "#define ".toList).map .ofList

lemma guard?_guarded {guard : String} (hguard : '\n' ∉ guard.toList) (body : Layout) :
    guard? (Header.guarded guard body).text = some guard := by
  -- only the first four lines matter: the body may hold lines of the caller
  obtain ⟨after, hrows⟩ : ∃ after, (Header.guarded guard body).rows 0 =
      [Generated.banner.toList, [], "#ifndef ".toList ++ guard.toList,
        "#define ".toList ++ guard.toList] ++ after := by
    simp only [Header.guarded, rows_all, List.flatMap_cons]
    exact ⟨_, by simp [rows, row, toString, Generated.banner]; rfl⟩
  have hlines : lines (Header.guarded guard body).text.toList =
      [Generated.banner.toList, [], "#ifndef ".toList ++ guard.toList,
        "#define ".toList ++ guard.toList] ++ lines (unlines after) := by
    rw [toList_text, hrows, unlines_append, lines_unlines_append]
    simp [hguard, Generated.banner]
  have hbanner : Generated.banner.toList.dropPrefix? "#define ".toList = none := by decide
  have hblank : ([] : List Char).dropPrefix? "#define ".toList = none := by decide
  have hifndef : ("#ifndef ".toList ++ guard.toList).dropPrefix? "#define ".toList = none := rfl
  have hdefine := dropPrefix?_append "#define ".toList guard.toList
  simp only [guard?, hlines, List.cons_append, List.findSome?_cons, hbanner, hblank, hifndef,
    hdefine, Option.map_none, Option.map_some, String.ofList_toList]

lemma guard?_header (d : Definition) (cs : List Constant) (extension : String) :
    guard? (Header.layout d cs extension).text =
      some (IncludeGuard.ofParts d.scope d.name extension) :=
  guard?_guarded (IncludeGuard.not_mem_ofParts isMark_newline _ _ _) _

end Reading

/-- The header of a generated definition. -/
lemma Definition.header_of_generate {d : Definition} {x : Extensions} {pair : FilePair}
    (h : d.generate x = .ok pair) :
    ∃ e, d.check = .ok e ∧ pair.header = (Header.layout d e.constants x.header).text := by
  obtain ⟨e, he, hrender⟩ := generate_eq_ok_iff.mp h
  obtain ⟨rfl, -⟩ := Enumeration.valid_of_check he
  obtain ⟨-, -, hpaths⟩ := Enumeration.names_of_render hrender
  have hx := mt (x.headerFile_eq_sourceFile_iff e.definition.fileStem).mpr hpaths
  obtain ⟨files, hfiles, hheader, -⟩ := e.render_eq_ok hx
  rw [hrender] at hfiles
  cases hfiles
  exact ⟨e, he, hheader⟩

/-- The macro of a header tells nothing but the scope, the name and the extension. -/
theorem Reading.guard?_of_generate {d : Definition} {x : Extensions} {pair : FilePair}
    (h : d.generate x = .ok pair) :
    guard? pair.header = some (IncludeGuard.ofParts d.scope d.name x.header) := by
  obtain ⟨e, -, hheader⟩ := Definition.header_of_generate h
  rw [hheader, guard?_header]

/-! ### The macro and the declared names -/

namespace Enumeration.Valid

variable {e : Enumeration} (he : e.Valid) (extension : String)

include he

lemma parts_eq : IncludeGuard.parts e.definition.scope e.definition.name extension =
    (e.definition.scope ++ [e.definition.name]) ++ [extension].filter (!·.isEmpty) :=
  IncludeGuard.parts_of_names (fun s hs => ne_empty (he.scope s hs)) (ne_empty he.typeName) _

lemma parts_ne_nil :
    IncludeGuard.parts e.definition.scope e.definition.name extension ≠ [] := by
  rw [he.parts_eq]
  simp

/-- A scope is one of at least two parts of the guard. -/
lemma guard_ne_scope :
    ∀ s ∈ e.definition.scope,
      IncludeGuard.ofParts e.definition.scope e.definition.name extension ≠ s := by
  intro s hs hguard
  have hparts := he.parts_eq extension
  have hmem : s ∈ IncludeGuard.parts e.definition.scope e.definition.name extension := by
    rw [hparts]
    simp [hs]
  obtain ⟨hone, -⟩ := (IncludeGuard.ofParts_eq_part_iff hmem).mp hguard
  have hlength := congrArg List.length (hparts.symm.trans hone)
  have hpos := List.length_pos_of_mem hs
  simp only [List.length_append, List.length_singleton] at hlength
  omega

/-- The type has the name of the guard just when its name is the only part and is coded as it is. -/
lemma guard_eq_name_iff :
    IncludeGuard.ofParts e.definition.scope e.definition.name extension = e.definition.name ↔
      e.definition.scope = [] ∧ extension = "" ∧
        ∀ c ∈ e.definition.name.toList, c ≠ 'Z' ∧ c ≠ '_' := by
  have hparts := he.parts_eq extension
  have hmem : e.definition.name ∈
      IncludeGuard.parts e.definition.scope e.definition.name extension := by
    rw [hparts]
    simp
  have hone : (e.definition.scope ++ [e.definition.name]) ++ [extension].filter (!·.isEmpty) =
      [e.definition.name] ↔ e.definition.scope = [] ∧ extension = "" := by
    by_cases hextension : extension = ""
    · simp [hextension]
    · refine iff_of_false (fun h => ?_) fun h => hextension h.2
      have hlength := congrArg List.length h
      simp [hextension] at hlength
  have hchars : (∀ c ∈ e.definition.name.toList, c ≠ 'Z' ∧ (isLetter c || isDigit c) = true) ↔
      ∀ c ∈ e.definition.name.toList, c ≠ 'Z' ∧ c ≠ '_' := by
    refine forall₂_congr fun c hc => and_congr_right fun _ => ?_
    have hmark : isMark c = false := by
      by_contra hmark
      exact he.not_mem_name (by simpa using hmark) hc
    constructor
    · rintro h rfl
      cases h
    · intro hne
      rw [isMark, Bool.not_eq_false'] at hmark
      simpa [hne] using hmark
  rw [IncludeGuard.ofParts_eq_part_iff hmem, IncludeGuard.encode_eq_self_iff, hparts, hone, hchars,
    and_assoc]

/-- Among accepted types a guard belongs to one scope and one name. -/
lemma guard_eq_guard_iff {e' : Enumeration} (he' : e'.Valid) :
    IncludeGuard.ofParts e.definition.scope e.definition.name extension =
        IncludeGuard.ofParts e'.definition.scope e'.definition.name extension ↔
      e.definition.scope = e'.definition.scope ∧ e.definition.name = e'.definition.name := by
  constructor
  · intro h
    have hparts := IncludeGuard.parts_eq_of_ofParts_eq h
    rwa [he.parts_eq, he'.parts_eq, List.append_left_inj, List.append_singleton_inj] at hparts
  · rintro ⟨hscope, hname⟩
    rw [hscope, hname]

end Enumeration.Valid

/-- The same scope and name are accepted with any one name for a constant. -/
lemma Definition.KeepsRules.withConstant {d : Definition} {vs : WrittenValues}
    (h : d.KeepsRules vs) {n : String} (hn : isIdentifier n) :
    ({ d with values := some (.names [n]), storage := none } : Definition).KeepsRules
      (.names [n]) where
  written := rfl
  nonempty := List.cons_ne_nil _ _
  typeName := h.typeName
  scope := h.scope
  stem := h.stem
  labels := List.forall_mem_singleton.mpr hn
  oneKind := trivial
  asciiTexts := trivial
  distinctNames := List.nodup_singleton n
  distinctValues := List.nodup_singleton _
  inRange := by
    intro low high hrange m v hmem
    have hint : Storage.range? "int" = some (-2147483648, 2147483647) := by cbv
    obtain ⟨rfl, rfl⟩ := Prod.mk.inj (Option.some.inj (hint.symm.trans hrange))
    obtain ⟨-, ⟨⟩⟩ := Prod.mk.inj (List.mem_singleton.mp hmem)
    decide
  storage := nofun

/-- **Guards and names**: the macro of a header is never a scope around it. It is the type just when
there are neither scope nor extension and the name has no character that a guard codes, and it is a
constant just when the codes of the scope, the name and the extension stand between the underscores
of its name. No rule keeps a constant from having such a name. -/
theorem Definition.guard_meets_iff {d : Definition} {e : Enumeration} (h : d.check = .ok e)
    {x : Extensions} (hx : x.header ≠ x.source) :
    ∃ files guard, d.generate x = .ok files ∧ Reading.guard? files.header = some guard ∧
      (∀ s ∈ d.scope, guard ≠ s) ∧
      (guard = d.name ↔
        d.scope = [] ∧ x.header = "" ∧ ∀ c ∈ d.name.toList, c ≠ 'Z' ∧ c ≠ '_') ∧
      (∀ k ∈ e.constants, guard = k.name ↔ k.name.toList.splitOn '_' =
        (IncludeGuard.parts d.scope d.name x.header).map IncludeGuard.encode) ∧
      (isIdentifier guard → ∃ e',
        ({ d with values := some (.names [guard]), storage := none } : Definition).check =
          .ok e') := by
  obtain ⟨vs, hrules, -⟩ := check_eq_ok_iff.mp h
  obtain ⟨rfl, he⟩ := Enumeration.valid_of_check h
  obtain ⟨files, hfiles⟩ := exists_generate h hx
  refine ⟨files, _, hfiles, Reading.guard?_of_generate hfiles, he.guard_ne_scope x.header,
    he.guard_eq_name_iff x.header,
    fun k _ => IncludeGuard.ofParts_eq_iff_splitOn (he.parts_ne_nil x.header), fun hguard => ?_⟩
  exact ⟨_, check_eq_ok_iff.mpr ⟨_, hrules.withConstant hguard, rfl⟩⟩

/-- A constant with the name of the guard. -/
def guardedConstant : Definition where
  name := "A"
  values := some (.names ["B", "A_hpp"])

lemma check_guardedConstant : guardedConstant.check =
    .ok ⟨guardedConstant, [⟨"B", .integer 0⟩, ⟨"A_hpp", .integer 1⟩]⟩ := by cbv

theorem guardedConstant_met :
    (∃ files, guardedConstant.generate {} = .ok files ∧
      Reading.guard? files.header = some "A_hpp") ∧
    ∃ files, colors.generate { header := "" } = .ok files ∧
      Reading.guard? files.header = some "Color" := by
  obtain ⟨files, guard, hfiles, hguard, -, -, hconstants, -⟩ :=
    Definition.guard_meets_iff check_guardedConstant (x := {}) (by decide)
  obtain ⟨files', guard', hfiles', hguard', -, htype, -⟩ :=
    Definition.guard_meets_iff check_colors (x := { header := "" }) (by decide)
  obtain rfl : guard = "A_hpp" :=
    (hconstants ⟨"A_hpp", .integer 1⟩ (by simp)).mpr (by decide)
  obtain rfl : guard' = "Color" := htype.mpr ⟨rfl, rfl, by simp [colors]⟩
  exact ⟨⟨files, hfiles, hguard⟩, files', hfiles', hguard'⟩

/-- So the macro can rewrite the header that defines it: here it takes away a constant, and where
there is no extension it takes away the type. -/
theorem guard_meets_declared_names :
    (∃ e files guard, guardedConstant.check = .ok e ∧ guardedConstant.generate {} = .ok files ∧
      Reading.guard? files.header = some guard ∧ guard ∈ e.constants.map Constant.name) ∧
    ∃ files, colors.generate { header := "" } = .ok files ∧
      Reading.guard? files.header = some colors.name := by
  obtain ⟨files, hfiles⟩ :=
    Definition.exists_generate check_guardedConstant (x := {}) (by decide)
  obtain ⟨files', hfiles'⟩ :=
    Definition.exists_generate check_colors (x := { header := "" }) (by decide)
  have hguard : IncludeGuard.ofParts [] "A" "hpp" = "A_hpp" := by decide
  have hguard' : IncludeGuard.ofParts [] "Color" "" = "Color" := by decide
  refine ⟨⟨_, files, "A_hpp", check_guardedConstant, hfiles, ?_, by simp⟩, files', hfiles', ?_⟩
  · rw [← hguard]
    exact Reading.guard?_of_generate hfiles
  · rw [Reading.guard?_of_generate hfiles']
    exact congrArg some hguard'

end EnumForge
