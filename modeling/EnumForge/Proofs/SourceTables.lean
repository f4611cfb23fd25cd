import EnumForge.Proofs.SourceParts

/-!
The three tables of a source file agree: the array of names, the array of entries that is sorted by
name, and the switch over the constants. They are read back from the text of the file, and going
from a constant to its name and on to a value, or the other way round, comes back to the start.
-/

namespace EnumForge

open Layout Reading

/-! ### Tables as they are read -/

/-- The tables of a source file with the sizes that are asserted. -/
structure SourceTables where
  names : List String
  namesSize : Nat
  entries : List (String × String)
  entriesSize : Nat
  cases : List (String × Nat)

namespace SourceTables

/-- The tables in the source file of an enumeration. -/
def read? (name source : String) : Option SourceTables := do
  let ls := bareLines source
  let (names, namesSize) ← array? "static std::string const" "names" ls
  let (entries, entriesSize) ← array? "Entry const" "by_name" ls
  return {
    names := ← names.mapM quoted?
    namesSize
    entries := ← entries.mapM namedPair?
    entriesSize
    cases := ← switch? name ls }

/-- What the look-up by place returns for the place that the switch has for a constant. -/
def nameOf? (t : SourceTables) (constant : String) : Option String := do
  t.names[← t.cases.lookup constant]?

/-- The value of the first entry whose name is not less, unless the entry is greater. -/
def valueOf? (t : SourceTables) (name : String) : Option String := do
  let (found, value) ← t.entries.find? fun entry => !Text.less entry.1 name
  if Text.less name found then none else some value

end SourceTables

/-- A constant spelled from the outermost scope. -/
def Definition.path (d : Definition) (constant : String) : String :=
  "::".intercalate ("" :: d.scope ++ [d.name, constant])

/-! ### Agreement -/

lemma qualify_eq_intercalate (scope : List String) (name constant : String) :
    qualify scope name ++ "::" ++ constant = "::".intercalate (scope ++ [name, constant]) := by
  induction scope with
  | nil => simp [qualify]
  | cons s rest ih =>
    have hne : rest ++ [name, constant] ≠ [] := by simp
    have hcons : qualify (s :: rest) name = s ++ "::" ++ qualify rest name := rfl
    rw [List.cons_append, String.intercalate_cons_of_ne_nil hne, ← ih, hcons]
    simp only [String.append_assoc]

/-- The type in front of a constant is the one of its path. -/
lemma globalName_append (d : Definition) (constant : String) :
    Generated.globalName d ++ "::" ++ constant = d.path constant := by
  have hne : d.scope ++ [d.name, constant] ≠ [] := by simp
  rw [Generated.globalName, Definition.qualifiedName, Definition.path, List.cons_append,
    String.intercalate_cons_of_ne_nil hne, ← qualify_eq_intercalate]
  simp only [String.append_assoc, String.empty_append]

namespace SourceTables

/-- The tables that a source file should hold for an enumeration. -/
def ofEnumeration (e : Enumeration) : SourceTables where
  names := e.constants.map Constant.name
  namesSize := e.constants.length
  entries := e.tables.byName.map fun c => (c.name, e.definition.path c.name)
  entriesSize := e.constants.length
  cases := e.constants.zipIdx.map fun (c, i) => (c.name, i)

lemma read?_layout {e : Enumeration} (he : e.Valid)
    (hcode : e.definition.implementationCode = none) (headerFile : String) :
    read? e.definition.name (Source.layout e.definition e.tables headerFile).text =
      some (ofEnumeration e) := by
  have hnames : ((e.constants.map fun c => "\x22" ++ c.name ++ "\x22").map String.toList).mapM
      quoted? = some (e.constants.map Constant.name) := by
    rw [List.map_map]
    exact mapM_map_eq_some fun c _ => quoted?_append c.name
  have hentries : ((e.tables.byName.map (Source.entry (Generated.globalName e.definition))).map
      String.toList).mapM namedPair? =
      some (e.tables.byName.map fun c => (c.name, e.definition.path c.name)) := by
    rw [List.map_map]
    refine mapM_map_eq_some fun c hc => ?_
    have hquote : '\x22' ∉ c.name.toList := Identifier.not_mem_of_isMark (by decide)
      (he.names c ((Lookup.perm_byName e.constants).mem_iff.mp hc))
    have hentry : Source.entry (Generated.globalName e.definition) c =
        "\x7b \x22" ++ c.name ++ "\x22, " ++ e.definition.path c.name ++ " \x7d" := by
      simp [Source.entry, ← globalName_append, toString, String.append_assoc]
    rw [Function.comp_apply, hentry]
    exact namedPair?_append hquote (e.definition.path c.name)
  rw [read?, Source.array?_names he hcode, Source.array?_entries he hcode,
    Source.switch?_cases he hcode]
  simp only [Option.bind_eq_bind, Option.bind_some, hnames, hentries]
  rfl

/-- The index that the first entry of a name carries leads back to the name. -/
lemma exists_lookup_zipIdx {ns : List String} {n : String} (h : n ∈ ns) (k : Nat) :
    ∃ i, (ns.zipIdx k).lookup n = some (k + i) ∧ ns[i]? = some n := by
  induction ns generalizing k with
  | nil => cases h
  | cons m ns ih =>
    by_cases heq : n = m
    · exact ⟨0, by simp [heq], by simp [heq]⟩
    · obtain ⟨i, hi, hn⟩ := ih ((List.mem_cons.mp h).resolve_left heq) (k + 1)
      refine ⟨i + 1, ?_, by simpa using hn⟩
      rw [List.zipIdx_cons, List.lookup_cons, beq_false_of_ne heq, hi]
      simp only [Option.some.injEq]
      omega

lemma nameOf?_ofEnumeration {e : Enumeration} {c : Constant} (hc : c ∈ e.constants) :
    (ofEnumeration e).nameOf? c.name = some c.name := by
  have hcases : (ofEnumeration e).cases = (e.constants.map Constant.name).zipIdx := by
    rw [List.zipIdx_map]
    rfl
  obtain ⟨i, hi, hname⟩ := exists_lookup_zipIdx (List.mem_map_of_mem (f := Constant.name) hc) 0
  rw [Nat.zero_add] at hi
  rw [nameOf?, hcases, hi]
  exact hname

/-- In entries that ascend strictly by name, the first one not less than a name is the name's own.
-/
lemma find?_not_less {entries : List (String × String)}
    (h : entries.Pairwise fun a b => Text.less a.1 b.1) {p : String × String} (hp : p ∈ entries) :
    entries.find? (fun q => !Text.less q.1 p.1) = some p := by
  induction entries with
  | nil => cases hp
  | cons q entries ih =>
    obtain ⟨hfirst, hrest⟩ := List.pairwise_cons.mp h
    rcases List.mem_cons.mp hp with rfl | hp
    · rw [List.find?_cons_of_pos (by simp [Text.less_irrefl])]
    · rw [List.find?_cons_of_neg (by simp [hfirst p hp]), ih hrest hp]

lemma valueOf?_ofEnumeration {e : Enumeration} (he : e.Valid) {c : Constant}
    (hc : c ∈ e.constants) :
    (ofEnumeration e).valueOf? c.name = some (e.definition.path c.name) := by
  have hsorted : (ofEnumeration e).entries.Pairwise fun a b => Text.less a.1 b.1 :=
    List.pairwise_map.mpr (Lookup.ascending_byName he.distinctNames)
  have hmem : (c.name, e.definition.path c.name) ∈ (ofEnumeration e).entries :=
    List.mem_map_of_mem (f := fun c => (c.name, e.definition.path c.name))
      ((Lookup.perm_byName e.constants).mem_iff.mpr hc)
  rw [valueOf?, find?_not_less hsorted hmem]
  simp [Text.less_irrefl]

end SourceTables

/-- **Agreement of the tables**: the names, the entries and the cases are read back from the source
file, and the code that returns a name by its place stands around the names. The names are in the
order of the constants, the entries ascend byte by byte and pair each name with its constant, the
cases return the places of the names, and each size is the number of constants. So a constant leads
to its name and the name to the constant, and the other way round. -/
theorem Definition.source_tables_agree {d : Definition} {e : Enumeration} (h : d.check = .ok e)
    (hcode : d.implementationCode = none) {x : Extensions}
    (hx : x.header ≠ x.source) :
    ∃ files t, e.render x = .ok files ∧ SourceTables.read? d.name files.source = some t ∧
      displayCode d.name t.names <:+: bareLines files.source ∧
      t.names = e.constants.map Constant.name ∧
      (t.entries.map Prod.fst).Perm t.names ∧ (t.entries.map Prod.fst).Nodup ∧
      (∀ n path, (n, path) ∈ t.entries → path = d.path n) ∧
      ((t.entries.map Prod.fst).Pairwise fun a b => Text.bytes a < Text.bytes b) ∧
      t.cases = e.constants.zipIdx.map (fun (c, i) => (c.name, i)) ∧
      t.namesSize = e.constants.length ∧ t.entriesSize = e.constants.length ∧
      (∀ c ∈ e.constants, ∃ n, t.nameOf? c.name = some n ∧ t.valueOf? n = some (d.path c.name)) ∧
      ∀ n ∈ t.names, ∃ c ∈ e.constants,
        t.valueOf? n = some (d.path c.name) ∧ t.nameOf? c.name = some n := by
  obtain ⟨rfl, he⟩ := Enumeration.valid_of_check h
  obtain ⟨files, hfiles, -, hsource⟩ := e.render_eq_ok hx
  have hread := SourceTables.read?_layout he hcode (x.headerFile e.definition.fileStem)
  have hnames : (SourceTables.ofEnumeration e).entries.map Prod.fst =
      e.tables.byName.map Constant.name := List.map_map
  have hperm : (e.tables.byName.map Constant.name).Perm (e.constants.map Constant.name) :=
    (Lookup.perm_byName e.constants).map Constant.name
  refine ⟨files, SourceTables.ofEnumeration e, hfiles, ?_, ?_, rfl, ?_, ?_, ?_, ?_, rfl, rfl, rfl,
    ?_, ?_⟩
  · rw [hsource]
    exact hread
  · rw [hsource]
    exact Source.displayCode_infix_bareLines he hcode _
  · rw [hnames]
    exact hperm
  · rw [hnames]
    exact hperm.nodup_iff.mpr he.distinctNames
  · intro n path hmem
    obtain ⟨c, -, heq⟩ := List.mem_map.mp hmem
    cases heq
    rfl
  · rw [hnames, List.pairwise_map]
    exact (Lookup.ascending_byName he.distinctNames).imp fun {a b} hless =>
      (Text.less_iff_lt a.name b.name).mp hless
  · exact fun c hc => ⟨c.name, SourceTables.nameOf?_ofEnumeration hc,
      SourceTables.valueOf?_ofEnumeration he hc⟩
  · intro n hn
    obtain ⟨c, hc, rfl⟩ := List.mem_map.mp hn
    exact ⟨c, hc, SourceTables.valueOf?_ofEnumeration he hc, SourceTables.nameOf?_ofEnumeration hc⟩

theorem separators_tables_agree :
    ∃ files t, separatorsEnumeration.render {} = .ok files ∧
      SourceTables.read? "Separator" files.source = some t ∧
      displayCode "Separator" ["BREAK", "QUOTE", "COMMA"] <:+: bareLines files.source ∧
      t.names = ["BREAK", "QUOTE", "COMMA"] ∧
      t.cases = [("BREAK", 0), ("QUOTE", 1), ("COMMA", 2)] ∧
      t.nameOf? "QUOTE" = some "QUOTE" ∧
      t.valueOf? "QUOTE" = some "::text::Separator::QUOTE" := by
  obtain ⟨files, t, hfiles, hread, hcode, hnames, -, -, -, -, hcases, -, -, hconstant, -⟩ :=
    Definition.source_tables_agree check_separators rfl (x := {}) (by decide)
  obtain ⟨n, hn, hvalue⟩ := hconstant ⟨"QUOTE", .char '\x27'⟩ (by decide)
  have hname : t.nameOf? "QUOTE" = some "QUOTE" := by
    rw [SourceTables.nameOf?, hcases, hnames]
    decide
  rw [hname, Option.some.injEq] at hn
  rw [hnames] at hcode
  exact ⟨files, t, hfiles, hread, hcode, hnames, hcases, hname, hn ▸ hvalue⟩

end EnumForge
