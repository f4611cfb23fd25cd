import EnumForge.Document.Definitions
import EnumForge.Proofs.DocumentReading

/-!
Definition documents are read back. Every reader of a part gives back what the printer wrote for it;
the fields of a definition fill a draft one after another, and the draft is finished as the
definition that was written.
-/

namespace EnumForge

/-- A number fits 64 bits, with a sign or without. -/
def WrittenValue.FitsDocument : WrittenValue → Prop
  | integer i => -(2 ^ 63) ≤ i ∧ i < 2 ^ 64
  | text _ => True

instance (v : WrittenValue) : Decidable v.FitsDocument :=
  match v with
  | .integer i => inferInstanceAs (Decidable (-(2 ^ 63) ≤ i ∧ i < 2 ^ 64))
  | .text _ => inferInstanceAs (Decidable True)

/-- Every number in a mapping fits. -/
def Definition.FitsDocument (d : Definition) : Prop :=
  ∀ ps, d.values = some (.mapping ps) → ∀ p ∈ ps, p.2.FitsDocument

namespace Document

open Text (Bytes)

/-! ### Values -/

lemma writeText_append (t : String) (s : Bytes) :
    writeText t ++ s =
      ascii '\x22' :: (t.toList.flatMap writeChar ++ ascii '\x22' :: s) := by
  simp [writeText]

lemma writeArray_append (ws : List Bytes) (s : Bytes) :
    writeArray ws ++ s = ascii '[' :: (separated ws ++ ascii ']' :: s) := by
  simp [writeArray]

lemma writeObject_append (ms : List (String × Bytes)) (s : Bytes) :
    writeObject ms ++ s =
      ascii '\x7b' :: (separated (ms.map writeMember) ++ ascii '\x7d' :: s) := by
  simp [writeObject]

lemma reads_text (t : String) : Reads readTextValue (writeText t) t where
  begins := ⟨_, _, rfl, rfl⟩
  read s _ := by
    rw [writeText_append]
    exact readText_written t s

lemma reads_texts (ts : List String) : Reads readTexts (writeTexts ts) ts where
  begins := ⟨_, _, rfl, rfl⟩
  read s _ := by
    rw [writeTexts, writeArray_append]
    exact readArray_map_write (fun t _ => reads_text t) s

lemma reads_optional {α : Type} {value : Reader α} {w : Bytes} {x : α} (h : Reads value w x) :
    Reads (readOptional value) w (some x) where
  begins := h.begins
  read s hs := by
    have hread := h.read s hs
    obtain ⟨b, r, rfl, hb⟩ := h.begins
    have hnull : b ≠ ascii 'n' := by rintro rfl; cases hb
    rw [List.cons_append] at hread ⊢
    simp only [readOptional, skipBlanks_of_opensValue hb, if_neg hnull, hread]
    rfl

lemma reads_textContent (depth : Nat) (t : String) :
    Reads (readContent depth) (writeText t) (.text t) where
  begins := ⟨_, _, rfl, rfl⟩
  read s _ := by
    rw [writeText_append]
    cases depth
    all_goals
      change (readText _).map _ = _
      rw [readText_written]
      rfl

lemma texts?_map_text (ts : List String) : Content.texts? (ts.map .text) = some ts := by
  induction ts with
  | nil => rfl
  | cons t ts ih =>
    rw [List.map_cons, Content.texts?, ih]
    rfl

lemma reads_scope (depth : Nat) (segments : List String) :
    Reads (readScope (depth + 1)) (writeTexts segments) segments where
  begins := ⟨_, _, rfl, rfl⟩
  read s _ := by
    have harray : readContent (depth + 1) (writeTexts segments ++ s) =
        .ok (.array (segments.map .text), s) := by
      rw [writeTexts, writeArray_append]
      change (readArray (readContent depth) _).map _ = _
      rw [readArray_map (fun t (_ : t ∈ segments) => reads_textContent depth t) s]
      rfl
    simp only [readScope, harray, bind, Except.bind, Content.scope?, texts?_map_text]

/-! ### Values of constants -/

lemma exists_bytes_toString_eq_cons (i : Int) :
    ∃ b r, Text.bytes (toString i) = b :: r ∧ (b = ascii '-' || Numeral.isDigit b) := by
  rcases Int.lt_or_le i 0 with hneg | hpos
  · exact ⟨_, _, bytes_toString_of_neg hneg, rfl⟩
  · obtain ⟨b, r, hdigits, hb⟩ := exists_digits_eq_cons i.toNat
    exact ⟨b, r, by rw [bytes_toString_of_nonneg hpos, hdigits], by simp [hb]⟩

lemma reads_writtenValue {v : WrittenValue} (h : v.FitsDocument) :
    Reads readWrittenValue (writeWrittenValue v) v := by
  cases v with
  | text t =>
    refine ⟨⟨_, _, rfl, rfl⟩, fun s _ => ?_⟩
    rw [writeWrittenValue, writeText_append]
    change (readText _).map _ = _
    rw [readText_written]
    rfl
  | integer i =>
    obtain ⟨b, r, hbytes, hb⟩ := exists_bytes_toString_eq_cons i
    have hopens : opensValue b := by
      rcases (by simpa using hb : b = ascii '-' ∨ Numeral.isDigit b) with rfl | hdigit
      · rfl
      · simp [opensValue, hdigit]
    refine ⟨⟨b, r, hbytes, hopens⟩, fun s hs => ?_⟩
    have hread := readNumeral_written h.1 h.2 hs
    rw [writeWrittenValue]
    rw [hbytes, List.cons_append] at hread ⊢
    simp only [readWrittenValue, skipBlanks_of_opensValue hopens, if_pos hb, hread]

/-- A member of a mapping, as it is read behind others. -/
def readPair (ps : List (String × WrittenValue)) (key : String) :
    Reader (List (String × WrittenValue)) := fun s => do
  let (v, s) ← readMemberValue key readWrittenValue s
  return ((key, v) :: ps, s)

lemma readWrittenValues_brace (r : Bytes) :
    readWrittenValues (ascii '\x7b' :: r) = do
      let (ps, s) ← readMembers readPair [] r
      return (.mapping ps.reverse, ← closeObject s) := rfl

lemma leads_pairs {ps : List (String × WrittenValue)} (h : ∀ p ∈ ps, p.2.FitsDocument)
    (done : List (String × WrittenValue)) :
    Leads readPair (ps.map fun (n, v) => (n, writeWrittenValue v)) done (ps.reverse ++ done) := by
  induction ps generalizing done with
  | nil => exact .nil done
  | cons p ps ih =>
    obtain ⟨n, v⟩ := p
    rw [List.forall_mem_cons] at h
    rw [List.reverse_cons, List.append_assoc, List.singleton_append]
    refine .cons (fun s hs => ?_) (ih h.2 _)
    rw [readPair, readMemberValue_written (reads_writtenValue h.1) n hs]
    rfl

lemma reads_writtenValues {vs : WrittenValues}
    (h : ∀ ps, vs = .mapping ps → ∀ p ∈ ps, p.2.FitsDocument) :
    Reads readWrittenValues (writeWrittenValues vs) vs := by
  cases vs with
  | names ns =>
    refine ⟨⟨_, _, rfl, rfl⟩, fun s _ => ?_⟩
    rw [writeWrittenValues, writeTexts, writeArray_append]
    change (readArray readTextValue _).map _ = _
    rw [readArray_map_write fun t _ => reads_text t]
    rfl
  | mapping ps =>
    refine ⟨⟨_, _, rfl, rfl⟩, fun s _ => ?_⟩
    have hread := readMembers_written (leads_pairs (h ps rfl) []) s
    rw [writeWrittenValues, writeObject_append, readWrittenValues_brace, hread]
    simp only [bind, Except.bind, closeObject_brace, List.append_nil, List.reverse_reverse]
    rfl

/-! ### Definitions -/

section

variable (depth : Nat) {α : Type} {value : Reader α}

/-- A field that has not been read yet. -/
lemma leads_field (start : Draft) (key : String) (f : α → Draft) {w : Bytes} {x : α}
    (h : Reads value w x) (hmember : ∀ s, readDefinitionMember depth start key s =
      (readField none key value s).map fun (x, s) => (f x, s)) :
    Leads (readDefinitionMember depth) [(key, w)] start (f x) := by
  refine .cons (fun s hs => ?_) (.nil _)
  have hfree : readField none key value (ascii ':' :: w ++ s) = .ok (x, s) :=
    readMemberValue_written h key hs
  rw [hmember, hfree]
  rfl

/-- A field that may be missing. -/
lemma leads_optionalField (key : String) (f : Option (Option α) → Draft) {write : α → Bytes}
    {x : Option α} (h : ∀ a ∈ x, Reads value (write a) a)
    (hmember : ∀ s, readDefinitionMember depth (f none) key s =
      (readField none key (readOptional value) s).map fun (x, s) => (f (some x), s)) :
    Leads (readDefinitionMember depth) (optionalField key write x) (f none) (f (x.map some)) := by
  cases x with
  | none => exact .nil _
  | some a =>
    refine .cons (fun s hs => ?_) (.nil _)
    have hfree : readField none key (readOptional value) (ascii ':' :: write a ++ s) =
        .ok (some a, s) := readMemberValue_written (reads_optional (h a rfl)) key hs
    rw [hmember, hfree]
    rfl

end

/-- All fields of a definition. -/
def Draft.ofDefinition (d : Definition) : Draft where
  name := some d.name
  scope := some d.scope
  stem := d.stem.map some
  storage := d.storage.map some
  values := d.values.map some
  interfaceCode := d.interfaceCode.map some
  implementationCode := d.implementationCode.map some
  interfaceIncludes := some d.interfaceIncludes
  implementationIncludes := some d.implementationIncludes

lemma Draft.finish?_ofDefinition (d : Definition) : (ofDefinition d).finish? = some d := by
  have hmap {α : Type} (x : Option α) : (x.map some).getD none = x := by cases x <;> rfl
  simp [finish?, ofDefinition, hmap]

/-- The fields fill the draft one after another. -/
lemma leads_fields {d : Definition} (hd : d.FitsDocument) (depth : Nat) :
    Leads (readDefinitionMember (depth + 1)) (fields d) {} (Draft.ofDefinition d) := by
  have hvalues : ∀ vs ∈ d.values, Reads readWrittenValues (writeWrittenValues vs) vs := by
    intro vs hvs
    refine reads_writtenValues fun ps hps => hd ps ?_
    rw [← hps]
    exact hvs
  have hname := leads_field (depth + 1) {} "name" (fun x => { name := some x })
    (reads_text d.name) fun _ => rfl
  have hscope := leads_field (depth + 1) { name := some d.name } "namespace"
    (fun x => { name := some d.name, scope := some x }) (reads_scope depth d.scope) fun _ => rfl
  have hstem := leads_optionalField (depth + 1) "file"
    (fun x => { name := some d.name, scope := some d.scope, stem := x })
    (fun t (_ : t ∈ d.stem) => reads_text t) fun _ => rfl
  have hstorage := leads_optionalField (depth + 1) "storage"
    (fun x => { Draft.ofDefinition d with
      storage := x, values := none, interfaceCode := none, implementationCode := none,
      interfaceIncludes := none, implementationIncludes := none })
    (fun t (_ : t ∈ d.storage) => reads_text t) fun _ => rfl
  have hvalues := leads_optionalField (depth + 1) "values"
    (fun x => { Draft.ofDefinition d with
      values := x, interfaceCode := none, implementationCode := none,
      interfaceIncludes := none, implementationIncludes := none })
    hvalues fun _ => rfl
  have hinterfaceCode := leads_optionalField (depth + 1) "interface_code"
    (fun x => { Draft.ofDefinition d with
      interfaceCode := x, implementationCode := none,
      interfaceIncludes := none, implementationIncludes := none })
    (fun t (_ : t ∈ d.interfaceCode) => reads_text t) fun _ => rfl
  have himplementationCode := leads_optionalField (depth + 1) "implementation_code"
    (fun x => { Draft.ofDefinition d with
      implementationCode := x, interfaceIncludes := none, implementationIncludes := none })
    (fun t (_ : t ∈ d.implementationCode) => reads_text t) fun _ => rfl
  have hinterfaceIncludes := leads_field (depth + 1)
    { Draft.ofDefinition d with interfaceIncludes := none, implementationIncludes := none }
    "interface_includes"
    (fun x => { Draft.ofDefinition d with
      interfaceIncludes := some x, implementationIncludes := none })
    (reads_texts d.interfaceIncludes) fun _ => rfl
  have himplementationIncludes := leads_field (depth + 1)
    { Draft.ofDefinition d with implementationIncludes := none } "implementation_includes"
    (fun x => { Draft.ofDefinition d with implementationIncludes := some x })
    (reads_texts d.implementationIncludes) fun _ => rfl
  exact hname.append hscope |>.append hstem |>.append hstorage |>.append hvalues
    |>.append hinterfaceCode |>.append himplementationCode
    |>.append (hinterfaceIncludes.append himplementationIncludes)

/-! ### Documents -/

lemma readRecord_brace {α : Type} (wanted : Wanted) (elements members : Reader α) (r : Bytes) :
    readRecord wanted elements members (ascii '\x7b' :: r) =
      inRecord members closeObject leaveObject r := rfl

lemma reads_definition {d : Definition} (hd : d.FitsDocument) (depth : Nat) :
    Reads (readDefinition (depth + 2)) (writeDefinition d) d where
  begins := ⟨_, _, rfl, rfl⟩
  read s _ := by
    rw [writeDefinition, writeObject_append, readDefinition, readRecord_brace]
    have hdepth : depth + 2 - 1 = depth + 1 := rfl
    simp only [hdepth, inRecord, readDefinitionMembers, readMembers_written (leads_fields hd depth),
      bind, Except.bind, Draft.finish?_ofDefinition, Except.mapError, closeObject_brace]
    rfl

lemma reads_definitions {ds : List Definition} (h : ∀ d ∈ ds, d.FitsDocument) (depth : Nat) :
    Reads (readDefinitions (depth + 3)) (writeArray (ds.map writeDefinition)) ds where
  begins := ⟨_, _, rfl, rfl⟩
  read s _ := by
    have hbracket (r : Bytes) : readDefinitions (depth + 3) (ascii '[' :: r) =
        readArray (readDefinition (depth + 2)) r := rfl
    rw [writeArray_append, hbracket]
    exact readArray_map_write (fun d hd => reads_definition (h d hd) depth) s

lemma reads_file {ds : List Definition} (h : ∀ d ∈ ds, d.FitsDocument) :
    Reads (readFile greatestDepth) (writeDefinitions ds) ds where
  begins := ⟨_, _, rfl, rfl⟩
  read s _ := by
    have hmember : Leads (readFileMember (greatestDepth - 1))
        [("enums", writeArray (ds.map writeDefinition))] none (some ds) := by
      refine .cons (fun s hs => ?_) (.nil _)
      have hfield : readField none "enums" (readDefinitions (greatestDepth - 1))
          (ascii ':' :: writeArray (ds.map writeDefinition) ++ s) = .ok (ds, s) :=
        readMemberValue_written (reads_definitions h 123) "enums" hs
      rw [readFileMember, if_pos rfl, hfield]
      rfl
    rw [writeDefinitions, writeObject_append, readFile, readRecord_brace]
    simp only [inRecord, readMembers_written hmember, bind, Except.bind, pure, Except.pure,
      Except.mapError, closeObject_brace, Option.getD_some]

/-- **Documents**: every list of definitions whose numbers fit 64 bits is read back from its
document, whatever its texts are and however often the keys of a mapping are repeated. -/
theorem parseDefinitions_writeDefinitions {ds : List Definition} (h : ∀ d ∈ ds, d.FitsDocument) :
    parseDefinitions (writeDefinitions ds) = .ok ds := by
  have hread := (reads_file h).read [] follows_nil
  rw [List.append_nil] at hread
  have hend : skipBlanks [] = [] := rfl
  simp only [parseDefinitions, parse, hread, bind, Except.bind, hend, List.isEmpty_nil, if_true,
    Except.mapError]

/-- A repeated key, the least and the greatest number, characters of every kind, and definitions
with little in them. -/
def extremeDefinitions : List Definition := [
  { name := "\x22\\/\x00\n\x7f é✓😀"
    scope := ["", "a::b"]
    stem := some ""
    values := some (.mapping [("K", .integer (-9223372036854775808)), ("K", .text "\x1f"),
      ("K", .integer 18446744073709551615), ("", .integer 0)])
    implementationCode := some "null"
    implementationIncludes := ["", "<a,b>"] },
  { name := "" },
  { name := "Names", values := some (.names []), storage := some "int", interfaceCode := some "" }]

theorem extremeDefinitions_read_back :
    (∀ d ∈ extremeDefinitions, d.FitsDocument) ∧
      parseDefinitions (writeDefinitions extremeDefinitions) = .ok extremeDefinitions := by
  have hfits : ∀ d ∈ extremeDefinitions, d.FitsDocument := by
    rw [extremeDefinitions, List.forall_mem_cons, List.forall_mem_cons, List.forall_mem_singleton]
    refine ⟨?_, ?_, ?_⟩
    · rintro ps ⟨⟩
      decide
    · rintro ps ⟨⟩
    · rintro ps ⟨⟩
  exact ⟨hfits, parseDefinitions_writeDefinitions hfits⟩

end Document

end EnumForge
