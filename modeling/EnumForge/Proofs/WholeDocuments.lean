import EnumForge.Document.Definitions
import EnumForge.Proofs.LocalReaders
import EnumForge.Proofs.RoundTrip

/-!
Documents are read as a whole. The readers of definitions are put together from local ones, and the
outermost record closes itself, so what stands behind it does not change how it is read: blanks are
passed over, and all else is refused at the root.
-/

namespace EnumForge.Document

open Text (Bytes)

/-! ### Values -/

lemma strict_readTextValue : Strict readTextValue := by
  refine .ofFirst (fun s => by simp only [readTextValue, skipBlanks_skipBlanks])
    (by rintro x t ⟨⟩) fun b hb => ?_
  simp only [readTextValue, hb]
  exact .ite local_readText (.error _)

lemma strict_readTexts : Strict readTexts := by
  refine .ofFirst (fun s => by simp only [readTexts, skipBlanks_skipBlanks])
    (by rintro x t ⟨⟩) fun b hb => ?_
  simp only [readTexts, hb]
  exact .ite (closed_readArray strict_readTextValue).local (.error _)

lemma strict_readOptional {α : Type} {value : Reader α} (h : Strict value) :
    Strict (readOptional value) := by
  refine .ofFirst (fun s => by simp only [readOptional, skipBlanks_skipBlanks])
    (fun x t hread => ?_) fun b hb => ?_
  · obtain ⟨⟨y, r⟩, hy, -⟩ := map_eq_ok_iff.mp hread
    exact h.nil y r hy
  · simp only [readOptional, hb]
    exact .ite (local_readWord _ _) (.map (h.cons b) some)

/-- The value of a member stands behind a colon. -/
lemma local_readMemberValue {α : Type} {value : Reader α} (h : Local value) (key : String) :
    Local (readMemberValue key value) := passes_readColon.local_bind (h.under (.key key))

lemma strict_readContent (depth : Nat) : Strict (readContent depth) := by
  induction depth with
  | zero =>
    refine .ofFirst (fun s => by simp only [readContent, skipBlanks_skipBlanks])
      (by rintro x t ⟨⟩) fun b hb => ?_
    simp only [readContent, hb]
    iterate 3 refine .ite (local_readWord _ _) ?_
    refine .ite (.map (strict_readNumeral.cons b) fun _ => Content.other) ?_
    exact .ite (.map local_readText Content.text) (.ite (.error _) (.ite (.error _) (.error _)))
  | succ depth ih =>
    refine .ofFirst (fun s => by simp only [readContent, skipBlanks_skipBlanks])
      (by rintro x t ⟨⟩) fun b hb => ?_
    simp only [readContent, hb]
    iterate 3 refine .ite (local_readWord _ _) ?_
    refine .ite (.map (strict_readNumeral.cons b) fun _ => Content.other) ?_
    refine .ite (.map local_readText Content.text) ?_
    refine .ite (.map (closed_readArray ih).local Content.array) (.ite ?_ (.error _))
    refine (passes_closeObject.closed (local_readMembers (fun _ key => ?_) ())
      fun _ => Content.other).local
    exact .bind (local_readMemberValue ih.local key) fun _ => .pure ()

lemma local_readScope (depth : Nat) : Local (readScope depth) := by
  refine .bind (strict_readContent depth).local fun content => ?_
  dsimp only
  cases content.scope? with
  | none => exact .error _
  | some segments => exact .pure segments

lemma strict_readWrittenValue : Strict readWrittenValue := by
  refine .ofFirst (fun s => by simp only [readWrittenValue, skipBlanks_skipBlanks])
    (by rintro x t ⟨⟩) fun b hb => ?_
  simp only [readWrittenValue, hb]
  refine .ite (fun s x t h => ?_) (.ite (.map local_readText WrittenValue.text)
    (.ite (.error _) (.ite (.error _) (.error _))))
  -- of the numbers only the integers are accepted
  split at h
  · cases h
  · next i r hnumeral =>
    cases h
    obtain ⟨u, rfl, hu⟩ := strict_readNumeral.cons b s _ _ hnumeral
    exact ⟨u, rfl, fun w hw => by simp only [hu w hw]⟩
  · cases h

lemma local_readPair (ps : List (String × WrittenValue)) (key : String) :
    Local (readPair ps key) :=
  .bind (local_readMemberValue strict_readWrittenValue.local key) fun v => .pure ((key, v) :: ps)

lemma strict_readWrittenValues : Strict readWrittenValues := by
  refine .ofFirst (fun s => by simp only [readWrittenValues, skipBlanks_skipBlanks])
    (by rintro x t ⟨⟩) fun b hb => ?_
  simp only [readWrittenValues, hb]
  refine .ite (.map local_readText fun t => WrittenValues.names [t])
    (.ite (.map (closed_readArray strict_readTextValue).local WrittenValues.names)
      (.ite ?_ (.error _)))
  exact (passes_closeObject.closed (local_readMembers local_readPair []) fun ps =>
    WrittenValues.mapping ps.reverse).local

/-! ### Definitions -/

lemma local_readField {α : Type} {value : Reader α} (h : Local value) (slot : Option α)
    (key : String) : Local (readField slot key value) :=
  .ite (.error _) (local_readMemberValue h key)

lemma local_readDefinitionMember (depth : Nat) (d : Draft) (key : String) :
    Local (readDefinitionMember depth d key) := by
  have htext := (strict_readOptional strict_readTextValue).local
  have htexts := strict_readTexts.local
  have hvalues := (strict_readOptional strict_readWrittenValues).local
  unfold readDefinitionMember
  extract_lets optionalText
  split
  · exact .map (local_readField strict_readTextValue.local _ _) fun x => { d with name := some x }
  · exact .map (local_readField (local_readScope depth) _ _) fun x => { d with scope := some x }
  · exact .map (local_readField htext _ _) fun x => { d with stem := some x }
  · exact .map (local_readField htext _ _) fun x => { d with storage := some x }
  · exact .map (local_readField hvalues _ _) fun x => { d with values := some x }
  · exact .map (local_readField htext _ _) fun x => { d with interfaceCode := some x }
  · exact .map (local_readField htext _ _) fun x => { d with implementationCode := some x }
  · exact .map (local_readField htexts _ _) fun x => { d with interfaceIncludes := some x }
  · exact .map (local_readField htexts _ _) fun x => { d with implementationIncludes := some x }
  · exact .under (.error _) _

lemma local_readElementOr {α : Type} {value : Reader α} (h : Local value) (index : Nat)
    (missing : α) : Local (readElementOr index missing value) := by
  refine .bind (local_nextElement _) fun more => ?_
  exact .ite (h.under _) (.pure missing)

lemma local_readDefinitionElements (depth : Nat) : Local (readDefinitionElements depth) := by
  have htext := (strict_readOptional strict_readTextValue).local
  have htexts := strict_readTexts.local
  have hvalues := (strict_readOptional strict_readWrittenValues).local
  unfold readDefinitionElements
  extract_lets optionalText
  refine Local.bind (local_readElementOr (.map strict_readTextValue.local some) 0 none)
    fun name => ?_
  cases name with
  | none => exact .error _
  | some name =>
    refine .bind (local_readElementOr (local_readScope depth) _ _) fun _ => ?_
    refine .bind (local_readElementOr htext _ _) fun _ => ?_
    refine .bind (local_readElementOr htext _ _) fun _ => ?_
    refine .bind (local_readElementOr hvalues _ _) fun _ => ?_
    refine .bind (local_readElementOr htext _ _) fun _ => ?_
    refine .bind (local_readElementOr htext _ _) fun _ => ?_
    refine .bind (local_readElementOr htexts _ _) fun _ => ?_
    exact .bind (local_readElementOr htexts _ _) fun _ => .pure _

lemma local_readDefinitionMembers (depth : Nat) : Local (readDefinitionMembers depth) := by
  refine .bind (local_readMembers (local_readDefinitionMember depth) {}) fun draft => ?_
  dsimp only
  cases draft.finish? with
  | none => exact .error _
  | some d => exact .pure d

/-! ### Records and files -/

lemma closed_inRecord {α : Type} {body : Reader α} (hbody : Local body)
    {close : Bytes → Except Fault Bytes} {b : UInt8} (hclose : Passes close b)
    (leave : Bytes → Bytes) : Closed (inRecord body close leave) :=
  hclose.closed (hbody.mapError _) id

lemma closed_readRecord {α : Type} (wanted : Wanted) {elements members : Reader α}
    (helements : Local elements) (hmembers : Local members) :
    Closed (readRecord wanted elements members) := by
  refine .ofFirst (fun s => by simp only [readRecord, skipBlanks_skipBlanks])
    (by rintro x t ⟨⟩) fun b hb => ?_
  simp only [readRecord, hb]
  exact .ite (closed_inRecord helements passes_closeArray _)
    (.ite (closed_inRecord hmembers passes_closeObject _) (.error _))

lemma strict_readDefinition (depth : Nat) : Strict (readDefinition depth) :=
  (closed_readRecord .definition (local_readDefinitionElements _)
    (local_readDefinitionMembers _)).strict (by rintro x t ⟨⟩)

lemma strict_readDefinitions (depth : Nat) : Strict (readDefinitions depth) := by
  refine .ofFirst (fun s => by simp only [readDefinitions, skipBlanks_skipBlanks])
    (by rintro x t ⟨⟩) fun b hb => ?_
  simp only [readDefinitions, hb]
  exact .ite (closed_readArray (strict_readDefinition _)).local (.error _)

lemma local_readFileMember (depth : Nat) (ds : Option (List Definition)) (key : String) :
    Local (readFileMember depth ds key) :=
  .ite (.map (local_readField (strict_readDefinitions depth).local ds key) some)
    (.under (.error _) _)

lemma closed_readFile (depth : Nat) : Closed (readFile depth) := by
  refine closed_readRecord .file (local_readElementOr (strict_readDefinitions _).local _ _) ?_
  exact .bind (local_readMembers (local_readFileMember _) none) fun ds => .pure (ds.getD [])

/-! ### Whole documents -/

section

variable {α : Type} {value : Reader α} {document rest : Bytes} {x : α}

lemma parse_eq_ok_iff : parse value document = .ok x ↔
    ∃ rest, value document = .ok (x, rest) ∧ skipBlanks rest = [] := by
  rw [parse, mapError_eq_ok_iff, bind_eq_ok]
  constructor
  · rintro ⟨⟨y, rest⟩, hread, h⟩
    dsimp only at h
    split at h
    · next hrest =>
      cases h
      exact ⟨rest, hread, List.isEmpty_iff.mp hrest⟩
    · cases h
  · rintro ⟨rest, hread, hrest⟩
    exact ⟨(x, rest), hread, if_pos (List.isEmpty_iff.mpr hrest)⟩

/-- Something stands behind the value. -/
lemma parse_of_skipBlanks_ne_nil (hread : value document = .ok (x, rest))
    (hrest : skipBlanks rest ≠ []) : parse value document =
      .error ((Fault.before .trailingCharacters (skipBlanks rest)).report document) := by
  have hempty : ¬ (skipBlanks rest).isEmpty := fun h => hrest (List.isEmpty_iff.mp h)
  simp only [parse, hread, bind, Except.bind, if_neg hempty, Except.mapError]

end

lemma skipBlanks_eq_nil_iff {s : Bytes} : skipBlanks s = [] ↔ ∀ b ∈ s, isBlank b :=
  List.dropWhile_eq_nil_iff

/-- **Whole documents**: what is written behind a document is passed over if it is blank and refused
at the root otherwise. For a document that is read is one value up to the blanks behind it, and this
value is read in the same way whatever stands there. -/
theorem parseDefinitions_append {document : Bytes} {ds : List Definition}
    (h : parseDefinitions document = .ok ds) :
    (∀ w : Bytes, (∀ b ∈ w, isBlank b) → parseDefinitions (document ++ w) = .ok ds) ∧
      (∀ w : Bytes, (¬ ∀ b ∈ w, isBlank b) → ∃ place, parseDefinitions (document ++ w) =
        .error ⟨".", Cause.trailingCharacters.message ++ place⟩) ∧
      ∃ value blanks : Bytes, document = value ++ blanks ∧ (∀ b ∈ blanks, isBlank b) ∧
        ∀ rest, readFile greatestDepth (value ++ rest) = .ok (ds, rest) := by
  obtain ⟨blanks, hread, hblanks⟩ := parse_eq_ok_iff.mp h
  obtain ⟨value, rfl, hvalue⟩ := closed_readFile greatestDepth document ds blanks hread
  have hrest (w : Bytes) : skipBlanks (blanks ++ w) = skipBlanks w :=
    List.dropWhile_append_of_pos (skipBlanks_eq_nil_iff.mp hblanks)
  refine ⟨fun w hw => ?_, fun w hw => ?_, value, blanks, rfl, skipBlanks_eq_nil_iff.mp hblanks,
    hvalue⟩
  · rw [List.append_assoc]
    exact parse_eq_ok_iff.mpr
      ⟨blanks ++ w, hvalue _, (hrest w).trans (skipBlanks_eq_nil_iff.mpr hw)⟩
  · have hne : skipBlanks (blanks ++ w) ≠ [] := by
      rw [hrest]
      exact fun hnil => hw (skipBlanks_eq_nil_iff.mp hnil)
    rw [List.append_assoc, parseDefinitions, parse_of_skipBlanks_ne_nil (hvalue _) hne]
    exact ⟨_, rfl⟩

/-- A document with escapes in it and a blank behind it. -/
def escapedDocument : Bytes := Text.bytes "\x7b\x22enums\x22:[[\x22\\u0045\\n\x22]]\x7d\n"

theorem escapedDocument_append :
    parseDefinitions escapedDocument = .ok [{ name := "E\n" }] ∧
      parseDefinitions (escapedDocument ++ [0x09, 0x20]) = .ok [{ name := "E\n" }] ∧
      ∃ place, parseDefinitions (escapedDocument ++ [0x20, 0xff]) =
        .error ⟨".", Cause.trailingCharacters.message ++ place⟩ := by
  have h : parseDefinitions escapedDocument = .ok [{ name := "E\n" }] := by decide +kernel
  obtain ⟨hblank, hother, -⟩ := parseDefinitions_append h
  exact ⟨h, hblank _ (by decide +kernel), hother _ (by decide +kernel)⟩

end EnumForge.Document
