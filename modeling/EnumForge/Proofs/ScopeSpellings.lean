import EnumForge.Proofs.WholeDocuments

/-!
The two spellings of a scope: a list of its segments, and one text that joins them by double
colons. If no segment holds a colon, cutting the joined text gives back the segments, so a
definition is read in the same way from both spellings, wherever its scope stands among its members.
By the same argument a qualified name has one scope and one name.
-/

namespace EnumForge

open Text (Bytes)

/-! ### Joined texts -/

namespace Document

lemma splitColons_cons {c : Char} (hc : c ≠ ':') (cs : List Char) :
    splitColons (c :: cs) = match splitColons cs with
      | [] => [[c]]
      | part :: parts => (c :: part) :: parts :=
  splitColons.eq_3 c cs fun _ h => absurd h hc

section

variable {cs : List Char} (h : ':' ∉ cs)

include h

lemma splitColons_of_not_mem : splitColons cs = [cs] := by
  induction cs with
  | nil => rfl
  | cons c cs ih =>
    rw [List.mem_cons, not_or] at h
    rw [splitColons_cons (Ne.symm h.1), ih h.2]

lemma splitColons_append (rest : List Char) :
    splitColons (cs ++ ':' :: ':' :: rest) = cs :: splitColons rest := by
  induction cs with
  | nil => rw [List.nil_append, splitColons]
  | cons c cs ih =>
    rw [List.mem_cons, not_or] at h
    rw [List.cons_append, splitColons_cons (Ne.symm h.1), ih h.2]

end

/-- Cutting undoes joining. -/
lemma splitColons_intercalate {parts : List (List Char)} (hne : parts ≠ [])
    (h : ∀ p ∈ parts, ':' ∉ p) : splitColons ([':', ':'].intercalate parts) = parts := by
  induction parts with
  | nil => exact absurd rfl hne
  | cons p parts ih =>
    rw [List.forall_mem_cons] at h
    cases parts with
    | nil => rw [List.intercalate_singleton, splitColons_of_not_mem h.1]
    | cons q parts =>
      rw [List.intercalate_cons_cons, List.append_assoc]
      exact (splitColons_append h.1 _).trans (congrArg (p :: ·) (ih (by simp) h.2))

section

variable {texts : List String} (hne : texts ≠ []) (hcolon : ∀ t ∈ texts, ':' ∉ t.toList)

include hne hcolon

lemma splitColons_join : (splitColons ("::".intercalate texts).toList).map .ofList = texts := by
  have hparts : splitColons ([':', ':'].intercalate (texts.map String.toList)) =
      texts.map String.toList :=
    splitColons_intercalate (by simpa using hne) (List.forall_mem_map.mpr hcolon)
  have hlist : ("::".intercalate texts).toList = [':', ':'].intercalate (texts.map String.toList) :=
    String.toList_intercalate
  rw [hlist, hparts, List.map_map]
  exact List.map_id'' (fun t => String.ofList_toList) texts

/-- The empty text is no segment, so a scope that is spelled by it has to be left out. -/
lemma scope?_join (hempty : texts ≠ [""]) :
    (Content.text ("::".intercalate texts)).scope? = some texts := by
  have hjoin := splitColons_join hne hcolon
  have hnonempty : ¬ ("::".intercalate texts).isEmpty := by
    rw [String.isEmpty_iff]
    intro h
    rw [h] at hjoin
    exact hempty hjoin.symm
  rw [Content.scope?, if_neg hnonempty, hjoin]

end

end Document

/-! ### Qualified names -/

lemma qualify_eq_join (scope : List String) (name : String) :
    qualify scope name = "::".intercalate (scope ++ [name]) := by
  induction scope with
  | nil => simp [qualify]
  | cons s rest ih =>
    have hcons : qualify (s :: rest) name = s ++ "::" ++ qualify rest name := rfl
    rw [List.cons_append, String.intercalate_cons_of_ne_nil (by simp), ← ih, hcons]

lemma qualify_injective {scope scope' : List String} {name name' : String}
    (h : ∀ t ∈ scope ++ [name], ':' ∉ t.toList) (h' : ∀ t ∈ scope' ++ [name'], ':' ∉ t.toList)
    (heq : qualify scope name = qualify scope' name') : scope = scope' ∧ name = name' := by
  rw [qualify_eq_join, qualify_eq_join] at heq
  have hlists : scope ++ [name] = scope' ++ [name'] := by
    rw [← Document.splitColons_join (by simp) h, heq, Document.splitColons_join (by simp) h']
  obtain ⟨hscope, hname⟩ := List.append_inj' hlists rfl
  exact ⟨hscope, List.singleton_inj.mp hname⟩

namespace Document

/-! ### Both spellings -/

lemma readTextValue_eq_ok_iff {s r : Bytes} {t : String} : readTextValue s = .ok (t, r) ↔
    ∃ q, skipBlanks s = ascii '\x22' :: q ∧ readText q = .ok (t, r) := by
  unfold readTextValue
  grind

lemma readTexts_eq_ok_iff {s r : Bytes} {ts : List String} : readTexts s = .ok (ts, r) ↔
    ∃ q, skipBlanks s = ascii '[' :: q ∧ readArray readTextValue q = .ok (ts, r) := by
  unfold readTexts
  grind

section

variable {α β : Type} {element : Reader α} {element' : Reader β} {view : α → β}
  (h : ∀ s x r, element s = .ok (x, r) → element' s = .ok (view x, r))

include h

/-- Elements may be read by a reader that sees more in them. -/
lemma readElements_map {most index : Nat} {done xs : List α} {s t : Bytes}
    (hread : readElements element most done index s = .ok (xs, t)) :
    readElements element' most (done.map view) index s = .ok (xs.map view, t) := by
  induction most generalizing index done s with
  | zero => cases hread
  | succ most ih =>
    rw [readElements] at hread
    split at hread
    · cases hread
    · next r hnext =>
      cases hread
      simp only [readElements, hnext, List.map_reverse]
    · next r hnext =>
      split at hread
      · cases hread
      · next x r' helement =>
        have helement' := h r x r' (mapError_eq_ok_iff.mp helement)
        simp only [readElements, hnext, helement', under, Except.mapError]
        exact ih hread

lemma readArray_map_view {xs : List α} {s r : Bytes} (hread : readArray element s = .ok (xs, r)) :
    readArray element' s = .ok (xs.map view, r) := by
  obtain ⟨⟨ys, t⟩, helements, hclose⟩ := bind_eq_ok.mp hread
  obtain ⟨r', hclose, heq⟩ := bind_eq_ok.mp hclose
  cases heq
  have hmap := readElements_map h helements
  rw [List.map_nil] at hmap
  simp only [readArray, hmap, hclose, bind, Except.bind]
  rfl

end

lemma readContent_of_readTextValue {s r : Bytes} {t : String}
    (h : readTextValue s = .ok (t, r)) (depth : Nat) :
    readContent depth s = .ok (.text t, r) := by
  obtain ⟨q, hs, hq⟩ := readTextValue_eq_ok_iff.mp h
  have hquote : readContent depth s = (readText q).map fun p => (.text p.1, p.2) := by
    cases depth
    all_goals
      rw [readContent, hs]
      rfl
  rw [hquote, hq]
  rfl

lemma readContent_of_readTexts {s r : Bytes} {ts : List String}
    (h : readTexts s = .ok (ts, r)) (depth : Nat) :
    readContent (depth + 1) s = .ok (.array (ts.map .text), r) := by
  obtain ⟨q, hs, hq⟩ := readTexts_eq_ok_iff.mp h
  have hbracket : readContent (depth + 1) s =
      (readArray (readContent depth) q).map fun p => (.array p.1, p.2) := by
    rw [readContent, hs]
    rfl
  rw [hbracket, readArray_map_view (fun s x r hx => readContent_of_readTextValue hx depth) hq]
  rfl

section

variable {texts : List String} {s r : Bytes}

lemma readScope_of_readTexts (h : readTexts s = .ok (texts, r)) (depth : Nat) :
    readScope (depth + 1) s = .ok (texts, r) := by
  simp only [readScope, readContent_of_readTexts h, bind, Except.bind, Content.scope?,
    texts?_map_text]

lemma readScope_of_join (hne : texts ≠ []) (hcolon : ∀ t ∈ texts, ':' ∉ t.toList)
    (hempty : texts ≠ [""]) (h : readTextValue s = .ok ("::".intercalate texts, r)) (depth : Nat) :
    readScope depth s = .ok (texts, r) := by
  simp only [readScope, readContent_of_readTextValue h, bind, Except.bind,
    scope?_join hne hcolon hempty]

lemma readScope_of_empty (h : readTextValue s = .ok ("", r)) (depth : Nat) :
    readScope depth s = .ok ([], r) := by
  simp only [readScope, readContent_of_readTextValue h, bind, Except.bind]
  rfl

end

/-! ### The place of the scope -/

/-- Reading the members of a definition from a place on comes to the value of its scope at `v`, with
`d` read until then. -/
inductive ScopeAt (depth : Nat) (v : Bytes) (d : Draft) : Bool → Draft → Bytes → Prop
  | here {first : Bool} {s r : Bytes} (hkey : nextKey first s = .ok (some "namespace", r))
      (hcolon : readColon r = .ok v) : ScopeAt depth v d first d s
  | behind {first : Bool} {start next : Draft} {s r t : Bytes} {key : String}
      (hkey : nextKey first s = .ok (some key, r)) (hother : key ≠ "namespace")
      (hmember : readDefinitionMember depth start key r = .ok (next, t))
      (rest : ScopeAt depth v d false next t) : ScopeAt depth v d first start s

/-- A scope is read once and kept. -/
lemma scope_of_readDefinitionMember {depth : Nat} {start next : Draft} {key : String} {s t : Bytes}
    (h : readDefinitionMember depth start key s = .ok (next, t)) :
    (key = "namespace" ∧ start.scope = none) ∨ next.scope = start.scope := by
  unfold readDefinitionMember at h
  dsimp only at h
  split at h
  case h_2 =>
    refine .inl ⟨rfl, ?_⟩
    obtain ⟨x, hx, -⟩ := map_eq_ok_iff.mp h
    rw [readField] at hx
    split at hx
    · cases hx
    · next hfree => simpa using hfree
  case h_10 => cases h
  all_goals
    obtain ⟨x, -, heq⟩ := map_eq_ok_iff.mp h
    cases heq
    exact .inr rfl

lemma scope_of_readFurtherMembers {depth most : Nat} {first : Bool} {start last : Draft}
    {s t : Bytes} {segments : List String} (hscope : start.scope = some segments)
    (h : readFurtherMembers (readDefinitionMember depth) most first start s = .ok (last, t)) :
    last.scope = some segments := by
  induction most generalizing first start s with
  | zero => cases h
  | succ most ih =>
    rw [readFurtherMembers] at h
    split at h
    · cases h
    · cases h
      exact hscope
    · split at h
      · cases h
      · next next r hmember =>
        refine ih ?_ h
        rcases scope_of_readDefinitionMember hmember with ⟨-, hnone⟩ | hkept
        · rw [hscope] at hnone
          cases hnone
        · rw [hkept, hscope]

namespace ScopeAt

variable {depth : Nat} {v : Bytes} {d : Draft} {first : Bool} {start : Draft} {s : Bytes}

lemma scope_eq (h : ScopeAt depth v d first start s) : d.scope = start.scope := by
  induction h with
  | here => rfl
  | behind _ hother hmember _ ih =>
    rcases scope_of_readDefinitionMember hmember with ⟨hkey, -⟩ | hkept
    · exact absurd hkey hother
    · rw [ih, hkept]

/-- What stands behind the colon does not matter for the way to it. -/
lemma exists_append (h : ScopeAt depth v d first start s) :
    ∃ u, s = u ++ ascii ':' :: v ∧
      ∀ w, ScopeAt depth w d first start (u ++ ascii ':' :: w) := by
  have hhead (w : Bytes) : (ascii ':' :: w).head? = (ascii ':' :: v).head? := rfl
  induction h with
  | here hkey hcolon =>
    obtain ⟨c, rfl, hc⟩ := passes_readColon.exists_append hcolon
    obtain ⟨u, rfl, hu⟩ := local_nextKey _ _ _ _ hkey
    refine ⟨u ++ c, by simp, fun w => ?_⟩
    rw [List.append_assoc]
    exact .here (hu _ (head?_append_congr (hhead w) c)) (hc w)
  | behind hkey hother hmember _ ih =>
    obtain ⟨z, rfl, hz⟩ := ih
    obtain ⟨c, rfl, hc⟩ := local_readDefinitionMember _ _ _ _ _ _ hmember
    obtain ⟨u, rfl, hu⟩ := local_nextKey _ _ _ _ hkey
    refine ⟨u ++ (c ++ z), by simp, fun w => ?_⟩
    have hrest := head?_append_congr (hhead w) z
    simp only [List.append_assoc]
    exact .behind (hu _ (head?_append_congr hrest c)) hother (hc _ hrest) (hz w)

variable {segments : List String} {t : Bytes} (hscope : readScope depth v = .ok (segments, t))

include hscope

/-- After the members before the scope and the scope itself, reading goes on behind it. -/
lemma exists_steps (h : ScopeAt depth v d first start s) (hfree : d.scope = none) :
    ∃ n, ∀ most, readFurtherMembers (readDefinitionMember depth) (most + n) first start s =
      readFurtherMembers (readDefinitionMember depth) most false
        { d with scope := some segments } t := by
  induction h with
  | @here _ s r hkey hcolon =>
    have hmember : readDefinitionMember depth d "namespace" r =
        .ok ({ d with scope := some segments }, t) := by
      simp only [readDefinitionMember, readField, hfree, Option.isSome_none, Bool.false_eq_true,
        if_false, readMemberValue, hcolon, hscope, bind, Except.bind, under, Except.mapError,
        Except.map]
    refine ⟨1, fun most => ?_⟩
    simp only [readFurtherMembers, hkey, under, Except.mapError, hmember]
  | behind hkey _ hmember _ ih =>
    obtain ⟨n, hn⟩ := ih
    refine ⟨n + 1, fun most => ?_⟩
    rw [← hn, ← Nat.add_assoc, readFurtherMembers]
    simp only [hkey, under, Except.mapError, hmember]

lemma readMembers_iff (h : ScopeAt depth v d true {} s) {last : Draft} {r : Bytes} :
    readMembers (readDefinitionMember depth) {} s = .ok (last, r) ↔
      ∃ most, readFurtherMembers (readDefinitionMember depth) most false
        { d with scope := some segments } t = .ok (last, r) := by
  obtain ⟨n, hn⟩ := h.exists_steps hscope h.scope_eq
  rw [readMembers_eq_ok_iff (local_readDefinitionMember depth)]
  constructor
  · rintro ⟨most, hread⟩
    obtain ⟨u, rfl, hu⟩ := exists_of_readFurtherMembers (local_readDefinitionMember depth) hread
    exact ⟨u.length + 1, (hn _).symm.trans (hu r _ rfl (by omega))⟩
  · rintro ⟨most, hread⟩
    exact ⟨most + n, (hn most).trans hread⟩

end ScopeAt

lemma readDefinition_brace {depth : Nat} {document s r : Bytes} {d : Definition}
    (hs : skipBlanks document = ascii '\x7b' :: s) :
    readDefinition (depth + 1) document = .ok (d, r) ↔ ∃ draft t,
      readMembers (readDefinitionMember depth) {} s = .ok (draft, t) ∧
        draft.finish? = some d ∧ closeObject t = .ok r := by
  have hrecord : readDefinition (depth + 1) document =
      inRecord (readDefinitionMembers depth) closeObject leaveObject s := by
    rw [readDefinition, readRecord, hs]
    rfl
  rw [hrecord, inRecord, bind_eq_ok]
  constructor
  · rintro ⟨⟨x, t⟩, hbody, hclose⟩
    obtain ⟨⟨draft, t'⟩, hmembers, hfinish⟩ := bind_eq_ok.mp (mapError_eq_ok_iff.mp hbody)
    obtain ⟨r', hr, heq⟩ := bind_eq_ok.mp hclose
    cases heq
    dsimp only at hfinish
    split at hfinish
    · next hd =>
      cases hfinish
      exact ⟨draft, t, hmembers, hd, hr⟩
    · cases hfinish
  · rintro ⟨draft, t, hmembers, hd, hr⟩
    refine ⟨(d, t), mapError_eq_ok_iff.mpr ?_, ?_⟩
    · simp only [readDefinitionMembers, hmembers, bind, Except.bind, hd]
    · simp only [hr, bind, Except.bind, pure, Except.pure]

/-- Two documents are read as the same definitions, whose scope has these segments. -/
def ReadAlike (depth : Nat) (segments : List String) (document document' : Bytes) : Prop :=
  ∀ (d : Definition) (r : Bytes),
    (readDefinition depth document = .ok (d, r) ↔ readDefinition depth document' = .ok (d, r)) ∧
      (readDefinition depth document = .ok (d, r) → d.scope = segments)

/-- Where a definition has its scope, it is read in the same way whatever spells the segments. -/
lemma readAlike_of_scopeAt {depth : Nat} {document document' u v v' t : Bytes} {draft : Draft}
    {segments : List String} (hdoc : skipBlanks document = ascii '\x7b' :: (u ++ ascii ':' :: v))
    (hdoc' : skipBlanks document' = ascii '\x7b' :: (u ++ ascii ':' :: v'))
    (hplace : ScopeAt depth v draft true {} (u ++ ascii ':' :: v))
    (hscope : readScope depth v = .ok (segments, t))
    (hscope' : readScope depth v' = .ok (segments, t)) :
    ReadAlike (depth + 1) segments document document' := by
  intro d r
  obtain ⟨u', hsplit, hmove⟩ := hplace.exists_append
  obtain rfl : u' = u := (List.append_cancel_right hsplit).symm
  have hplace' := hmove v'
  simp only [readDefinition_brace hdoc, readDefinition_brace hdoc', hplace.readMembers_iff hscope,
    hplace'.readMembers_iff hscope', true_and]
  rintro ⟨last, t, ⟨most, hmembers⟩, hfinish, -⟩
  have hkept := scope_of_readFurtherMembers rfl hmembers
  obtain ⟨name, -, rfl⟩ := Option.map_eq_some_iff.mp hfinish
  simp [hkept]

/-- In a definition that is written as an array the value of the scope stands at `v`, behind the
name. -/
def SecondAt (v : Bytes) (name : String) (s : Bytes) : Prop :=
  ∃ q r, nextElement true s = .ok (true, q) ∧ readTextValue q = .ok (name, r) ∧
    nextElement false r = .ok (true, v)

section

variable {depth : Nat} {name : String} {segments : List String} {s s' v v' t : Bytes}
  (h : SecondAt v name s) (hscope : readScope depth v = .ok (segments, t))

include h hscope

lemma SecondAt.readElements_eq (h' : SecondAt v' name s')
    (hscope' : readScope depth v' = .ok (segments, t)) :
    readDefinitionElements depth s = readDefinitionElements depth s' := by
  obtain ⟨q, r, hfirst, hname, hsecond⟩ := h
  obtain ⟨q', r', hfirst', hname', hsecond'⟩ := h'
  simp only [readDefinitionElements, readElementOr, beq_self_eq_true, Nat.reduceBEq, bind,
    Except.bind, hfirst, hfirst', hname, hname', hsecond, hsecond', hscope, hscope', if_true, under,
    Except.mapError, Except.map]

lemma SecondAt.scope_eq {d : Definition} {r : Bytes}
    (hread : readDefinitionElements depth s = .ok (d, r)) : d.scope = segments := by
  obtain ⟨q, q', hfirst, hname, hsecond⟩ := h
  have hone : readElementOr 0 none
      (fun s => (readTextValue s).map fun p => (some p.1, p.2)) s = .ok (some name, q') := by
    simp only [readElementOr, beq_self_eq_true, bind, Except.bind, hfirst, hname, if_true, under,
      Except.mapError, Except.map]
  have htwo : readElementOr 1 [] (readScope depth) q' = .ok (segments, t) := by
    simp only [readElementOr, Nat.reduceBEq, bind, Except.bind, hsecond, hscope, if_true, under,
      Except.mapError]
  obtain ⟨_, hone', hread⟩ := bind_eq_ok.mp hread
  cases hone'.symm.trans hone
  obtain ⟨_, htwo', hread⟩ := bind_eq_ok.mp hread
  cases htwo'.symm.trans htwo
  -- the other elements do not touch the scope
  iterate 7 obtain ⟨_, -, hread⟩ := bind_eq_ok.mp hread
  cases hread
  rfl

end

lemma readAlike_of_secondAt {depth : Nat} {name : String} {segments : List String}
    {document document' s s' v v' t : Bytes} (hdoc : skipBlanks document = ascii '[' :: s)
    (hdoc' : skipBlanks document' = ascii '[' :: s') (h : SecondAt v name s)
    (h' : SecondAt v' name s') (hscope : readScope depth v = .ok (segments, t))
    (hscope' : readScope depth v' = .ok (segments, t)) :
    ReadAlike (depth + 1) segments document document' := by
  have hrecord {document s : Bytes} (hs : skipBlanks document = ascii '[' :: s) :
      readDefinition (depth + 1) document =
        inRecord (readDefinitionElements depth) closeArray leaveArray s := by
    rw [readDefinition, readRecord, hs]
    rfl
  intro d r
  rw [hrecord hdoc, hrecord hdoc', inRecord, inRecord, h.readElements_eq hscope h' hscope']
  refine ⟨Iff.rfl, fun hread => ?_⟩
  obtain ⟨⟨x, q⟩, hbody, hclose⟩ := bind_eq_ok.mp hread
  obtain ⟨_, -, heq⟩ := bind_eq_ok.mp hclose
  cases heq
  exact h'.scope_eq hscope' (mapError_eq_ok_iff.mp hbody)

/-- **Scopes**: from a text that joins segments without colons the same scope is read as from the
list of the segments, and the empty text and the empty list both spell the empty scope. In every
definition, written as an object or as an array, one spelling may stand for the other. A qualified
name without further colons has one scope and one name. -/
theorem scope_spellings {texts : List String} (hne : texts ≠ []) (hempty : texts ≠ [""])
    (hcolon : ∀ t ∈ texts, ':' ∉ t.toList) :
    (∀ (depth : Nat) (v t : Bytes),
      readTextValue v = .ok ("::".intercalate texts, t) ∨ readTexts v = .ok (texts, t) →
      readScope (depth + 1) v = .ok (texts, t)) ∧
    (∀ (depth : Nat) (v t : Bytes), readTextValue v = .ok ("", t) ∨ readTexts v = .ok ([], t) →
      readScope (depth + 1) v = .ok ([], t)) ∧
    (∀ (depth : Nat) (segments : List String) (document document' v v' t : Bytes),
      readScope depth v = .ok (segments, t) → readScope depth v' = .ok (segments, t) →
      (∀ (u : Bytes) (draft : Draft), ScopeAt depth v draft true {} (u ++ ascii ':' :: v) →
        skipBlanks document = ascii '\x7b' :: (u ++ ascii ':' :: v) →
        skipBlanks document' = ascii '\x7b' :: (u ++ ascii ':' :: v') →
        ReadAlike (depth + 1) segments document document') ∧
      ∀ (name : String) (s s' : Bytes), SecondAt v name s → SecondAt v' name s' →
        skipBlanks document = ascii '[' :: s → skipBlanks document' = ascii '[' :: s' →
        ReadAlike (depth + 1) segments document document') ∧
    ∀ d d' : Definition, (∀ t ∈ d.name :: d.scope, ':' ∉ t.toList) →
      (∀ t ∈ d'.name :: d'.scope, ':' ∉ t.toList) → d.qualifiedName = d'.qualifiedName →
      d.scope = d'.scope ∧ d.name = d'.name := by
  refine ⟨?joined, ?empty, ?definition, ?qualified⟩
  case joined =>
    rintro depth v t (h | h)
    · exact readScope_of_join hne hcolon hempty h _
    · exact readScope_of_readTexts h depth
  case empty =>
    rintro depth v t (h | h)
    · exact readScope_of_empty h _
    · exact readScope_of_readTexts h depth
  case definition =>
    intro depth segments document document' v v' t hscope hscope'
    constructor
    · exact fun u draft hplace hdoc hdoc' => readAlike_of_scopeAt hdoc hdoc' hplace hscope hscope'
    · exact fun name s s' h h' hdoc hdoc' => readAlike_of_secondAt hdoc hdoc' h h' hscope hscope'
  case qualified =>
    intro d d' hd hd' heq
    refine qualify_injective ?_ ?_ heq
    · simpa [or_imp, forall_and, and_comm] using hd
    · simpa [or_imp, forall_and, and_comm] using hd'

/-- The members of a definition up to its scope. -/
def beforeScope : Bytes := Text.bytes "\x22name\x22:\x22E\x22, \x22namespace\x22 "

/-- A scope that begins with an empty segment, in both spellings, and the end of the definition. -/
def joinedScope : Bytes := Text.bytes "\x22::gfx\x22\x7d"

def listedScope : Bytes := Text.bytes "[\x22\x22, \x22\\u0067fx\x22]\x7d"

theorem emptySegment_spellings :
    readScope 1 joinedScope = .ok (["", "gfx"], [ascii '\x7d']) ∧
      readScope 1 listedScope = .ok (["", "gfx"], [ascii '\x7d']) ∧
      readDefinition 2 (ascii '\x7b' :: (beforeScope ++ ascii ':' :: joinedScope)) =
        .ok ({ name := "E", scope := ["", "gfx"] }, []) ∧
      readDefinition 2 (ascii '\x7b' :: (beforeScope ++ ascii ':' :: listedScope)) =
        .ok ({ name := "E", scope := ["", "gfx"] }, []) := by
  obtain ⟨hspelled, -, hdefinition, -⟩ :=
    @scope_spellings ["", "gfx"] (by decide) (by decide) (by decide)
  have hjoined := hspelled 0 joinedScope [ascii '\x7d'] (.inl (by decide +kernel))
  have hlisted := hspelled 0 listedScope [ascii '\x7d'] (.inr (by decide +kernel))
  have hread : readDefinition 2 (ascii '\x7b' :: (beforeScope ++ ascii ':' :: joinedScope)) =
      .ok ({ name := "E", scope := ["", "gfx"] }, []) := by decide +kernel
  have hplace : ScopeAt 1 joinedScope { name := some "E" } true {}
      (beforeScope ++ ascii ':' :: joinedScope) := by
    have hname : nextKey true (beforeScope ++ ascii ':' :: joinedScope) =
        .ok (some "name", (beforeScope ++ ascii ':' :: joinedScope).drop 6) := by decide +kernel
    have hvalue : readField none "name" readTextValue
        ((beforeScope ++ ascii ':' :: joinedScope).drop 6) =
          .ok ("E", (beforeScope ++ ascii ':' :: joinedScope).drop 10) := by decide +kernel
    have hkey : nextKey false ((beforeScope ++ ascii ':' :: joinedScope).drop 10) =
        .ok (some "namespace", (beforeScope ++ ascii ':' :: joinedScope).drop 23) := by
      decide +kernel
    have hcolon : readColon ((beforeScope ++ ascii ':' :: joinedScope).drop 23) =
        .ok joinedScope := by decide +kernel
    refine .behind hname (by decide) ?_ (.here hkey hcolon)
    simp only [readDefinitionMember, hvalue, Except.map]
  exact ⟨hjoined, hlisted, hread,
    (((hdefinition 1 _ _ _ _ _ _ hjoined hlisted).1 _ _ hplace rfl rfl) _ _).1.mp hread⟩

end Document

end EnumForge
