import Mathlib
import EnumForge.Validation
import EnumForge.Proofs.DeclarationOrder
import EnumForge.Proofs.Results

/-!
Which definitions are accepted, said rule by rule and without the order in which the rules are
tried, and what the constants of an accepted definition are like.
-/

namespace EnumForge

namespace Validation

/-! ### When a check passes -/

lemma check_bind_eq_ok {β : Type} {x : Check} {f : Unit → Except DefinitionError β} {b : β} :
    x >>= f = .ok b ↔ x = .ok () ∧ f () = .ok b := by
  rw [bind_eq_ok]
  exact ⟨fun ⟨(), h⟩ => h, fun h => ⟨(), h⟩⟩

lemma require_eq_ok {p : Bool} {e : DefinitionError} : require p e = .ok () ↔ p := by
  cases p <;> simp [require]

lemma check_bind_eq_error {β : Type} {x : Check} {f : Unit → Except DefinitionError β}
    {e : DefinitionError} :
    x >>= f = .error e ↔ x = .error e ∨ x = .ok () ∧ f () = .error e := by
  rw [bind_eq_error_iff]
  exact or_congr_right ⟨fun ⟨(), h⟩ => h, fun h => ⟨(), h⟩⟩

/-- What follows a check matters only if the check passes. -/
lemma check_bind_congr {β : Type} {x : Check} {f g : Unit → Except DefinitionError β}
    (h : x = .ok () → f () = g ()) : x >>= f = x >>= g := by
  cases x with
  | error e => rfl
  | ok u => exact h rfl

lemma require_eq_error_iff {p : Bool} {e f : DefinitionError} :
    require p e = .error f ↔ p = false ∧ f = e := by
  cases p <;> simp [require, eq_comm]

lemma forM_eq_ok {α : Type} {xs : List α} {f : α → Check} :
    xs.forM f = .ok () ↔ ∀ x ∈ xs, f x = .ok () := by
  induction xs with
  | nil => simp [List.forM, pure, Except.pure]
  | cons x xs ih =>
    rw [List.forM_eq_forM] at ih ⊢
    rw [List.forM_cons, check_bind_eq_ok, ih, List.forall_mem_cons]

lemma checkName_eq_ok {role : NameRole} {s : String} :
    checkName role s = .ok () ↔ Identifier.isIdentifier s := require_eq_ok

lemma checkKinds_eq_ok {ps : List (String × WrittenValue)} :
    checkKinds ps = .ok () ↔ ∀ p ∈ ps, ∀ q ∈ ps, p.2.kind = q.2.kind := by
  cases ps with
  | nil => simp [checkKinds]
  | cons p ps =>
    obtain ⟨n, w⟩ := p
    rw [checkKinds, forM_eq_ok]
    simp only [require_eq_ok, decide_eq_true_eq]
    constructor
    · intro h p hp q hq
      -- every kind is that of the first value
      have hkind : ∀ r ∈ (n, w) :: ps, r.2.kind = w.kind := by
        intro r hr
        rcases List.mem_cons.mp hr with rfl | hr
        · rfl
        · exact h r hr
      rw [hkind p hp, hkind q hq]
    · intro h r hr
      exact h r (List.mem_cons_of_mem _ hr) (n, w) List.mem_cons_self

lemma value?_text_eq_some {s : String} {v : Value} :
    (WrittenValue.text s).value? = some v ↔ ∃ c, s.toList = [c] ∧ v = .char c := by
  simp only [WrittenValue.value?]
  split
  · next c h => simp [h, eq_comm]
  · next h => simpa using fun c hc => absurd hc (h c)

lemma isAsciiChar_value?_iff {s : String} :
    (WrittenValue.text s).value?.any isAsciiChar ↔ ∃ c, s.toList = [c] ∧ c.toNat < 128 := by
  rw [Option.any_eq_true]
  constructor
  · rintro ⟨v, hv, hascii⟩
    obtain ⟨c, hs, rfl⟩ := value?_text_eq_some.mp hv
    exact ⟨c, hs, by simpa [isAsciiChar] using hascii⟩
  · rintro ⟨c, hs, hc⟩
    exact ⟨.char c, value?_text_eq_some.mpr ⟨c, hs, rfl⟩, by simpa [isAsciiChar] using hc⟩

lemma checkChars_eq_ok {ps : List (String × WrittenValue)} :
    checkChars ps = .ok () ↔
      ∀ n s, (n, .text s) ∈ ps → ∃ c, s.toList = [c] ∧ c.toNat < 128 := by
  rw [checkChars, forM_eq_ok]
  constructor
  · intro h n s hmem
    have := h (n, .text s) hmem
    exact isAsciiChar_value?_iff.mp (require_eq_ok.mp this)
  · rintro h ⟨n, w⟩ hmem
    cases w with
    | integer i => rfl
    | text s => exact require_eq_ok.mpr (isAsciiChar_value?_iff.mpr (h n s hmem))

lemma checkDistinctNames_eq_ok {seen ns : List String} :
    checkDistinctNames seen ns = .ok () ↔ ns.Nodup ∧ ∀ n ∈ ns, n ∉ seen := by
  induction ns generalizing seen with
  | nil => simp [checkDistinctNames]
  | cons n ns ih =>
    rw [checkDistinctNames, check_bind_eq_ok, require_eq_ok, ih, List.nodup_cons]
    simp only [List.contains_eq_mem, Bool.not_eq_true', decide_eq_false_iff_not, List.mem_cons,
      not_or, forall_eq_or_imp]
    constructor
    · rintro ⟨hn, hnodup, hrest⟩
      exact ⟨⟨fun hmem => (hrest n hmem).1 rfl, hnodup⟩, hn, fun m hm => (hrest m hm).2⟩
    · rintro ⟨⟨hmem, hnodup⟩, hn, hrest⟩
      exact ⟨hn, hnodup, fun m hm => ⟨fun h => hmem (h ▸ hm), hrest m hm⟩⟩

lemma checkDistinctValues_eq_ok {cs : List Constant} :
    checkDistinctValues cs = .ok () ↔ cs.IsChain fun a b => a.value ≠ b.value := by
  fun_induction checkDistinctValues cs with
  | case1 a b cs ih =>
    rw [check_bind_eq_ok, require_eq_ok, ih, List.isChain_cons_cons, decide_eq_true_eq]
  | case2 cs h =>
    cases cs with
    | nil => simp
    | cons a cs =>
      cases cs with
      | nil => simp
      | cons b cs => exact absurd rfl (h a b cs)

lemma checkRange_eq_ok {storage : String} {cs : List Constant} :
    checkRange storage cs = .ok () ↔
      ∀ low high, Storage.range? storage = some (low, high) →
        ∀ c ∈ cs, low ≤ c.value.toInt ∧ c.value.toInt ≤ high := by
  unfold checkRange
  split
  · next h => simp [h]
  · next low high h =>
    simp only [h, forM_eq_ok, require_eq_ok, Bool.and_eq_true, decide_eq_true_eq,
      Option.some.injEq, Prod.mk.injEq]
    constructor
    · rintro hall l u ⟨rfl, rfl⟩
      exact hall
    · exact fun hall => hall low high ⟨rfl, rfl⟩

end Validation

open Validation

/-! ### The rules on their own -/

namespace WrittenValues

/-- The values of a mapping are all of one kind. -/
def OneKind : WrittenValues → Prop
  | names _ => True
  | mapping ps => ∀ p ∈ ps, ∀ q ∈ ps, p.2.kind = q.2.kind

/-- Every text in a mapping is one ASCII character. -/
def AsciiTexts : WrittenValues → Prop
  | names _ => True
  | mapping ps => ∀ n s, (n, .text s) ∈ ps → ∃ c, s.toList = [c] ∧ c.toNat < 128

end WrittenValues

/-- A definition whose values are written as `vs` keeps every rule. -/
structure Definition.KeepsRules (d : Definition) (vs : WrittenValues) : Prop where
  written : d.values = some vs
  nonempty : vs.entries ≠ []
  typeName : Identifier.isIdentifier d.name
  scope : ∀ s ∈ d.scope, Identifier.isIdentifier s
  stem : Identifier.isFileStem d.fileStem
  labels : ∀ n ∈ vs.labels, Identifier.isIdentifier n
  oneKind : vs.OneKind
  asciiTexts : vs.AsciiTexts
  distinctNames : vs.labels.Nodup
  distinctValues : (vs.entries.map Prod.snd).Nodup
  inRange : ∀ low high, Storage.range? (d.storage.getD "int") = some (low, high) →
    ∀ n v, (n, some v) ∈ vs.entries → low ≤ v.toInt ∧ v.toInt ≤ high
  storage : ∀ s, d.storage = some s → Identifier.isTypeName (Text.trim s)

namespace WrittenValues

lemma isSome_of_mem_entries {vs : WrittenValues} (h : vs.AsciiTexts) {n : String}
    {o : Option Value} (hmem : (n, o) ∈ vs.entries) : o.isSome := by
  cases vs with
  | names ns =>
    obtain ⟨⟨m, i⟩, -, heq⟩ := List.mem_map.mp hmem
    cases heq
    rfl
  | mapping ps =>
    obtain ⟨⟨m, w⟩, hw, heq⟩ := List.mem_map.mp hmem
    cases heq
    cases w with
    | integer i => rfl
    | text s =>
      obtain ⟨c, hc, -⟩ := h _ s hw
      exact Option.isSome_iff_exists.mpr ⟨.char c, value?_text_eq_some.mpr ⟨c, hc, rfl⟩⟩

lemma pairwise_le {vs : WrittenValues} (h : vs.labels.Nodup) :
    vs.constants.Pairwise fun a b => a.le b := by
  cases vs with
  | names ns =>
    have hns : ns.Nodup := h
    rw [constants_names hns]
    exact pairwise_le_zipIdx ns
  | mapping ps => exact pairwise_le_constants ps

end WrittenValues

/-- Where the neighbours in a sorted list have different values, the values ascend. -/
lemma pairwise_less_of_isChain_ne {cs : List Constant} (hle : cs.Pairwise fun a b => a.le b)
    (hne : cs.IsChain fun a b => a.value ≠ b.value) :
    cs.Pairwise fun a b => a.value.less b.value := by
  induction cs with
  | nil => exact List.Pairwise.nil
  | cons a cs ih =>
    cases cs with
    | nil => exact List.pairwise_singleton _ _
    | cons b cs =>
      rw [List.isChain_cons_cons] at hne
      obtain ⟨hab, hrest⟩ := List.pairwise_cons.mp hle
      have hasc := ih hrest hne.2
      have hless := Constant.less_of_le_of_ne (hab b List.mem_cons_self) hne.1
      refine List.pairwise_cons.mpr ⟨fun c hc => ?_, hasc⟩
      rcases List.mem_cons.mp hc with rfl | hc
      · exact hless
      · exact Value.less_trans hless ((List.pairwise_cons.mp hasc).1 c hc)

namespace WrittenValues

variable {vs : WrittenValues}

lemma perm_entries_of_rules (hn : vs.labels.Nodup) (ha : vs.AsciiTexts) :
    (vs.constants.map ofConstant).Perm vs.entries :=
  perm_entries hn fun _ _ => isSome_of_mem_entries ha

/-- Looking at neighbours only finds every repeated value, since the constants are sorted. -/
lemma isChain_ne_iff_nodup (hn : vs.labels.Nodup) (ha : vs.AsciiTexts) :
    (vs.constants.IsChain fun a b => a.value ≠ b.value) ↔ (vs.entries.map Prod.snd).Nodup := by
  have hpair : (vs.entries.map Prod.snd).Nodup ↔
      vs.constants.Pairwise fun a b => a.value ≠ b.value := by
    rw [← ((perm_entries_of_rules hn ha).map Prod.snd).nodup_iff, List.map_map, List.Nodup,
      List.pairwise_map]
    simp [ofConstant]
  rw [hpair]
  constructor
  · exact fun h => (pairwise_less_of_isChain_ne (pairwise_le hn) h).imp Value.ne_of_less
  · exact List.Pairwise.isChain

lemma forall_constants_iff (hn : vs.labels.Nodup) (ha : vs.AsciiTexts) {p : Value → Prop} :
    (∀ c ∈ vs.constants, p c.value) ↔ ∀ n v, (n, some v) ∈ vs.entries → p v := by
  have hperm := perm_entries_of_rules hn ha
  constructor
  · intro h n v hmem
    obtain ⟨c, hc, heq⟩ := List.mem_map.mp (hperm.mem_iff.mpr hmem)
    cases heq
    exact h c hc
  · intro h c hc
    exact h c.name c.value (hperm.mem_iff.mp (List.mem_map_of_mem hc))

end WrittenValues

/-! ### Acceptance -/

namespace Definition

/-- The checks in their order, each with what it means. -/
lemma check_eq_ok_iff_checks {d : Definition} {e : Enumeration} :
    d.check = .ok e ↔ ∃ vs, d.values = some vs ∧ vs.isEmpty = false ∧
      Identifier.isIdentifier d.name ∧ (∀ s ∈ d.scope, Identifier.isIdentifier s) ∧
      Identifier.isFileStem d.fileStem ∧ (∀ n ∈ vs.labels, Identifier.isIdentifier n) ∧
      checkWritten vs = .ok () ∧ vs.labels.Nodup ∧
      (vs.constants.IsChain fun a b => a.value ≠ b.value) ∧
      (∀ low high, Storage.range? (d.storage.getD "int") = some (low, high) →
        ∀ c ∈ vs.constants, low ≤ c.value.toInt ∧ c.value.toInt ≤ high) ∧
      (∀ s, d.storage = some s → Identifier.isTypeName (Text.trim s)) ∧
      ⟨d, vs.constants⟩ = e := by
  unfold check
  cases hv : d.values with
  | none => simp
  | some vs =>
    have hstorage : (d.storage.forM fun s =>
        require (Identifier.isTypeName (Text.trim s)) (.badStorage s)) = .ok () ↔
        ∀ s, d.storage = some s → Identifier.isTypeName (Text.trim s) := by
      cases d.storage with
      | none => simp [pure, Except.pure]
      | some s => simp [require_eq_ok]
    simp only [check_bind_eq_ok, require_eq_ok, checkName_eq_ok, forM_eq_ok,
      checkDistinctNames_eq_ok, checkDistinctValues_eq_ok, checkRange_eq_ok, hstorage,
      Bool.not_eq_true', List.not_mem_nil, not_false_eq_true, implies_true, and_true,
      Option.some.injEq, exists_eq_left', pure, Except.pure, Except.ok.injEq]

lemma checkWritten_eq_ok {vs : WrittenValues} :
    checkWritten vs = .ok () ↔ vs.OneKind ∧ vs.AsciiTexts := by
  cases vs with
  | names ns => simp [checkWritten, WrittenValues.OneKind, WrittenValues.AsciiTexts]
  | mapping ps =>
    simp only [checkWritten, check_bind_eq_ok, checkKinds_eq_ok, checkChars_eq_ok]
    rfl

lemma isEmpty_eq_false_iff {vs : WrittenValues} : vs.isEmpty = false ↔ vs.entries ≠ [] := by
  rw [WrittenValues.isEmpty, WrittenValues.size, ← WrittenValues.map_fst_entries]
  simp

theorem check_eq_ok_iff {d : Definition} {e : Enumeration} :
    d.check = .ok e ↔ ∃ vs, d.KeepsRules vs ∧ e = ⟨d, vs.constants⟩ := by
  rw [check_eq_ok_iff_checks]
  refine exists_congr fun vs => ?_
  rw [isEmpty_eq_false_iff, checkWritten_eq_ok]
  constructor
  · rintro ⟨hw, hne, hname, hscope, hstem, hlabels, ⟨hkind, hascii⟩, hnodup, hchain, hrange,
      hstorage, rfl⟩
    refine ⟨⟨hw, hne, hname, hscope, hstem, hlabels, hkind, hascii, hnodup, ?_, ?_, hstorage⟩, rfl⟩
    · exact (WrittenValues.isChain_ne_iff_nodup hnodup hascii).mp hchain
    · exact fun low high h =>
        (WrittenValues.forall_constants_iff hnodup hascii).mp (hrange low high h)
  · rintro ⟨h, rfl⟩
    refine ⟨h.written, h.nonempty, h.typeName, h.scope, h.stem, h.labels,
      ⟨h.oneKind, h.asciiTexts⟩, h.distinctNames, ?_, ?_, h.storage, rfl⟩
    · exact (WrittenValues.isChain_ne_iff_nodup h.distinctNames h.asciiTexts).mpr h.distinctValues
    · exact fun low high hr => (WrittenValues.forall_constants_iff h.distinctNames
        h.asciiTexts).mpr (h.inRange low high hr)

end Definition

/-! ### Accepted enumerations -/

/-- What holds of every accepted definition and its constants. -/
structure Enumeration.Valid (e : Enumeration) : Prop where
  nonempty : e.constants ≠ []
  typeName : Identifier.isIdentifier e.definition.name
  scope : ∀ s ∈ e.definition.scope, Identifier.isIdentifier s
  stem : Identifier.isFileStem e.definition.fileStem
  storage : ∀ s, e.definition.storage = some s → Identifier.isTypeName (Text.trim s)
  names : ∀ c ∈ e.constants, Identifier.isIdentifier c.name
  distinctNames : (e.constants.map Constant.name).Nodup
  oneKind : ∀ a ∈ e.constants, ∀ b ∈ e.constants, a.value.kind = b.value.kind
  ascii : ∀ c ∈ e.constants, ∀ x, c.value = .char x → x.toNat < 128
  ascending : e.constants.Pairwise fun a b => a.value.less b.value

namespace WrittenValues

variable {vs : WrittenValues}

lemma kind_of_mem_entries (h : vs.OneKind) {n m : String} {v w : Value}
    (hv : (n, some v) ∈ vs.entries) (hw : (m, some w) ∈ vs.entries) : v.kind = w.kind := by
  cases vs with
  | names ns =>
    obtain ⟨p, -, hp⟩ := List.mem_map.mp hv
    obtain ⟨q, -, hq⟩ := List.mem_map.mp hw
    cases hp
    cases hq
    rfl
  | mapping ps =>
    have hkind : ∀ {x : WrittenValue} {u : Value}, x.value? = some u → u.kind = x.kind := by
      intro x u hx
      cases x with
      | integer i => cases hx; rfl
      | text s => obtain ⟨c, -, rfl⟩ := value?_text_eq_some.mp hx; rfl
    obtain ⟨p, hp, hpv⟩ := List.mem_map.mp hv
    obtain ⟨q, hq, hqw⟩ := List.mem_map.mp hw
    rw [hkind (Prod.mk.inj hpv).2, hkind (Prod.mk.inj hqw).2]
    exact h p hp q hq

lemma ascii_of_mem_entries (h : vs.AsciiTexts) {n : String} {x : Char}
    (hmem : (n, some (.char x)) ∈ vs.entries) : x.toNat < 128 := by
  cases vs with
  | names ns =>
    obtain ⟨p, -, hp⟩ := List.mem_map.mp hmem
    cases hp
  | mapping ps =>
    obtain ⟨⟨m, w⟩, hw, heq⟩ := List.mem_map.mp hmem
    obtain ⟨-, hval⟩ := Prod.mk.inj heq
    cases w with
    | integer i => cases hval
    | text s =>
      obtain ⟨c, hc, hcx⟩ := value?_text_eq_some.mp hval
      obtain ⟨c', hc', hascii⟩ := h m s hw
      rw [hc] at hc'
      cases hc'
      cases hcx
      exact hascii

lemma ofConstant_mem_entries (hn : vs.labels.Nodup) (ha : vs.AsciiTexts) {c : Constant}
    (hc : c ∈ vs.constants) : (c.name, some c.value) ∈ vs.entries :=
  (perm_entries_of_rules hn ha).mem_iff.mp (List.mem_map_of_mem hc)

end WrittenValues

theorem Enumeration.valid_of_check {d : Definition} {e : Enumeration} (h : d.check = .ok e) :
    e.definition = d ∧ e.Valid := by
  obtain ⟨vs, hr, rfl⟩ := Definition.check_eq_ok_iff.mp h
  have hperm := WrittenValues.perm_entries_of_rules hr.distinctNames hr.asciiTexts
  have hmem {c : Constant} (hc : c ∈ vs.constants) : (c.name, some c.value) ∈ vs.entries :=
    WrittenValues.ofConstant_mem_entries hr.distinctNames hr.asciiTexts hc
  have hnames : (vs.constants.map Constant.name).Perm vs.labels := by
    rw [← WrittenValues.map_fst_entries]
    simpa [WrittenValues.ofConstant, Function.comp_def] using hperm.map Prod.fst
  refine ⟨rfl, ?_, hr.typeName, hr.scope, hr.stem, hr.storage, ?_, ?_, ?_, ?_, ?_⟩
  · intro hnil
    have hnil' : vs.constants = [] := hnil
    rw [hnil'] at hperm
    exact hr.nonempty (List.nil_perm.mp hperm)
  · intro c hc
    exact hr.labels c.name (hnames.mem_iff.mp (List.mem_map_of_mem hc))
  · exact hnames.nodup_iff.mpr hr.distinctNames
  · intro a ha b hb
    exact WrittenValues.kind_of_mem_entries hr.oneKind (hmem ha) (hmem hb)
  · intro c hc x hx
    have hcx := hmem hc
    rw [hx] at hcx
    exact WrittenValues.ascii_of_mem_entries hr.asciiTexts hcx
  · exact pairwise_less_of_isChain_ne (WrittenValues.pairwise_le hr.distinctNames)
      ((WrittenValues.isChain_ne_iff_nodup hr.distinctNames hr.asciiTexts).mpr hr.distinctValues)

lemma Enumeration.Valid.ascending_toInt {e : Enumeration} (h : e.Valid) :
    e.constants.Pairwise fun a b => a.value.toInt < b.value.toInt :=
  h.ascending.imp_of_mem fun ha hb hless =>
    (Value.less_iff_toInt_lt (h.oneKind _ ha _ hb)).mp hless

/-- **Acceptance**: a definition is accepted just when it keeps every rule, and then every written
entry has become one constant, the constants are of one kind, and their values ascend. -/
theorem Definition.check_accepts_iff_rules (d : Definition) :
    ((∃ e, d.check = .ok e) ↔ ∃ vs, d.KeepsRules vs) ∧
    ∀ e, d.check = .ok e → e.definition = d ∧
      (∃ vs, d.values = some vs ∧
        (e.constants.map fun c => (c.name, some c.value)).Perm vs.entries ∧
        ∀ ns, vs = .names ns → e.constants = ns.zipIdx.map fun (n, i) => ⟨n, .integer i⟩) ∧
      (∀ a ∈ e.constants, ∀ b ∈ e.constants, a.value.kind = b.value.kind) ∧
      (e.constants.Pairwise fun a b => a.value.less b.value) ∧
      e.constants.Pairwise fun a b => a.value.toInt < b.value.toInt := by
  refine ⟨⟨?_, ?_⟩, ?_⟩
  · rintro ⟨e, he⟩
    obtain ⟨vs, hr, -⟩ := check_eq_ok_iff.mp he
    exact ⟨vs, hr⟩
  · rintro ⟨vs, hr⟩
    exact ⟨⟨d, vs.constants⟩, check_eq_ok_iff.mpr ⟨vs, hr, rfl⟩⟩
  · intro e he
    obtain ⟨hd, hvalid⟩ := Enumeration.valid_of_check he
    refine ⟨hd, ?_, hvalid.oneKind, hvalid.ascending, hvalid.ascending_toInt⟩
    obtain ⟨vs, hr, rfl⟩ := check_eq_ok_iff.mp he
    refine ⟨vs, hr.written, ?_, ?_⟩
    · exact WrittenValues.perm_entries_of_rules hr.distinctNames hr.asciiTexts
    · rintro ns rfl
      exact WrittenValues.constants_names hr.distinctNames

/-- Three characters that are written in the wrong order. -/
def separators : Definition where
  name := "Separator"
  scope := ["text"]
  storage := some "char"
  values := some (.mapping [("COMMA", .text ","), ("QUOTE", .text "\x27"), ("BREAK", .text "\n")])

def separatorsEnumeration : Enumeration where
  definition := separators
  constants := [⟨"BREAK", .char '\n'⟩, ⟨"QUOTE", .char '\x27'⟩, ⟨"COMMA", .char ','⟩]

lemma check_separators : separators.check = .ok separatorsEnumeration := by cbv

theorem separators_keep_rules :
    (∃ vs, separators.KeepsRules vs) ∧
      separatorsEnumeration.constants.Pairwise fun a b => a.value.less b.value := by
  have haccepts := Definition.check_accepts_iff_rules separators
  exact ⟨haccepts.1.mp ⟨_, check_separators⟩, (haccepts.2 _ check_separators).2.2.2.1⟩

end EnumForge
