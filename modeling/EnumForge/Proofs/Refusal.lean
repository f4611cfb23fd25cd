import EnumForge.Proofs.Acceptance

/-!
Which error a refused definition gets: that of the first rule that it breaks. Where several names or
values break this rule, the error names the first of them, in the order in which they are written or,
for the values, in the order of declaration. Of shared values it names the least one and the two
least names that share it, which come out of the comparison of neighbours because the constants are
sorted.
-/

namespace EnumForge

open Validation Identifier

/-- A number, or a text that is one ASCII character. -/
def WrittenValue.isPlain : WrittenValue → Bool
  | integer _ => true
  | text s =>
    match s.toList with
    | [c] => c.toNat < 128
    | _ => false

lemma WrittenValue.isPlain_text_iff {s : String} :
    (text s).isPlain ↔ ∃ c, s.toList = [c] ∧ c.toNat < 128 := by
  simp only [isPlain]
  split
  · next c h => simp [h]
  · next h => simpa using fun c hc => absurd hc (h c)

/-! ### The first that fails -/

namespace Validation

section

variable {α : Type} {xs : List α} {f : α → Check} {e : DefinitionError}

/-- A traversal ends in the error of the first element that is bad. -/
lemma forM_eq_error_iff {p : α → Bool} (hp : ∀ x ∈ xs, f x = .ok () ↔ p x = false) :
    xs.forM f = .error e ↔ ∃ x, xs.find? p = some x ∧ f x = .error e := by
  induction xs with
  | nil => simp [List.forM, pure, Except.pure]
  | cons x xs ih =>
    rw [List.forall_mem_cons] at hp
    have ih' := ih hp.2
    rw [List.forM_eq_forM] at ih' ⊢
    rw [List.forM_cons]
    cases hx : f x with
    | ok u =>
      rw [List.find?_cons_of_neg (by simpa using hp.1.mp hx)]
      exact ih'
    | error e' =>
      have hpx : p x := by
        rw [← Bool.not_eq_false, ← hp.1, hx]
        simp
      rw [List.find?_cons_of_pos hpx]
      simp [bind, Except.bind, hx]

/-- An element with those in front of it is the first element, or one of the others behind it. -/
lemma exists_split_cons_iff {P : List α → α → Prop} {x : α} :
    (∃ before y after, x :: xs = before ++ y :: after ∧ P before y) ↔
      P [] x ∨ ∃ before y after, xs = before ++ y :: after ∧ P (x :: before) y := by
  constructor
  · rintro ⟨before, y, after, heq, hy⟩
    cases before with
    | nil =>
      cases heq
      exact .inl hy
    | cons z before =>
      cases heq
      exact .inr ⟨before, y, after, rfl, hy⟩
  · rintro (hx | ⟨before, y, after, rfl, hy⟩)
    · exact ⟨[], x, xs, rfl, hx⟩
    · exact ⟨x :: before, y, after, rfl, hy⟩

/-- Where each element is blamed for what it fails with, provided that all in front of it pass, a
traversal ends in what the first one is blamed for that can be blamed at all. -/
lemma forM_eq_error_iff_split {Blamed : α → DefinitionError → Prop}
    (h : ∀ before x after, xs = before ++ x :: after → (∀ y ∈ before, f y = .ok ()) →
      ∀ e, f x = .error e ↔ Blamed x e) :
    xs.forM f = .error e ↔ ∃ before x after, xs = before ++ x :: after ∧ Blamed x e ∧
      ∀ y ∈ before, ∀ g, ¬ Blamed y g := by
  induction xs with
  | nil => simp [List.forM, pure, Except.pure]
  | cons x xs ih =>
    have hx := h [] x xs rfl (List.forall_mem_nil _)
    rw [exists_split_cons_iff]
    rw [List.forM_eq_forM] at ih ⊢
    rw [List.forM_cons]
    cases hfx : f x with
    | error e' =>
      have hblamed : Blamed x e' := (hx e').mp hfx
      have hiff : e' = e ↔ Blamed x e := by rw [← hx, hfx, Except.error.injEq]
      constructor
      · intro he
        exact .inl ⟨hiff.mp (Except.error.inj he), List.forall_mem_nil _⟩
      · rintro (⟨hxe, -⟩ | ⟨before, y, after, -, -, hbefore⟩)
        · exact congrArg Except.error (hiff.mpr hxe)
        · exact absurd hblamed (hbefore x List.mem_cons_self e')
    | ok u =>
      have hblameless : ∀ g, ¬ Blamed x g := by
        intro g hg
        rw [← hx, hfx] at hg
        cases hg
      have ih' := ih fun before y after heq hbefore =>
        h (x :: before) y after (congrArg _ heq) (List.forall_mem_cons.mpr ⟨hfx, hbefore⟩)
      simp only [hblameless, false_and, false_or, List.forall_mem_cons, not_false_eq_true,
        implies_true, true_and]
      exact ih'

end

variable {e : DefinitionError}

lemma forM_checkName_eq_error_iff {role : NameRole} {ns : List String} :
    ns.forM (checkName role) = .error e ↔
      ∃ n, ns.find? (!isIdentifier ·) = some n ∧ e = .badName role n := by
  have hbad : ∀ n ∈ ns, checkName role n = .ok () ↔ (!isIdentifier n) = false := by
    simp [checkName_eq_ok]
  rw [forM_eq_error_iff hbad]
  refine exists_congr fun n => and_congr_right fun hn => ?_
  have hbad := List.find?_some hn
  simp only [Bool.not_eq_true'] at hbad
  rw [checkName, require_eq_error_iff, and_iff_right hbad]

lemma checkKinds_eq_error_iff {ps : List (String × WrittenValue)} :
    checkKinds ps = .error e ↔ ∃ first n w, ps.head? = some first ∧
      ps.find? (fun p => p.2.kind ≠ first.2.kind) = some (n, w) ∧
      e = .mixedKinds first.2.kind w.kind n := by
  cases ps with
  | nil => simp [checkKinds]
  | cons p ps =>
    obtain ⟨m, v⟩ := p
    have hbad : ∀ q ∈ ps, require (decide (q.2.kind = v.kind)) (.mixedKinds v.kind q.2.kind q.1) =
        .ok () ↔ decide (q.2.kind ≠ v.kind) = false := by simp [require_eq_ok]
    -- the first entry is of its own kind
    have hfirst : ((m, v) :: ps).find? (fun q => q.2.kind ≠ v.kind) =
        ps.find? fun q => q.2.kind ≠ v.kind := List.find?_cons_of_neg (by simp)
    rw [checkKinds, forM_eq_error_iff hbad]
    simp only [List.head?_cons, Option.some.injEq, exists_eq_left', exists_and_left]
    constructor
    · rintro ⟨⟨n, w⟩, hq, he⟩
      exact ⟨n, w, hfirst.trans hq, (require_eq_error_iff.mp he).2⟩
    · rintro ⟨n, w, hq, rfl⟩
      rw [hfirst] at hq
      exact ⟨(n, w), hq, require_eq_error_iff.mpr ⟨by simpa using List.find?_some hq, rfl⟩⟩

lemma checkChars_eq_error_iff {ps : List (String × WrittenValue)} :
    checkChars ps = .error e ↔
      ∃ n s, ps.find? (!·.2.isPlain) = some (n, .text s) ∧ e = .notAsciiChar n s := by
  refine (forM_eq_error_iff (p := fun q => !q.2.isPlain) ?hplain).trans ?_
  case hplain =>
    rintro ⟨n, w⟩ -
    cases w with
    | integer i => simp [WrittenValue.isPlain]
    | text s =>
      rw [require_eq_ok, isAsciiChar_value?_iff, Bool.not_eq_false', WrittenValue.isPlain_text_iff]
  constructor
  · rintro ⟨⟨n, w⟩, hfind, he⟩
    cases w with
    | integer i => cases he
    | text s => exact ⟨n, s, hfind, (require_eq_error_iff.mp he).2⟩
  · rintro ⟨n, s, hfind, rfl⟩
    refine ⟨(n, .text s), hfind, require_eq_error_iff.mpr ⟨?_, rfl⟩⟩
    have hplain := List.find?_some hfind
    rw [Bool.not_eq_true', Bool.eq_false_iff, Ne, WrittenValue.isPlain_text_iff] at hplain
    rwa [Bool.eq_false_iff, Ne, isAsciiChar_value?_iff]

/-- The name that is found is the first one that is among those in front of it. -/
lemma checkDistinctNames_eq_error_iff {seen ns : List String} :
    checkDistinctNames seen ns = .error e ↔ ∃ before n after, ns = before ++ n :: after ∧
      before.Nodup ∧ (∀ m ∈ before, m ∉ seen) ∧ (n ∈ before ∨ n ∈ seen) ∧
      e = .duplicateName n := by
  induction ns generalizing seen with
  | nil => simp [checkDistinctNames]
  | cons k ns ih =>
    rw [checkDistinctNames, check_bind_eq_error, require_eq_error_iff, Bool.not_eq_false',
      List.contains_iff_mem, exists_split_cons_iff]
    by_cases hk : k ∈ seen
    · have hrequire : require (!seen.contains k) (.duplicateName k) ≠ .ok () := by
        simpa [require_eq_ok] using hk
      simp only [hrequire, List.forall_mem_cons]
      simp [hk]
    · have hrequire : require (!seen.contains k) (.duplicateName k) = .ok () := by
        simpa [require_eq_ok] using hk
      -- a name in front counts as seen
      have hbefore {before : List String} {n : String} :
          (before.Nodup ∧ (∀ m ∈ before, m ∉ k :: seen) ∧ (n ∈ before ∨ n ∈ k :: seen) ∧
              e = .duplicateName n) ↔
            (k :: before).Nodup ∧ (∀ m ∈ k :: before, m ∉ seen) ∧
              (n ∈ k :: before ∨ n ∈ seen) ∧ e = .duplicateName n := by
        have hapart : (∀ m ∈ before, m ≠ k) ↔ k ∉ before :=
          ⟨fun h hmem => h k hmem rfl, fun h m hm heq => h (heq ▸ hm)⟩
        simp only [List.nodup_cons, List.forall_mem_cons]
        simp only [List.mem_cons, not_or, forall_and, hapart]
        tauto
      simp only [hrequire, ih, hbefore]
      simp [hk]

lemma exists_of_checkDistinctValues_eq_error {cs : List Constant}
    (h : checkDistinctValues cs = .error e) : ∃ before a b after, cs = before ++ a :: b :: after ∧
      (before ++ [a]).IsChain (fun a b => a.value ≠ b.value) ∧ a.value = b.value ∧
      e = .duplicateValue a.name b.name a.value := by
  fun_induction checkDistinctValues cs with
  | case1 a b cs ih =>
    rcases check_bind_eq_error.mp h with h | ⟨hne, h⟩
    · obtain ⟨heq, rfl⟩ := require_eq_error_iff.mp h
      exact ⟨[], a, b, cs, rfl, List.isChain_singleton a, by simpa using heq, rfl⟩
    · obtain ⟨before, a', b', after, hsplit, hchain, heq, he⟩ := ih h
      refine ⟨a :: before, a', b', after, congrArg _ hsplit, ?_, heq, he⟩
      refine List.isChain_cons.mpr ⟨fun c hc => ?_, hchain⟩
      have hb : c = b := by
        cases before with
        | nil => cases hsplit; simpa [eq_comm] using hc
        | cons d before => cases hsplit; simpa [eq_comm] using hc
      subst hb
      simpa using require_eq_ok.mp hne
  | case2 cs => cases h

lemma checkRange_eq_error_iff {storage : String} {cs : List Constant} :
    checkRange storage cs = .error e ↔ ∃ low high c,
      Storage.range? storage = some (low, high) ∧
      cs.find? (fun c => c.value.toInt < low ∨ high < c.value.toInt) = some c ∧
      e = .outOfRange c.name c.value storage := by
  unfold checkRange
  split
  · next h => simp [h]
  · next low high h =>
    have hbad : ∀ c ∈ cs, require (low ≤ c.value.toInt && c.value.toInt ≤ high)
        (.outOfRange c.name c.value storage) = .ok () ↔
        decide (c.value.toInt < low ∨ high < c.value.toInt) = false := by
      intro c _
      rw [require_eq_ok, decide_eq_false_iff_not, Bool.and_eq_true, decide_eq_true_eq,
        decide_eq_true_eq]
      omega
    rw [forM_eq_error_iff hbad]
    constructor
    · rintro ⟨c, hc, he⟩
      exact ⟨low, high, c, h, hc, (require_eq_error_iff.mp he).2⟩
    · rintro ⟨l, u, c, hrange, hc, rfl⟩
      obtain ⟨rfl, rfl⟩ := Prod.mk.inj (Option.some.inj (h.symm.trans hrange))
      refine ⟨c, hc, require_eq_error_iff.mpr ⟨?_, rfl⟩⟩
      have hout := List.find?_some hc
      rw [decide_eq_true_eq] at hout
      rw [Bool.eq_false_iff, Ne, Bool.and_eq_true, decide_eq_true_eq, decide_eq_true_eq]
      omega

end Validation

/-! ### Shared values -/

namespace Constant

/-- The constant comes before the other one, by value or, if they have one value, by name. -/
structure Precedes (a b : Constant) : Prop where
  value : a.value = b.value ∨ a.value.less b.value
  name : a.value = b.value → Text.less a.name b.name

lemma precedes_of_le {a b : Constant} (h : a.le b) (hne : a.name ≠ b.name) : a.Precedes b := by
  rcases (le_iff a b).mp h with hless | ⟨heq, hname⟩
  · exact ⟨.inr hless, fun heq => absurd heq (Value.ne_of_less hless)⟩
  · refine ⟨.inl heq, fun _ => ?_⟩
    by_contra hnot
    exact hne (Text.eq_of_not_less (by simpa using hnot) hname)

end Constant

namespace WrittenValues

/-- `m` and `n` are the two least names for `v`, which is the least value that two names have. -/
structure LeastShared (vs : WrittenValues) (m n : String) (v : Value) : Prop where
  first : (m, some v) ∈ vs.entries
  second : (n, some v) ∈ vs.entries
  ordered : Text.less m n
  names : ∀ k, (k, some v) ∈ vs.entries → k = m ∨ k = n ∨ Text.less n k
  value : ∀ a b u, (a, some u) ∈ vs.entries → (b, some u) ∈ vs.entries → a ≠ b → ¬ u.less v

lemma LeastShared.ne {vs : WrittenValues} {m n : String} {v : Value} (h : vs.LeastShared m n v) :
    m ≠ n := by
  rintro rfl
  have hself := h.ordered
  rw [Text.less_irrefl] at hself
  cases hself

/-- No other value and no other names are the least. -/
lemma LeastShared.unique {vs : WrittenValues} {m n m' n' : String} {v v' : Value}
    (h : vs.LeastShared m n v) (h' : vs.LeastShared m' n' v') : m = m' ∧ n = n' ∧ v = v' := by
  obtain rfl : v = v' := by
    refine Value.eq_of_not_less ?_ ?_
    · simpa using h'.value m n v h.first h.second h.ne
    · simpa using h.value m' n' v' h'.first h'.second h'.ne
  have habsurd {a b : String} (hab : Text.less a b) (hba : Text.less b a) : False := by
    rw [Text.less_asymm hab] at hba
    cases hba
  -- a least name that is not the other one would be behind it
  have hfirst {a b a' b' : String} (h : vs.LeastShared a b v) (h' : vs.LeastShared a' b' v)
      (hne : a ≠ a') : Text.less a a' := by
    rcases h.names a' h'.first with heq | rfl | hless
    · exact absurd heq.symm hne
    · exact h.ordered
    · exact Text.less_trans h.ordered hless
  obtain rfl : m = m' := by
    by_contra hne
    exact habsurd (hfirst h h' hne) (hfirst h' h (Ne.symm hne))
  have hsecond {b b' : String} (h : vs.LeastShared m b v) (h' : vs.LeastShared m b' v)
      (hne : b ≠ b') : Text.less b b' := by
    rcases h.names b' h'.second with heq | heq | hless
    · exact absurd heq.symm h'.ne
    · exact absurd heq.symm hne
    · exact hless
  refine ⟨rfl, ?_, rfl⟩
  by_contra hne
  exact habsurd (hsecond h h' hne) (hsecond h' h (Ne.symm hne))

variable {vs : WrittenValues} (hn : vs.labels.Nodup) (ha : vs.AsciiTexts)

include hn ha

lemma mem_entries_iff {n : String} {v : Value} :
    (n, some v) ∈ vs.entries ↔ ⟨n, v⟩ ∈ vs.constants := by
  rw [← (perm_entries_of_rules hn ha).mem_iff, List.mem_map]
  constructor
  · rintro ⟨c, hc, heq⟩
    cases heq
    exact hc
  · exact fun hc => ⟨_, hc, rfl⟩

/-- The constants ascend by value and, where they have one value, by name. -/
lemma pairwise_precedes : vs.constants.Pairwise Constant.Precedes := by
  have hperm := (perm_entries_of_rules hn ha).map Prod.fst
  rw [map_fst_entries, List.map_map] at hperm
  have hnames : vs.constants.Pairwise fun a b => a.name ≠ b.name :=
    List.pairwise_map.mp (hperm.nodup_iff.mpr hn)
  exact ((pairwise_le hn).and hnames).imp fun h => Constant.precedes_of_le h.1 h.2

/-- The first neighbours with one value share the least value that is shared: no constant in front of
them shares its own. -/
lemma leastShared_of_neighbours {before after : List Constant} {a b : Constant}
    (hsplit : vs.constants = before ++ a :: b :: after)
    (hchain : (before ++ [a]).IsChain fun a b => a.value ≠ b.value) (heq : a.value = b.value) :
    vs.LeastShared a.name b.name a.value := by
  have hmem {n : String} {v : Value} : (n, some v) ∈ vs.entries ↔
      ⟨n, v⟩ ∈ before ∨ ⟨n, v⟩ = a ∨ ⟨n, v⟩ = b ∨ ⟨n, v⟩ ∈ after := by
    rw [mem_entries_iff hn ha, hsplit, List.mem_append, List.mem_cons, List.mem_cons]
  have hle := pairwise_le hn
  have hprecedes := pairwise_precedes hn ha
  have hfront : before ++ a :: b :: after = (before ++ [a]) ++ b :: after := by simp
  rw [hsplit] at hprecedes
  rw [hsplit, hfront] at hle
  obtain ⟨-, hbehind, -⟩ := List.pairwise_append.mp hprecedes
  obtain ⟨hfromA, hbehind'⟩ := List.pairwise_cons.mp hbehind
  have hfromB := (List.pairwise_cons.mp hbehind').1
  have hasc := pairwise_less_of_isChain_ne (List.pairwise_append.mp hle).1 hchain
  obtain ⟨hasc', -, hless⟩ := List.pairwise_append.mp hasc
  refine ⟨hmem.mpr (.inr (.inl rfl)), hmem.mpr (.inr (.inr (.inl ?_))), ?_, fun k hk => ?_,
    fun k l u hk hl hne hlt => ?_⟩
  · rw [heq]
  · exact (hfromA b List.mem_cons_self).name heq
  · rcases hmem.mp hk with hk | hk | hk | hk
    · exact absurd rfl (Value.ne_of_less (hless _ hk a List.mem_cons_self))
    · exact .inl (congrArg Constant.name hk)
    · exact .inr (.inl (congrArg Constant.name hk))
    · exact .inr (.inr ((hfromB _ hk).name heq.symm))
  · have hinFront {n : String} (h : (n, some u) ∈ vs.entries) : ⟨n, u⟩ ∈ before := by
      have hnot {c : Constant} (hc : a.value = c.value ∨ a.value.less c.value) : c.value ≠ u := by
        rintro rfl
        rcases hc with hc | hc
        · exact Value.ne_of_less hlt hc.symm
        · rw [Value.less_asymm hc] at hlt
          cases hlt
      rcases hmem.mp h with h | rfl | rfl | h
      · exact h
      · exact absurd rfl (hnot (.inl rfl))
      · exact absurd rfl (hnot (.inl heq))
      · exact absurd rfl (hnot (hfromA _ (List.mem_cons_of_mem _ h)).value)
    have hvalues : (before.map Constant.value).Nodup :=
      List.pairwise_map.mpr (hasc'.imp Value.ne_of_less)
    exact hne (congrArg Constant.name
      (List.inj_on_of_nodup_map hvalues (hinFront hk) (hinFront hl) rfl))

/-- The comparison of neighbours finds the least shared value and the two least names for it. -/
theorem checkDistinctValues_eq_error_iff {e : DefinitionError} :
    checkDistinctValues vs.constants = .error e ↔
      ∃ m n v, vs.LeastShared m n v ∧ e = .duplicateValue m n v := by
  have hfound {e : DefinitionError} (he : checkDistinctValues vs.constants = .error e) :
      ∃ m n v, vs.LeastShared m n v ∧ e = .duplicateValue m n v := by
    obtain ⟨before, a, b, after, hsplit, hchain, heq, rfl⟩ :=
      exists_of_checkDistinctValues_eq_error he
    exact ⟨_, _, _, leastShared_of_neighbours hn ha hsplit hchain heq, rfl⟩
  refine ⟨hfound, ?_⟩
  rintro ⟨m, n, v, hshared, rfl⟩
  cases hcheck : checkDistinctValues vs.constants with
  | ok u =>
    have hnodup := (isChain_ne_iff_nodup hn ha).mp (checkDistinctValues_eq_ok.mp hcheck)
    have hentries := List.inj_on_of_nodup_map hnodup hshared.first hshared.second rfl
    exact absurd (congrArg Prod.fst hentries) hshared.ne
  | error e =>
    obtain ⟨m', n', v', hshared', rfl⟩ := hfound hcheck
    obtain ⟨rfl, rfl, rfl⟩ := hshared.unique hshared'
    rfl

end WrittenValues

/-! ### The rules in their order -/

/-- What the definition must keep to. -/
inductive Rule
  | values | typeName | scope | stem | constantNames | oneKind | asciiTexts | distinctNames
  | distinctValues | range | storage
  deriving DecidableEq

/-- The order in which the rules are tried. -/
def Rule.order : List Rule := [.values, .typeName, .scope, .stem, .constantNames, .oneKind,
  .asciiTexts, .distinctNames, .distinctValues, .range, .storage]

namespace Definition

/-- The values as written; a definition without values has an empty list of names. -/
def written (d : Definition) : WrittenValues := d.values.getD (.names [])

/-- The definition breaks the rule, and the error names what breaks it. -/
def Breaks (d : Definition) : Rule → DefinitionError → Prop
  | .values, e => d.written.entries = [] ∧ e = .noValues
  | .typeName, e => ¬ isIdentifier d.name ∧ e = .badName .typeName d.name
  | .scope, e => ∃ s, d.scope.find? (!isIdentifier ·) = some s ∧ e = .badName .scopeSegment s
  | .stem, e => ¬ isFileStem d.fileStem ∧ e = .badName .fileStem d.fileStem
  | .constantNames, e =>
    ∃ n, d.written.labels.find? (!isIdentifier ·) = some n ∧ e = .badName .constant n
  | .oneKind, e => ∃ ps first n w, d.written = .mapping ps ∧ ps.head? = some first ∧
    ps.find? (fun p => p.2.kind ≠ first.2.kind) = some (n, w) ∧
    e = .mixedKinds first.2.kind w.kind n
  | .asciiTexts, e => ∃ ps n s, d.written = .mapping ps ∧
    ps.find? (!·.2.isPlain) = some (n, .text s) ∧ e = .notAsciiChar n s
  | .distinctNames, e => ∃ before n after, d.written.labels = before ++ n :: after ∧
    before.Nodup ∧ n ∈ before ∧ e = .duplicateName n
  | .distinctValues, e => ∃ m n v, d.written.LeastShared m n v ∧ e = .duplicateValue m n v
  | .range, e => ∃ low high c, Storage.range? (d.storage.getD "int") = some (low, high) ∧
    d.written.constants.find? (fun c => c.value.toInt < low ∨ high < c.value.toInt) = some c ∧
    e = .outOfRange c.name c.value (d.storage.getD "int")
  | .storage, e => ∃ s, d.storage = some s ∧ ¬ isTypeName (Text.trim s) ∧ e = .badStorage s

/-- The check of one rule. -/
def checkRule (d : Definition) : Rule → Check
  | .values => require (!d.written.isEmpty) .noValues
  | .typeName => checkName .typeName d.name
  | .scope => d.scope.forM (checkName .scopeSegment)
  | .stem => require (isFileStem d.fileStem) (.badName .fileStem d.fileStem)
  | .constantNames => d.written.labels.forM (checkName .constant)
  | .oneKind =>
    match d.written with
    | .names _ => .ok ()
    | .mapping ps => checkKinds ps
  | .asciiTexts =>
    match d.written with
    | .names _ => .ok ()
    | .mapping ps => checkChars ps
  | .distinctNames => checkDistinctNames [] d.written.labels
  | .distinctValues => checkDistinctValues d.written.constants
  | .range => checkRange (d.storage.getD "int") d.written.constants
  | .storage => d.storage.forM fun s => require (isTypeName (Text.trim s)) (.badStorage s)

/-- A definition is checked rule by rule. -/
lemma check_eq_forM (d : Definition) :
    d.check = Rule.order.forM d.checkRule >>= fun _ => .ok ⟨d, d.written.constants⟩ := by
  cases hd : d.values with
  | none =>
    have hwritten : d.written = .names [] := by rw [written, hd, Option.getD_none]
    simp only [check, hd, Rule.order, List.forM_eq_forM, List.forM_cons, checkRule, hwritten]
    rfl
  | some vs =>
    have hwritten : d.written = vs := by rw [written, hd, Option.getD_some]
    have hkinds : checkWritten vs = d.checkRule .oneKind >>= fun _ => d.checkRule .asciiTexts := by
      simp only [checkRule, hwritten]
      cases vs <;> rfl
    simp only [check, hd, hkinds, Rule.order, List.forM_eq_forM, List.forM_cons, List.forM_nil,
      bind_assoc]
    simp only [checkRule, hwritten, pure_bind]
    rfl

/-- Each rule is broken just when its check fails, provided that those that are needed to read the
constants are kept. -/
lemma checkRule_eq_error_iff {d : Definition} {r : Rule} {e : DefinitionError}
    (h : r = .distinctValues → d.written.AsciiTexts ∧ d.written.labels.Nodup) :
    d.checkRule r = .error e ↔ d.Breaks r e := by
  cases r with
  | values =>
    have hempty : d.written.isEmpty = true ↔ d.written.entries = [] := by
      rw [← not_iff_not, Bool.not_eq_true, isEmpty_eq_false_iff]
    rw [checkRule, require_eq_error_iff, Bool.not_eq_false', hempty, Breaks]
  | typeName => rw [checkRule, checkName, require_eq_error_iff, ← Bool.not_eq_true, Breaks]
  | scope => exact forM_checkName_eq_error_iff
  | stem => rw [checkRule, require_eq_error_iff, ← Bool.not_eq_true, Breaks]
  | constantNames => exact forM_checkName_eq_error_iff
  | oneKind =>
    cases hps : d.written with
    | names ns => simp [checkRule, Breaks, hps]
    | mapping ps => simp only [checkRule, Breaks, hps, checkKinds_eq_error_iff,
        WrittenValues.mapping.injEq, exists_and_left, exists_eq_left']
  | asciiTexts =>
    cases hps : d.written with
    | names ns => simp [checkRule, Breaks, hps]
    | mapping ps => simp only [checkRule, Breaks, hps, checkChars_eq_error_iff,
        WrittenValues.mapping.injEq, exists_and_left, exists_eq_left']
  | distinctNames => simp [checkRule, Breaks, checkDistinctNames_eq_error_iff]
  | distinctValues =>
    obtain ⟨htexts, hnames⟩ := h rfl
    exact WrittenValues.checkDistinctValues_eq_error_iff hnames htexts
  | range => rw [checkRule, checkRange_eq_error_iff, Breaks]
  | storage =>
    cases hs : d.storage with
    | none => simp [checkRule, Breaks, hs, pure, Except.pure]
    | some s => simp [checkRule, Breaks, hs, require_eq_error_iff]

/-- Where the values are looked at for shared ones, each text is one character and each name is
written once. -/
lemma readable_of_checkRule {d : Definition} {before after : List Rule}
    (hsplit : Rule.order = before ++ .distinctValues :: after)
    (hbefore : ∀ q ∈ before, d.checkRule q = .ok ()) :
    d.written.AsciiTexts ∧ d.written.labels.Nodup := by
  have horder : Rule.order = [Rule.values, .typeName, .scope, .stem, .constantNames, .oneKind,
      .asciiTexts, .distinctNames] ++ Rule.distinctValues :: [Rule.range, .storage] := rfl
  obtain ⟨rfl, -, -⟩ := (List.append_cons_inj_of_notMem (by decide) (by decide)).mp
    (horder.symm.trans hsplit)
  have htexts := hbefore .asciiTexts (by decide)
  have hnames := hbefore .distinctNames (by decide)
  rw [checkRule] at hnames
  refine ⟨?_, (checkDistinctNames_eq_ok.mp hnames).1⟩
  cases hps : d.written with
  | names ns => trivial
  | mapping ps =>
    simp only [checkRule, hps] at htexts
    exact checkChars_eq_ok.mp htexts

/-- **Refusal**: a refused definition gets the error of the first rule that it breaks, and the error
names the first name or value that breaks this rule, or the least values that share something. -/
theorem check_eq_error_iff (d : Definition) (e : DefinitionError) :
    d.check = .error e ↔ ∃ before r after, Rule.order = before ++ r :: after ∧ d.Breaks r e ∧
      ∀ q ∈ before, ∀ f, ¬ d.Breaks q f := by
  have hvalues : (Rule.order.forM d.checkRule >>= fun _ =>
      (.ok ⟨d, d.written.constants⟩ : Except DefinitionError Enumeration)) = .error e ↔
        Rule.order.forM d.checkRule = .error e := by
    rw [check_bind_eq_error]
    simp
  rw [check_eq_forM, hvalues]
  refine forM_eq_error_iff_split fun before r after hsplit hbefore f => ?_
  refine checkRule_eq_error_iff ?_
  rintro rfl
  exact readable_of_checkRule hsplit hbefore

end Definition

end EnumForge
