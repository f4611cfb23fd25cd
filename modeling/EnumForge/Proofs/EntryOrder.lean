import EnumForge.Proofs.OutputPaths

/-!
The order in which a mapping is written. It has no say in what is generated, nor in whether
something is: a check that fails on one order fails on all. Only the name that a failure gives may be
another one, where the check stops at the first entry that it does not like.
-/

namespace EnumForge

/-! ### Failures up to the entry they name -/

/-- What a failure is about. -/
inductive FailureKind
  | noValues | mixedKinds | notAsciiChar | duplicateName | duplicateValue | badName | badStorage
  | outOfRange | wrongTableSize | samePath
  deriving DecidableEq

namespace DefinitionError

def kind : DefinitionError → FailureKind
  | noValues => .noValues
  | mixedKinds _ _ _ => .mixedKinds
  | notAsciiChar _ _ => .notAsciiChar
  | duplicateName _ => .duplicateName
  | duplicateValue _ _ _ => .duplicateValue
  | badName _ _ => .badName
  | badStorage _ => .badStorage
  | outOfRange _ _ _ => .outOfRange

/-- The error names an entry for being the first of its sort. -/
def namesFirst : DefinitionError → Bool
  | mixedKinds _ _ _ | notAsciiChar _ _ | duplicateName _ | badName .constant _ => true
  | _ => false

/-- The errors are of one kind, and they are one error unless they name the first entry. -/
def Matches (e f : DefinitionError) : Prop := e.kind = f.kind ∧ (e.namesFirst = false → e = f)

lemma Matches.refl (e : DefinitionError) : e.Matches e := ⟨rfl, fun _ => rfl⟩

end DefinitionError

namespace FailureCause

def kind : FailureCause → FailureKind
  | definition e => e.kind
  | render (.wrongTableSize _ _ _) => .wrongTableSize
  | render (.samePath _) => .samePath

def namesFirst : FailureCause → Bool
  | definition e => e.namesFirst
  | render _ => false

end FailureCause

namespace Validation

/-- Both are values, and these are related, or both are errors, and these match. -/
inductive Alike {α β : Type} (R : α → β → Prop) :
    Except DefinitionError α → Except DefinitionError β → Prop
  | ok {a : α} {b : β} (h : R a b) : Alike R (.ok a) (.ok b)
  | error {e f : DefinitionError} (h : e.Matches f) : Alike R (.error e) (.error f)

namespace Alike

variable {α β γ δ : Type} {R : α → β → Prop} {S : γ → δ → Prop}

lemma refl (x : Except DefinitionError α) : Alike Eq x x := by
  cases x with
  | error e => exact .error (.refl e)
  | ok a => exact .ok rfl

lemma bind {x : Except DefinitionError α} {y : Except DefinitionError β}
    {f : α → Except DefinitionError γ} {g : β → Except DefinitionError δ} (h : Alike R x y)
    (hfg : ∀ a b, R a b → Alike S (f a) (g b)) : Alike S (x >>= f) (y >>= g) := by
  cases h with
  | ok hab => exact hfg _ _ hab
  | error hef => exact .error hef

lemma after {x y : Check} {f : Unit → Except DefinitionError γ} {g : Unit → Except DefinitionError δ}
    (h : Alike Eq x y) (hfg : Alike S (f ()) (g ())) : Alike S (x >>= f) (y >>= g) :=
  h.bind fun _ _ _ => hfg

/-- Checks that can only fail in one way, naming the first entry, are alike if they pass together.
-/
lemma of_kind {x y : Check} {k : FailureKind} (hok : x = .ok () ↔ y = .ok ())
    (hx : ∀ e, x = .error e → e.kind = k ∧ e.namesFirst)
    (hy : ∀ e, y = .error e → e.kind = k ∧ e.namesFirst) : Alike Eq x y := by
  cases x with
  | ok a =>
    rw [← hok.mp rfl]
    exact .refl _
  | error e =>
    cases y with
    | ok b => cases hok.mpr rfl
    | error f =>
      obtain ⟨hkind, hfirst⟩ := hx e rfl
      refine .error ⟨hkind.trans (hy f rfl).1.symm, fun h => ?_⟩
      rw [h] at hfirst
      cases hfirst

end Alike

/-! ### Checks on a mapping in another order -/

lemma exists_of_forM_eq_error {α : Type} {xs : List α} {f : α → Check} {e : DefinitionError}
    (h : xs.forM f = .error e) : ∃ x ∈ xs, f x = .error e := by
  induction xs with
  | nil => cases h
  | cons x xs ih =>
    rw [List.forM_eq_forM, List.forM_cons, bind_eq_error_iff] at h
    rcases h with h | ⟨-, -, h⟩
    · exact ⟨x, List.mem_cons_self, h⟩
    · obtain ⟨x', hmem, hx'⟩ := ih h
      exact ⟨x', List.mem_cons_of_mem _ hmem, hx'⟩

lemma alike_forM {α : Type} {xs ys : List α} (h : xs.Perm ys) {f : α → Check} {k : FailureKind}
    (hf : ∀ x e, f x = .error e → e.kind = k ∧ e.namesFirst) :
    Alike Eq (xs.forM f) (ys.forM f) := by
  have herror : ∀ zs : List α, ∀ e, zs.forM f = .error e → e.kind = k ∧ e.namesFirst := by
    intro zs e he
    obtain ⟨x, -, hx⟩ := exists_of_forM_eq_error he
    exact hf x e hx
  refine .of_kind ?_ (herror xs) (herror ys)
  rw [forM_eq_ok, forM_eq_ok]
  exact forall_congr' fun x => imp_congr_left h.mem_iff

variable {ps qs : List (String × WrittenValue)} (h : ps.Perm qs)

include h

lemma alike_checkKinds : Alike Eq (checkKinds ps) (checkKinds qs) := by
  have herror : ∀ rs e, checkKinds rs = .error e →
      e.kind = .mixedKinds ∧ e.namesFirst := by
    intro rs e he
    cases rs with
    | nil => cases he
    | cons r rs =>
      obtain ⟨q, -, hq⟩ := exists_of_forM_eq_error he
      rw [(require_eq_error_iff.mp hq).2]
      exact ⟨rfl, rfl⟩
  refine .of_kind ?_ (herror ps) (herror qs)
  rw [checkKinds_eq_ok, checkKinds_eq_ok]
  simp only [h.mem_iff]

lemma alike_checkChars : Alike Eq (checkChars ps) (checkChars qs) := by
  refine alike_forM h (k := .notAsciiChar) ?_
  rintro ⟨n, w⟩ e he
  cases w with
  | integer i => cases he
  | text s =>
    rw [(require_eq_error_iff.mp he).2]
    exact ⟨rfl, rfl⟩

lemma alike_checkWritten : Alike Eq (checkWritten (.mapping ps)) (checkWritten (.mapping qs)) :=
  .after (alike_checkKinds h) (alike_checkChars h)

omit h in
lemma alike_checkDistinctNames {ns ms : List String} (h : ns.Perm ms) :
    Alike Eq (checkDistinctNames [] ns) (checkDistinctNames [] ms) := by
  have herror : ∀ ls seen e, checkDistinctNames seen ls = .error e →
      e.kind = .duplicateName ∧ e.namesFirst := by
    intro ls
    induction ls with
    | nil =>
      intro seen e he
      cases he
    | cons l ls ih =>
      intro seen e he
      rcases bind_eq_error_iff.mp he with he | ⟨-, -, he⟩
      · rw [(require_eq_error_iff.mp he).2]
        exact ⟨rfl, rfl⟩
      · exact ih _ e he
  refine .of_kind ?_ (herror ns []) (herror ms [])
  rw [checkDistinctNames_eq_ok, checkDistinctNames_eq_ok, h.nodup_iff]
  simp

end Validation

open Validation

/-! ### Definitions -/

namespace Definition

/-- The checks on a definition agree on both orders, and so do the files that are rendered. -/
lemma alike_check (d : Definition) {ps qs : List (String × WrittenValue)} (h : ps.Perm qs) :
    Alike (fun e₁ e₂ => e₁.render = e₂.render) (d.withMapping ps).check
      (d.withMapping qs).check := by
  have hlabels : (WrittenValues.mapping ps).labels.Perm (WrittenValues.mapping qs).labels :=
    h.map Prod.fst
  have hempty : (WrittenValues.mapping ps).isEmpty = (WrittenValues.mapping qs).isEmpty := by
    rw [WrittenValues.isEmpty, WrittenValues.isEmpty, WrittenValues.size, WrittenValues.size,
      hlabels.length_eq]
  have hnames : Alike Eq ((WrittenValues.mapping ps).labels.forM (checkName .constant))
      ((WrittenValues.mapping qs).labels.forM (checkName .constant)) :=
    alike_forM hlabels (k := .badName) fun n e he => by
      rw [(require_eq_error_iff.mp he).2]
      exact ⟨rfl, rfl⟩
  simp only [check, withMapping, hempty, WrittenValues.constants_eq_of_perm h]
  -- the checks in their order, of which three look at the entries as they are written
  refine .after (.refl _) (.after (.refl _) (.after (.refl _) (.after (.refl _) ?_)))
  refine .after hnames (.after (alike_checkWritten h) (.after (alike_checkDistinctNames hlabels) ?_))
  exact .after (.refl _) (.after (.refl _) (.after (.refl _) (.ok rfl)))

/-- **Order of entries**: however the entries of a mapping are ordered, the same files are generated
or none, and then the failures are of one kind. They are one failure, unless it names the first entry
of its sort. -/
theorem generate_perm (d : Definition) (x : Extensions) {ps qs : List (String × WrittenValue)}
    (h : ps.Perm qs) :
    (∀ files, (d.withMapping ps).generate x = .ok files ↔
      (d.withMapping qs).generate x = .ok files) ∧
    ∀ f, (d.withMapping ps).generate x = .error f →
      ∃ g, (d.withMapping qs).generate x = .error g ∧ g.name = f.name ∧
        g.cause.kind = f.cause.kind ∧ (f.cause.namesFirst = false → g = f) := by
  have halike := d.alike_check h
  have hqualified : (d.withMapping ps).qualifiedName = (d.withMapping qs).qualifiedName := rfl
  unfold generate
  rw [hqualified]
  generalize (d.withMapping ps).check = r at halike
  generalize (d.withMapping qs).check = s at halike
  cases halike with
  | @ok e₁ e₂ hrender =>
    simp only [hrender, implies_true, true_and]
    intro f hf
    exact ⟨f, hf, rfl, rfl, fun _ => rfl⟩
  | @error e f he =>
    refine ⟨by simp, ?_⟩
    rintro _ ⟨⟩
    exact ⟨_, rfl, rfl, he.1.symm, fun hfirst => by rw [he.2 hfirst]⟩

end Definition

/-- Two constants share a value, and there is a third one. -/
def sharedValue : List (String × WrittenValue) :=
  [("TWO", .integer 2), ("PAIR", .integer 2), ("ONE", .integer 1)]

theorem sharedValue_in_any_order :
    sharedValue.Perm sharedValue.reverse ∧
      ∃ f, (separators.withMapping sharedValue).generate {} = .error f ∧
        (separators.withMapping sharedValue.reverse).generate {} = .error f ∧
        f.cause = .definition (.duplicateValue "PAIR" "TWO" (.integer 2)) := by
  have hperm : sharedValue.Perm sharedValue.reverse := (List.reverse_perm _).symm
  have hgenerate : (separators.withMapping sharedValue).generate {} =
      .error ⟨"text::Separator", .definition (.duplicateValue "PAIR" "TWO" (.integer 2))⟩ := by cbv
  obtain ⟨g, hg, -, -, heq⟩ := (separators.generate_perm {} hperm).2 _ hgenerate
  cases heq rfl
  exact ⟨hperm, _, hgenerate, hg, rfl⟩

end EnumForge
