import Mathlib.Data.List.Induction
import Mathlib.Data.List.Nodup
import EnumForge.Declaration
import EnumForge.Proofs.NameOrder

/-!
The constants that written values declare: bare names keep their order and get their positions, a
mapping is sorted by value. Nothing is lost as long as no name is repeated and every text is one
character.
-/

namespace EnumForge

/-! ### The order of values -/

namespace Value

def kind : Value → Kind
  | integer _ => .integer
  | char _ => .character

lemma less_irrefl (a : Value) : a.less a = false := by cases a <;> simp [less]

lemma less_trans {a b c : Value} (hab : a.less b) (hbc : b.less c) : a.less c := by
  cases a <;> cases b <;> cases c <;> simp_all [less] <;> omega

lemma less_asymm {a b : Value} (h : a.less b) : b.less a = false := by
  rw [Bool.eq_false_iff]
  intro h'
  have := less_trans h h'
  rw [less_irrefl] at this
  cases this

lemma ne_of_less {a b : Value} (h : a.less b) : a ≠ b := by
  rintro rfl
  rw [less_irrefl] at h
  cases h

/-- Values that are not ordered either way are equal. -/
lemma eq_of_not_less {a b : Value} (hab : a.less b = false) (hba : b.less a = false) : a = b := by
  cases a <;> cases b <;> simp_all [less]
  · omega
  · exact Char.ext (UInt32.toNat.inj (Nat.le_antisymm hba hab))

/-- Within one kind the order is that of the numbers. -/
lemma less_iff_toInt_lt {a b : Value} (h : a.kind = b.kind) : a.less b ↔ a.toInt < b.toInt := by
  cases a <;> cases b <;> simp_all [less, kind, toInt]

end Value

namespace Constant

lemma le_of_less {a b : Constant} (h : a.value.less b.value) : a.le b := by simp [le, h]

lemma le_total (a b : Constant) : a.le b || b.le a := by
  cases hab : a.value.less b.value with
  | true => simp [le, hab]
  | false =>
    cases hba : b.value.less a.value with
    | true => simp [le, hba]
    | false =>
      have heq := Value.eq_of_not_less hab hba
      cases hn : Text.less b.name a.name with
      | false => simp [le, heq, hn]
      | true => simp [le, heq, hn, Text.less_asymm hn]

lemma le_iff (a b : Constant) :
    a.le b ↔ a.value.less b.value ∨ a.value = b.value ∧ Text.less b.name a.name = false := by
  simp [le]

lemma le_trans (a b c : Constant) (hab : a.le b) (hbc : b.le c) : a.le c := by
  rw [le_iff] at hab hbc ⊢
  rcases hab with hab | ⟨hab, hn⟩
  · rcases hbc with hbc | ⟨hbc, -⟩
    · exact .inl (Value.less_trans hab hbc)
    · exact .inl (hbc ▸ hab)
  · rcases hbc with hbc | ⟨hbc, hn'⟩
    · exact .inl (hab ▸ hbc)
    · exact .inr ⟨hab.trans hbc, Text.not_less_trans hn hn'⟩

/-- Constants that come in both orders have equal values and equal names. -/
lemma le_antisymm {a b : Constant} (hab : a.le b) (hba : b.le a) : a = b := by
  rw [le_iff] at hab hba
  rcases hab with hab | ⟨hvalue, hname⟩
  · rcases hba with hba | ⟨hvalue, -⟩
    · rw [Value.less_asymm hab] at hba
      cases hba
    · exact absurd hvalue.symm (Value.ne_of_less hab)
  · rcases hba with hba | ⟨-, hname'⟩
    · exact absurd hvalue.symm (Value.ne_of_less hba)
    · cases a
      cases b
      cases hvalue
      cases Text.eq_of_not_less hname' hname
      rfl

lemma less_of_le_of_ne {a b : Constant} (h : a.le b) (hne : a.value ≠ b.value) :
    a.value.less b.value := by
  rcases (le_iff a b).mp h with h | ⟨h, -⟩
  · exact h
  · exact absurd h hne

end Constant

/-! ### What is declared -/

namespace WrittenValues

/-- Every written name with the value that it asks for: a bare name with its position, a name in a
mapping with what stands there, if that is a value. -/
def entries : WrittenValues → List (String × Option Value)
  | names ns => ns.zipIdx.map fun (n, i) => (n, some (.integer i))
  | mapping ps => ps.map fun (n, w) => (n, w.value?)

lemma map_fst_entries (vs : WrittenValues) : vs.entries.map Prod.fst = vs.labels := by
  cases vs with
  | names ns => simp [entries, labels, Function.comp_def]
  | mapping ps => simp [entries, labels, Function.comp_def]

/-- A constant as an entry that asks for its value. -/
def ofConstant (c : Constant) : String × Option Value := (c.name, some c.value)

lemma notePosition_of_not_mem {name : String} {i : Nat} {table : List (String × Nat)}
    (h : name ∉ table.map Prod.fst) : notePosition name i table = table ++ [(name, i)] := by
  induction table with
  | nil => rfl
  | cons row table ih =>
    obtain ⟨n, j⟩ := row
    rw [List.map_cons, List.mem_cons, not_or] at h
    rw [notePosition, if_neg (Ne.symm h.1), ih h.2]
    rfl

/-- One more name is noted behind all others. -/
lemma positions_concat (ns : List String) (n : String) :
    positions (ns ++ [n]) = notePosition n ns.length (positions ns) := by
  simp [positions, List.zipIdx_append]

lemma positions_of_nodup {ns : List String} (h : ns.Nodup) : positions ns = ns.zipIdx := by
  induction ns using List.reverseRecOn with
  | nil => rfl
  | append_singleton ns n ih =>
    obtain ⟨hns, -, hdisjoint⟩ := List.nodup_append.mp h
    have hfresh : n ∉ ns.zipIdx.map Prod.fst := by
      rw [List.zipIdx_map_fst]
      exact fun hn => hdisjoint n hn n List.mem_cons_self rfl
    rw [positions_concat, ih hns, notePosition_of_not_mem hfresh]
    simp [List.zipIdx_append]

/-- Constants that have their positions are in order. -/
lemma pairwise_le_zipIdx (ns : List String) :
    (ns.zipIdx.map fun (n, i) => Constant.mk n (.integer i)).Pairwise fun a b => a.le b := by
  have hlt : (ns.zipIdx.map Prod.snd).Pairwise (· < ·) := by
    rw [List.zipIdx_map_snd]
    exact List.pairwise_lt_range'
  refine List.pairwise_map.mpr ((List.pairwise_map.mp hlt).imp fun {a b} hab => ?_)
  exact Constant.le_of_less (by simpa [Value.less] using hab)

lemma constants_names {ns : List String} (h : ns.Nodup) :
    (names ns).constants = ns.zipIdx.map fun (n, i) => ⟨n, .integer i⟩ := by
  rw [constants, positions_of_nodup h]

lemma perm_constants_mapping (ps : List (String × WrittenValue)) :
    (mapping ps).constants.Perm (ps.filterMap fun (n, w) => w.value?.map (Constant.mk n)) :=
  List.mergeSort_perm _ _

lemma pairwise_le_constants (ps : List (String × WrittenValue)) :
    (mapping ps).constants.Pairwise fun a b => a.le b :=
  List.pairwise_mergeSort Constant.le_trans Constant.le_total _

/-- The order on constants is strict enough to leave only one way to sort them. -/
theorem constants_eq_of_perm {ps qs : List (String × WrittenValue)} (h : ps.Perm qs) :
    (mapping ps).constants = (mapping qs).constants := by
  have hperm : (mapping ps).constants.Perm (mapping qs).constants :=
    (perm_constants_mapping ps).trans ((h.filterMap _).trans (perm_constants_mapping qs).symm)
  exact hperm.eq_of_pairwise (fun _ _ _ _ => Constant.le_antisymm) (pairwise_le_constants ps)
    (pairwise_le_constants qs)

/-- What is left out is what has no value. -/
lemma map_ofConstant_filterMap {ps : List (String × WrittenValue)}
    (h : ∀ p ∈ ps, p.2.value?.isSome) :
    (ps.filterMap fun (n, w) => w.value?.map (Constant.mk n)).map ofConstant =
      (mapping ps).entries := by
  induction ps with
  | nil => rfl
  | cons p ps ih =>
    obtain ⟨n, w⟩ := p
    obtain ⟨v, hv⟩ := Option.isSome_iff_exists.mp (h (n, w) List.mem_cons_self)
    have ih' := ih fun q hq => h q (List.mem_cons_of_mem _ hq)
    have hv' : w.value? = some v := hv
    simp only [entries] at ih'
    simp [entries, hv', ofConstant, ← ih']

/-- Every entry becomes one constant. -/
theorem perm_entries {vs : WrittenValues} (hn : vs.labels.Nodup)
    (hv : ∀ n o, (n, o) ∈ vs.entries → o.isSome) :
    (vs.constants.map ofConstant).Perm vs.entries := by
  cases vs with
  | names ns =>
    have hns : ns.Nodup := hn
    rw [constants_names hns]
    simp [entries, ofConstant, Function.comp_def]
  | mapping ps =>
    have hsome : ∀ p ∈ ps, p.2.value?.isSome := fun p hp =>
      hv p.1 _ (List.mem_map.mpr ⟨p, hp, rfl⟩)
    rw [← map_ofConstant_filterMap hsome]
    exact (perm_constants_mapping ps).map ofConstant

end WrittenValues

end EnumForge
