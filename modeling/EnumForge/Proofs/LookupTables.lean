import EnumForge.Lookup
import EnumForge.Proofs.Acceptance

/-!
Both searches are exact. On any list of constants the table by name is its only stable sort, and a
look-up finds the first constant with the name. On the tables of an accepted enumeration, looking a
name up and naming a value undo one another on the declared constants, and nothing else is found.
-/

namespace EnumForge

namespace Lookup

/-! ### The table by name -/

/-- The table by name is sorted by the comparison of names. -/
lemma byName_ofConstants (cs : List Constant) :
    (ofConstants cs).byName = cs.mergeSort fun a b => (Text.order a.name b.name).isLE := by
  simp only [ofConstants, Text.isLE_order]

lemma byName_trans (a b c : Constant) (hab : (Text.order a.name b.name).isLE)
    (hbc : (Text.order b.name c.name).isLE) : (Text.order a.name c.name).isLE :=
  Std.TransCmp.isLE_trans hab hbc

lemma byName_total (a b : Constant) :
    (Text.order a.name b.name).isLE || (Text.order b.name a.name).isLE := by
  rw [Text.isLE_order, Text.isLE_order]
  cases hba : Text.less b.name a.name with
  | false => rfl
  | true => simp [Text.less_asymm hba]

lemma perm_byName (cs : List Constant) : (ofConstants cs).byName.Perm cs := List.mergeSort_perm _ _

lemma sorted_byName (cs : List Constant) :
    (ofConstants cs).byName.Pairwise fun a b => Text.less b.name a.name = false := by
  rw [byName_ofConstants]
  refine (List.pairwise_mergeSort byName_trans byName_total cs).imp fun hab => ?_
  rwa [Text.isLE_order, Bool.not_eq_true'] at hab

/-- Sorting leaves the constants with one name in their order. -/
lemma filter_byName (cs : List Constant) (n : String) :
    ((ofConstants cs).byName.filter fun c => c.name = n) = cs.filter fun c => c.name = n := by
  have hname : (cs.filter fun c => c.name = n).Pairwise
      fun a b => (Text.order a.name b.name).isLE := by
    refine List.pairwise_of_forall_mem_list fun a ha b hb => ?_
    have ha' : a.name = n := of_decide_eq_true (List.mem_filter.mp ha).2
    have hb' : b.name = n := of_decide_eq_true (List.mem_filter.mp hb).2
    rw [ha', hb', Text.isLE_order, Text.less_irrefl, Bool.not_false]
  have hsublist := (List.sublist_mergeSort byName_trans byName_total hname
    List.filter_sublist).filter fun c => c.name = n
  rw [← byName_ofConstants, List.filter_filter] at hsublist
  simp only [Bool.and_self] at hsublist
  exact (hsublist.eq_of_length ((perm_byName cs).filter _).length_eq.symm).symm

/-- The table holds the constants in the order of their names, and those with one name in the order
of the list. -/
structure SortsByName (cs table : List Constant) : Prop where
  perm : table.Perm cs
  sorted : table.Pairwise fun a b => Text.less b.name a.name = false
  stable : ∀ n, (table.filter fun c => c.name = n) = cs.filter fun c => c.name = n

lemma mem_of_filter_eq {s t : List Constant}
    (h : ∀ n, (s.filter fun c => c.name = n) = t.filter fun c => c.name = n) {c : Constant}
    (hc : c ∈ s) : c ∈ t := by
  have hmem : c ∈ s.filter fun d => d.name = c.name := by simpa using hc
  rw [h] at hmem
  exact List.mem_of_mem_filter hmem

/-- Two sorted tables that hold the same constants of each name, in the same order, are one table. -/
lemma eq_of_filter_eq {s t : List Constant}
    (hs : s.Pairwise fun a b => Text.less b.name a.name = false)
    (ht : t.Pairwise fun a b => Text.less b.name a.name = false)
    (h : ∀ n, (s.filter fun c => c.name = n) = t.filter fun c => c.name = n) : s = t := by
  induction s generalizing t with
  | nil =>
    rw [eq_comm, List.eq_nil_iff_forall_not_mem]
    exact fun c hc => List.not_mem_nil (mem_of_filter_eq (fun n => (h n).symm) hc)
  | cons a s ih =>
    have ha := mem_of_filter_eq h List.mem_cons_self
    cases t with
    | nil => cases ha
    | cons b t =>
      have hb := mem_of_filter_eq (fun n => (h n).symm) List.mem_cons_self
      obtain ⟨hfirst, hs'⟩ := List.pairwise_cons.mp hs
      obtain ⟨hfirst', ht'⟩ := List.pairwise_cons.mp ht
      -- neither name is less than the other one, so both constants are the first of their name
      have hname : a.name = b.name := by
        rcases List.mem_cons.mp ha with rfl | ha
        · rfl
        · rcases List.mem_cons.mp hb with rfl | hb
          · rfl
          · exact Text.eq_of_not_less (hfirst' a ha) (hfirst b hb)
      have hfilter := h a.name
      rw [List.filter_cons_of_pos (by simp), List.filter_cons_of_pos (by simp [hname])] at hfilter
      obtain ⟨rfl, -⟩ := List.cons.inj hfilter
      refine congrArg (a :: ·) (ih hs' ht' fun n => ?_)
      have hn := h n
      rw [List.filter_cons, List.filter_cons] at hn
      split at hn
      · exact (List.cons.inj hn).2
      · exact hn

/-- There is only one way to sort by name. -/
lemma sortsByName_iff {cs table : List Constant} :
    SortsByName cs table ↔ table = (ofConstants cs).byName := by
  constructor
  · intro h
    exact eq_of_filter_eq h.sorted (sorted_byName cs) fun n => by rw [h.stable, filter_byName]
  · rintro rfl
    exact ⟨perm_byName cs, sorted_byName cs, filter_byName cs⟩

/-- The names that are less than another one come first. -/
lemma any_less_front {table : List Constant}
    (h : table.Pairwise fun a b => Text.less b.name a.name = false) (n : String) (i j : Nat)
    (hij : i ≤ j) (hj : table.toArray[j]?.any fun c => Text.less c.name n) :
    table.toArray[i]?.any fun c => Text.less c.name n := by
  rw [List.getElem?_toArray, Option.any_eq_true] at hj ⊢
  obtain ⟨b, hb, hbn⟩ := hj
  obtain ⟨hlt, rfl⟩ := List.getElem?_eq_some_iff.mp hb
  refine ⟨table[i], List.getElem?_eq_getElem (by omega), ?_⟩
  rcases Nat.eq_or_lt_of_le hij with rfl | hij
  · exact hbn
  · exact Text.less_of_not_less_of_less (List.pairwise_iff_getElem.mp h i j _ hlt hij) hbn

/-- Where the names start at one that is not less than another one, the first name decides whether
this other one is there at all. -/
lemma find?_of_head?_not_less {rest : List Constant} {n : String}
    (h : rest.Pairwise fun a b => Text.less b.name a.name = false)
    (hn : ∀ c ∈ rest.head?, Text.less c.name n = false) :
    (rest.find? fun c => c.name = n) =
      rest.head?.bind fun c => if Text.less n c.name then none else some c := by
  cases rest with
  | nil => rfl
  | cons c rest =>
    obtain ⟨hfirst, -⟩ := List.pairwise_cons.mp h
    rw [List.head?_cons, Option.bind_some]
    cases hless : Text.less n c.name with
    | true =>
      rw [if_pos rfl, List.find?_eq_none]
      intro d hd hdn
      obtain rfl : d.name = n := of_decide_eq_true hdn
      rcases List.mem_cons.mp hd with rfl | hd
      · rw [Text.less_irrefl] at hless
        cases hless
      · rw [hfirst d hd] at hless
        cases hless
    | false =>
      have hcn : c.name = n := Text.eq_of_not_less (hn c rfl) hless
      rw [if_neg Bool.false_ne_true, List.find?_cons_of_pos (by simpa using hcn)]

/-- The search comes to the first constant in the table that has the name. -/
lemma find?_eq_find?_byName (cs : List Constant) (n : String) :
    (ofConstants cs).find? n = (ofConstants cs).byName.find? fun c => c.name = n := by
  have hsorted := sorted_byName cs
  unfold find?
  generalize (ofConstants cs).byName = table at hsorted
  have hcount := lt_countFront_iff (any_less_front hsorted n)
  simp only
  generalize countFront (fun c => Text.less c.name n) table.toArray = k at hcount
  have hfront : (table.take k).find? (fun c => c.name = n) = none := by
    rw [List.find?_eq_none]
    intro c hc hcn
    obtain ⟨i, hi, rfl⟩ := List.mem_take_iff_getElem.mp hc
    have hless := (hcount i).mp (by omega)
    rw [List.getElem?_toArray, List.getElem?_eq_getElem (by omega), Option.any_some,
      of_decide_eq_true hcn, Text.less_irrefl] at hless
    cases hless
  have hplace : (table.drop k).head? = table.toArray[k]? := by
    rw [List.head?_drop, List.getElem?_toArray]
  have hnot : ∀ c ∈ (table.drop k).head?, Text.less c.name n = false := by
    intro c hc
    have hk := (hcount k).not.mp (Nat.lt_irrefl k)
    rw [← hplace, Option.mem_def.mp hc, Option.any_some] at hk
    simpa using hk
  have hbehind := find?_of_head?_not_less hsorted.drop hnot
  rw [hplace] at hbehind
  conv_rhs => rw [← List.take_append_drop k table, List.find?_append, hfront, Option.none_or]
  rw [hbehind]
  cases table.toArray[k]? <;> rfl

/-- The search comes to the first constant in the list that has the name. -/
lemma find?_ofConstants (cs : List Constant) (n : String) :
    (ofConstants cs).find? n = cs.find? fun c => c.name = n := by
  rw [find?_eq_find?_byName, ← List.head?_filter, filter_byName, List.head?_filter]

/-- **Any list of constants**: whatever values and names it has, its table by name is the only one
that sorts it by name, and a look-up finds the first constant in the list that has the name. -/
theorem find?_eq_first (cs : List Constant) :
    (∀ table, SortsByName cs table ↔ table = (ofConstants cs).byName) ∧
    (∀ n, (ofConstants cs).find? n = (ofConstants cs).declared.find? fun c => c.name = n) ∧
    (ofConstants cs).declared = cs ∧
    ∀ n, (ofConstants cs).find? n = none ↔ ∀ c ∈ cs, c.name ≠ n := by
  refine ⟨fun table => sortsByName_iff, find?_ofConstants cs, rfl, fun n => ?_⟩
  rw [find?_ofConstants, List.find?_eq_none]
  simp only [decide_eq_true_eq, ne_eq]

example : (ofConstants [⟨"B", .integer 7⟩, ⟨"A", .integer 9⟩, ⟨"B", .integer 3⟩]).find? "B" =
    some ⟨"B", .integer 7⟩ := by cbv

/-! ### The table by value -/

/-- Behind a value that is too great there are only such values. -/
lemma any_above_mono {cs : List Constant} (h : cs.Pairwise fun a b => a.value.less b.value)
    (v : Value) (i j : Nat) (hij : i ≤ j) (hj : j < 0 + cs.toArray.size)
    (hi : cs.toArray[i]?.any fun c => v.less c.value) :
    cs.toArray[j]?.any fun c => v.less c.value := by
  have hj' : j < cs.length := by simpa using hj
  rw [List.getElem?_toArray, Option.any_eq_true] at hi ⊢
  obtain ⟨a, ha, hva⟩ := hi
  obtain ⟨hlt, rfl⟩ := List.getElem?_eq_some_iff.mp ha
  refine ⟨cs[j], List.getElem?_eq_getElem hj', ?_⟩
  rcases Nat.eq_or_lt_of_le hij with rfl | hij
  · exact hva
  · exact Value.less_trans hva (List.pairwise_iff_getElem.mp h i j hlt hj' hij)

lemma nameOf?_eq_some_iff {cs : List Constant} (h : cs.Pairwise fun a b => a.value.less b.value)
    {n : String} {v : Value} : (ofConstants cs).nameOf? v = some n ↔ ⟨n, v⟩ ∈ cs := by
  have hbound := narrow_boundary 0 cs.toArray.size (any_above_mono h v)
  have hlt := narrow_lt (fun i => cs.toArray[i]?.any fun c => v.less c.value) 0 cs.toArray.size
  simp only [nameOf?, ofConstants]
  generalize narrow (fun i => cs.toArray[i]?.any fun c => v.less c.value) 0 cs.toArray.size = k
    at hbound hlt
  obtain ⟨hk, habove⟩ := hbound
  constructor
  · intro hsome
    split at hsome
    · next c hc =>
      split at hsome
      · next hv =>
        cases hsome
        cases hv
        rw [List.getElem?_toArray] at hc
        exact List.mem_of_getElem? hc
      · cases hsome
    · cases hsome
  · intro hmem
    obtain ⟨i, hi, hci⟩ := List.getElem_of_mem hmem
    have hklt : k < cs.length := by simpa using hlt (by simp; omega)
    -- the place is that of the constant: what is before is less, what is behind is greater
    have hki : k = i := by
      rcases Nat.lt_trichotomy k i with hlt | heq | hlt
      · have := habove i hlt (by simpa using hi)
        simp [List.getElem?_toArray, List.getElem?_eq_getElem hi, hci, Value.less_irrefl] at this
      · exact heq
      · have hless := List.pairwise_iff_getElem.mp h i k hi hklt hlt
        rw [hci] at hless
        rcases hk with rfl | hk
        · omega
        · simp [List.getElem?_toArray, List.getElem?_eq_getElem hklt, hless] at hk
    subst hki
    simp [List.getElem?_toArray, List.getElem?_eq_getElem hi, hci]

/-! ### Accepted enumerations -/

section

variable {cs : List Constant} (hn : (cs.map Constant.name).Nodup)
include hn

lemma eq_of_name_eq {a b : Constant} (ha : a ∈ cs) (hb : b ∈ cs) (h : a.name = b.name) : a = b :=
  List.inj_on_of_nodup_map hn ha hb h

lemma find?_eq_some_iff {n : String} {c : Constant} :
    (ofConstants cs).find? n = some c ↔ c ∈ cs ∧ c.name = n := by
  rw [find?_ofConstants]
  constructor
  · intro hfind
    exact ⟨List.mem_of_find?_eq_some hfind, by simpa using List.find?_some hfind⟩
  · rintro ⟨hc, rfl⟩
    obtain ⟨d, hd⟩ := Option.isSome_iff_exists.mp
      (List.find?_isSome (p := fun d => d.name = c.name).mpr ⟨c, hc, decide_eq_true rfl⟩)
    have hname : d.name = c.name := by simpa using List.find?_some hd
    rw [hd, eq_of_name_eq hn (List.mem_of_find?_eq_some hd) hc hname]

lemma ascending_byName : (ofConstants cs).byName.Pairwise fun a b => Text.less a.name b.name := by
  have hnodup : ((ofConstants cs).byName.map Constant.name).Nodup :=
    ((perm_byName cs).map Constant.name).nodup_iff.mpr hn
  refine (sorted_byName cs).imp₂ (fun a b hba hne => ?_) (List.pairwise_map.mp hnodup)
  cases hab : Text.less a.name b.name with
  | true => rfl
  | false => exact absurd (Text.eq_of_not_less hab hba) hne

end

end Lookup

/-- The tables of an enumeration. -/
def Enumeration.tables (e : Enumeration) : Lookup := .ofConstants e.constants

/-- **Look-ups**: a name finds a constant, and its value the name, just when the constant is
declared; the table by name holds the declared constants in the ascending order of their names. -/
theorem Definition.lookups_exact {d : Definition} {e : Enumeration} (h : d.check = .ok e) :
    (∀ n v, (e.tables.find? n = some ⟨n, v⟩ ↔ e.tables.nameOf? v = some n) ∧
      (e.tables.nameOf? v = some n ↔ ⟨n, v⟩ ∈ e.constants)) ∧
    (∀ n c, e.tables.find? n = some c → c.name = n) ∧
    (∀ n, e.tables.find? n = none ↔ ∀ c ∈ e.constants, c.name ≠ n) ∧
    (∀ v, e.tables.nameOf? v = none ↔ ∀ c ∈ e.constants, c.value ≠ v) ∧
    (∀ c ∈ e.constants,
      (e.tables.find? c.name).bind (fun found => e.tables.nameOf? found.value) = some c.name ∧
      (e.tables.nameOf? c.value).bind e.tables.find? = some c) ∧
    e.tables.declared = e.constants ∧ e.tables.byName.Perm e.tables.declared ∧
    e.tables.byName.Pairwise fun a b => Text.less a.name b.name := by
  obtain ⟨-, hvalid⟩ := Enumeration.valid_of_check h
  have hfind {n : String} {c : Constant} :
      e.tables.find? n = some c ↔ c ∈ e.constants ∧ c.name = n :=
    Lookup.find?_eq_some_iff hvalid.distinctNames
  have hname {n : String} {v : Value} : e.tables.nameOf? v = some n ↔ ⟨n, v⟩ ∈ e.constants :=
    Lookup.nameOf?_eq_some_iff hvalid.ascending
  refine ⟨fun n v => ⟨?_, hname⟩, fun n c hc => (hfind.mp hc).2, fun n => ?_, fun v => ?_,
    fun c hc => ⟨?_, ?_⟩, rfl, Lookup.perm_byName _,
    Lookup.ascending_byName hvalid.distinctNames⟩
  · rw [hfind, hname]
    exact and_iff_left rfl
  · rw [Option.eq_none_iff_forall_not_mem]
    exact ⟨fun hnone c hc hcn => hnone c (hfind.mpr ⟨hc, hcn⟩),
      fun hall c hc => hall c (hfind.mp hc).1 (hfind.mp hc).2⟩
  · rw [Option.eq_none_iff_forall_not_mem]
    exact ⟨fun hnone c hc hcv => hnone c.name (hname.mpr (hcv ▸ hc)),
      fun hall n hn => hall ⟨n, v⟩ (hname.mp hn) rfl⟩
  · rw [hfind.mpr ⟨hc, rfl⟩]
    exact hname.mpr hc
  · rw [hname.mpr hc]
    exact hfind.mpr ⟨hc, rfl⟩

theorem lookups_exact_separators :
    separators.check = .ok separatorsEnumeration ∧
      separatorsEnumeration.tables.find? "COMMA" = some ⟨"COMMA", .char ','⟩ ∧
      separatorsEnumeration.tables.nameOf? (.char '\n') = some "BREAK" ∧
      separatorsEnumeration.tables.find? "COMM" = none ∧
      separatorsEnumeration.tables.nameOf? (.integer 44) = none := by
  obtain ⟨hboth, -, hnone, hnone', -⟩ := Definition.lookups_exact check_separators
  refine ⟨check_separators, ?_, ?_, (hnone _).mpr ?_, (hnone' _).mpr ?_⟩
  · exact (hboth _ _).1.mpr ((hboth _ _).2.mpr (by decide))
  · exact (hboth _ _).2.mpr (by decide)
  · decide
  · decide

end EnumForge
