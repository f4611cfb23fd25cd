import EnumForge.Proofs.Acceptance

/-!
The constants of written values to which no rule has been applied. Of a bare name that is repeated
the first position gives the place and the last one the value; of a mapping everything is kept that
has a value, however often it is written, in an order that does not depend on how it was written.
-/

namespace EnumForge

/-! ### Bare names -/

namespace WrittenValues

/-- The name stands at position `i` and at no later one. -/
def LastAt (ns : List String) (n : String) (i : Nat) : Prop :=
  ns[i]? = some n ∧ ∀ j, i < j → ns[j]? ≠ some n

/-- Each name has one row, with its last position, and the rows are in the order in which the names
first appear. -/
structure LastPositions (ns : List String) (table : List (String × Nat)) : Prop where
  names : ∀ n, n ∈ table.map Prod.fst ↔ n ∈ ns
  order : (table.map Prod.fst).Pairwise fun m n => ns.idxOf m < ns.idxOf n
  last : ∀ n i, (n, i) ∈ table ↔ LastAt ns n i

lemma lastAt_concat {ns : List String} {m n : String} {i : Nat} :
    LastAt (ns ++ [m]) n i ↔ if n = m then i = ns.length else LastAt ns n i := by
  have hend : (ns ++ [m])[ns.length]? = some m := List.getElem?_concat_length
  by_cases hn : n = m
  · subst hn
    rw [if_pos rfl]
    constructor
    · rintro ⟨hi, hlast⟩
      have hlt := (List.getElem?_eq_some_iff.mp hi).1
      rw [List.length_append, List.length_singleton] at hlt
      by_contra hne
      exact hlast ns.length (by omega) hend
    · rintro rfl
      refine ⟨hend, fun j hj => ?_⟩
      rw [List.getElem?_eq_none (by simpa using hj)]
      exact (Option.some_ne_none n).symm
  · -- at the end there is another name
    have hbehind (j : Nat) : (ns ++ [m])[j]? = some n ↔ ns[j]? = some n := by
      rcases Nat.lt_trichotomy j ns.length with hj | rfl | hj
      · rw [List.getElem?_append_left hj]
      · rw [hend, List.getElem?_eq_none (Nat.le_refl _)]
        simpa using Ne.symm hn
      · rw [List.getElem?_eq_none (by simpa using hj), List.getElem?_eq_none (by omega)]
    simp only [if_neg hn, LastAt, ne_eq, hbehind]

lemma map_fst_notePosition_of_mem {name : String} {i : Nat} {table : List (String × Nat)}
    (h : name ∈ table.map Prod.fst) :
    (notePosition name i table).map Prod.fst = table.map Prod.fst := by
  induction table with
  | nil => cases h
  | cons row table ih =>
    obtain ⟨n, j⟩ := row
    rw [notePosition]
    split
    · rfl
    · next hne =>
      have hmem := (List.mem_cons.mp h).resolve_left (Ne.symm hne)
      rw [List.map_cons, ih hmem, List.map_cons]

/-- A row is replaced or added for the name alone. -/
lemma mem_notePosition {name n : String} {i j : Nat} {table : List (String × Nat)}
    (h : (table.map Prod.fst).Nodup) :
    (n, j) ∈ notePosition name i table ↔ if n = name then j = i else (n, j) ∈ table := by
  induction table with
  | nil => by_cases hn : n = name <;> simp [notePosition, hn]
  | cons row table ih =>
    obtain ⟨k, l⟩ := row
    obtain ⟨hk, hrest⟩ := List.nodup_cons.mp h
    rw [notePosition]
    split
    · next heq =>
      subst heq
      by_cases hn : n = k
      · subst hn
        have hnot : (n, j) ∉ table := fun hmem => hk (List.mem_map.mpr ⟨(n, j), hmem, rfl⟩)
        simp [hnot]
      · simp [hn]
    · next hne =>
      rw [List.mem_cons, ih hrest, List.mem_cons]
      by_cases hn : n = name
      · simp [hn, Ne.symm hne]
      · simp [hn]

lemma LastPositions.nodup {ns : List String} {table : List (String × Nat)}
    (h : LastPositions ns table) : (table.map Prod.fst).Nodup :=
  h.order.imp fun {m n} hlt heq => by
    rw [heq] at hlt
    exact Nat.lt_irrefl _ hlt

/-- One more name takes the place that it has, or a new one at the end. -/
lemma LastPositions.notePosition {ns : List String} {table : List (String × Nat)}
    (h : LastPositions ns table) (m : String) :
    LastPositions (ns ++ [m]) (notePosition m ns.length table) := by
  have hlast (n : String) (i : Nat) :
      (n, i) ∈ WrittenValues.notePosition m ns.length table ↔ LastAt (ns ++ [m]) n i := by
    rw [mem_notePosition h.nodup, lastAt_concat, h.last]
  have horder : (table.map Prod.fst).Pairwise fun k n =>
      (ns ++ [m]).idxOf k < (ns ++ [m]).idxOf n := by
    refine h.order.imp_of_mem fun {k n} hk hn hlt => ?_
    rwa [List.idxOf_append_of_mem ((h.names k).mp hk), List.idxOf_append_of_mem ((h.names n).mp hn)]
  by_cases hm : m ∈ table.map Prod.fst
  · have hmem := (h.names m).mp hm
    refine ⟨fun n => ?_, ?_, hlast⟩
    · rw [map_fst_notePosition_of_mem hm, h.names, List.mem_append, List.mem_singleton]
      exact (or_iff_left_of_imp fun hn => hn ▸ hmem).symm
    · rwa [map_fst_notePosition_of_mem hm]
  · have hmem : m ∉ ns := fun hns => hm ((h.names m).mpr hns)
    rw [notePosition_of_not_mem hm] at hlast ⊢
    refine ⟨fun n => ?_, ?_, hlast⟩
    · rw [List.map_append, List.mem_append, h.names, List.mem_append, List.map_singleton]
    · rw [List.map_append, List.map_singleton, List.pairwise_append]
      refine ⟨horder, List.pairwise_singleton _ _, fun k hk n hn => ?_⟩
      obtain rfl := List.mem_singleton.mp hn
      have hkns := (h.names k).mp hk
      rw [List.idxOf_append_of_mem hkns, List.idxOf_append_of_notMem hmem]
      exact Nat.lt_add_right _ (List.idxOf_lt_length_of_mem hkns)

theorem lastPositions_positions (ns : List String) : LastPositions ns (positions ns) := by
  induction ns using List.reverseRecOn with
  | nil => exact ⟨by simp [positions], by simp [positions], by simp [positions, LastAt]⟩
  | append_singleton ns m ih =>
    rw [positions_concat]
    exact ih.notePosition m

end WrittenValues

/-! ### Mappings -/

/-- A number, or a text that is one character. -/
def WrittenValue.isSingle : WrittenValue → Bool
  | integer _ => true
  | text s => s.length == 1

/-- How a value is written. -/
def Value.written : Value → WrittenValue
  | integer i => .integer i
  | char c => .text (String.singleton c)

namespace WrittenValue

lemma value?_eq_some_iff {w : WrittenValue} {v : Value} : w.value? = some v ↔ w = v.written := by
  cases w with
  | integer i => cases v <;> simp [value?, Value.written]
  | text s =>
    rw [Validation.value?_text_eq_some]
    cases v with
    | integer i => simp [Value.written]
    | char c => simp [Value.written, ← String.toList_inj]

lemma isSome_value?_iff {w : WrittenValue} : w.value?.isSome ↔ w.isSingle := by
  cases w with
  | integer i => simp [value?, isSingle]
  | text s =>
    simp only [Option.isSome_iff_exists, Validation.value?_text_eq_some, isSingle, beq_iff_eq,
      ← String.length_toList, List.length_eq_one_iff]
    constructor
    · rintro ⟨_, c, hc, -⟩
      exact ⟨c, hc⟩
    · rintro ⟨c, hc⟩
      exact ⟨_, c, hc, rfl⟩

end WrittenValue

/-- The constants may stand in this order: numbers come before characters, each in ascending order,
and constants with one value are in the order of the bytes of their names. -/
inductive Constant.InOrder : Constant → Constant → Prop
  | integers {m n : String} {i j : Int} (h : i < j) : InOrder ⟨m, .integer i⟩ ⟨n, .integer j⟩
  | integerChar {m n : String} {i : Int} {c : Char} : InOrder ⟨m, .integer i⟩ ⟨n, .char c⟩
  | chars {m n : String} {c d : Char} (h : c.toNat < d.toNat) : InOrder ⟨m, .char c⟩ ⟨n, .char d⟩
  | sameValue {m n : String} {v : Value} (h : Text.bytes m ≤ Text.bytes n) : InOrder ⟨m, v⟩ ⟨n, v⟩

lemma Constant.inOrder_of_le {a b : Constant} (h : a.le b) : a.InOrder b := by
  obtain ⟨m, v⟩ := a
  obtain ⟨n, w⟩ := b
  rcases (le_iff _ _).mp h with hless | ⟨heq, hname⟩
  · cases v with
    | integer i =>
      cases w with
      | integer j => exact .integers (by simpa [Value.less] using hless)
      | char c => exact .integerChar
    | char c =>
      cases w with
      | integer j => simp [Value.less] at hless
      | char d => exact .chars (by simpa [Value.less] using hless)
  · cases heq
    exact .sameValue ((Text.not_less_iff _ _).mp hname)

namespace WrittenValues

/-- What is kept is what has a value. -/
lemma map_written_filterMap (ps : List (String × WrittenValue)) :
    (ps.filterMap fun (n, w) => w.value?.map (Constant.mk n)).map
        (fun c => (c.name, c.value.written)) =
      ps.filter fun p => p.2.isSingle := by
  induction ps with
  | nil => rfl
  | cons p ps ih =>
    obtain ⟨n, w⟩ := p
    cases hv : w.value? with
    | none =>
      have hsingle : ¬ w.isSingle := by rw [← WrittenValue.isSome_value?_iff, hv]; simp
      rw [List.filterMap_cons_none (by simp [hv]), ih, List.filter_cons_of_neg (by simpa using hsingle)]
    | some v =>
      have hsingle : w.isSingle := by rw [← WrittenValue.isSome_value?_iff, hv]; rfl
      have hw := WrittenValue.value?_eq_some_iff.mp hv
      rw [List.filterMap_cons_some (by simp [hv]; rfl), List.map_cons, ih,
        List.filter_cons_of_pos (by simpa using hsingle), hw]

/-- **Without any check**: bare names declare each name once, at the place where it first appears and
with its last position; a mapping declares just its entries with a value, repeated ones as often as
they are written, sorted by value and name, and in any order of the entries the same. -/
theorem constants_unchecked :
    (∀ ns, ∃ table, LastPositions ns table ∧
      (names ns).constants = table.map fun (n, i) => ⟨n, .integer i⟩) ∧
    ∀ ps, ((mapping ps).constants.map fun c => (c.name, c.value.written)).Perm
        (ps.filter fun p => p.2.isSingle) ∧
      (mapping ps).constants.Pairwise Constant.InOrder ∧
      ∀ qs, qs.Perm ps → (mapping qs).constants = (mapping ps).constants := by
  refine ⟨fun ns => ⟨positions ns, lastPositions_positions ns, rfl⟩, fun ps => ⟨?_, ?_, ?_⟩⟩
  · rw [← map_written_filterMap]
    exact (perm_constants_mapping ps).map _
  · exact (pairwise_le_constants ps).imp Constant.inOrder_of_le
  · exact fun qs hqs => constants_eq_of_perm hqs

/-- A pair that is written twice, two names for one character, a number behind them, and a text that
is not one character. -/
def mixedEntries : List (String × WrittenValue) :=
  [("B", .text "x"), ("LONG", .text "xy"), ("A", .text "x"), ("N", .integer 7), ("A", .text "x")]

theorem mixedEntries_unchecked :
    (∃ table, LastPositions ["A", "B", "A"] table ∧
      (names ["A", "B", "A"]).constants = table.map fun (n, i) => ⟨n, .integer i⟩) ∧
    mixedEntries.reverse.Perm mixedEntries ∧
    (mapping mixedEntries.reverse).constants =
      [⟨"N", .integer 7⟩, ⟨"A", .char 'x'⟩, ⟨"A", .char 'x'⟩, ⟨"B", .char 'x'⟩] := by
  obtain ⟨hnames, hmapping⟩ := constants_unchecked
  have hperm : mixedEntries.reverse.Perm mixedEntries := List.reverse_perm _
  refine ⟨hnames _, hperm, ?_⟩
  rw [(hmapping mixedEntries).2.2 _ hperm]
  cbv

end WrittenValues

end EnumForge
