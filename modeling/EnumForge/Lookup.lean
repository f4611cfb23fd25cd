import EnumForge.Declaration

/-!
Looking constants up. One table is in the order of declaration, which ascends by value, the other
ascends by name; each is searched by halving.
-/

namespace EnumForge

/-- The last of the places from `base` on, of which there are `size`, that is not `above`, if those
that are `above` come last; `base` if all are. -/
def narrow (above : Nat → Bool) (base size : Nat) : Nat :=
  if size ≤ 1 then base
  else
    let half := size / 2
    narrow above (if above (base + half) then base else base + half) (size - half)
termination_by size
decreasing_by omega

/-- The place that is found is the first or not `above`, and all places behind it are `above`. -/
theorem narrow_boundary {above : Nat → Bool} (base size : Nat)
    (mono : ∀ i j, i ≤ j → j < base + size → above i → above j) :
    (narrow above base size = base ∨ above (narrow above base size) = false) ∧
      ∀ j, narrow above base size < j → j < base + size → above j = true := by
  fun_induction narrow above base size with
  | case1 base size h => exact ⟨.inl rfl, fun j _ _ => by omega⟩
  | case2 base size h half ih =>
    by_cases hm : above (base + half) = true
    · simp only [hm, dite_true, if_true] at ih ⊢
      obtain ⟨ih₁, ih₂⟩ := ih fun i j hij hj => mono i j hij (by omega)
      refine ⟨ih₁, fun j hj hlt => ?_⟩
      by_cases hj' : base + half ≤ j
      · exact mono _ _ hj' hlt hm
      · exact ih₂ j hj (by omega)
    · have hf : above (base + half) = false := by simpa using hm
      simp only [hf, Bool.false_eq_true, dite_false, if_false] at ih ⊢
      obtain ⟨ih₁, ih₂⟩ := ih fun i j hij hj => mono i j hij (by omega)
      refine ⟨.inr ?_, fun j hj hlt => ih₂ j hj (by omega)⟩
      rcases ih₁ with h₁ | h₁
      · rw [h₁]; exact hf
      · exact h₁

/-- The place that is found is one of the places. -/
theorem narrow_lt (above : Nat → Bool) (base size : Nat) (h : 0 < size) :
    narrow above base size < base + size := by
  fun_induction narrow above base size with
  | case1 base size _ => omega
  | case2 base size _ half ih =>
    have := ih (by omega)
    split at this <;> simp_all <;> omega

/-- How many of the entries at the front satisfy `p`, if those that do come first. -/
def countFront {α : Type} (p : α → Bool) (xs : Array α) : Nat :=
  let i := narrow (fun i => !xs[i]?.any p) 0 xs.size
  if xs[i]?.any p then i + 1 else i

/-- If the entries that satisfy `p` come first, they are those before the count. -/
theorem lt_countFront_iff {α : Type} {p : α → Bool} {xs : Array α}
    (front : ∀ i j : Nat, i ≤ j → xs[j]?.any p → xs[i]?.any p) (i : Nat) :
    i < countFront p xs ↔ xs[i]?.any p := by
  have mono : ∀ i j : Nat, i ≤ j → (!xs[i]?.any p) = true → (!xs[j]?.any p) = true := by
    intro i j hij hi
    cases hj : xs[j]?.any p with
    | false => rfl
    | true => simp [front i j hij hj] at hi
  obtain ⟨h₁, h₂⟩ := narrow_boundary 0 xs.size fun i j hij _ => mono i j hij
  unfold countFront
  generalize narrow (fun i => !xs[i]?.any p) 0 xs.size = k at h₁ h₂
  have after : ∀ j, k < j → xs[j]?.any p = false := by
    intro j hj
    by_cases hlt : j < xs.size
    · simpa using h₂ j hj (by omega)
    · simp [Array.getElem?_eq_none (Nat.le_of_not_lt hlt)]
  cases hk : xs[k]?.any p with
  | true =>
    have : i < k + 1 ↔ xs[i]?.any p := by
      constructor
      · exact fun h => front i k (by omega) hk
      · intro h
        by_cases hi : k < i
        · rw [after i hi] at h; cases h
        · omega
    simpa [hk] using this
  | false =>
    rcases h₁ with h₁ | h₁
    · subst h₁
      have none : ¬xs[i]?.any p := fun h => by rw [front 0 i (Nat.zero_le i) h] at hk; cases hk
      simp [hk, none]
    · simp [hk] at h₁

/-- The tables of an enumeration. -/
structure Lookup where
  declared : List Constant
  byName : List Constant
  deriving DecidableEq

namespace Lookup

/-- Both tables of a list of constants. The constants with one name keep their order. -/
def ofConstants (cs : List Constant) : Lookup where
  declared := cs
  byName := cs.mergeSort fun a b => !Text.less b.name a.name

def size (t : Lookup) : Nat := t.declared.length

def isEmpty (t : Lookup) : Bool := t.declared.isEmpty

/-- The first constant with the name: the one behind those whose names are less. -/
def find? (t : Lookup) (name : String) : Option Constant :=
  let table := t.byName.toArray
  match table[countFront (fun c => Text.less c.name name) table]? with
  | some c => if Text.less name c.name then none else some c
  | none => none

/-- The name of the constant with the value. -/
def nameOf? (t : Lookup) (value : Value) : Option String :=
  let table := t.declared.toArray
  match table[narrow (fun i => table[i]?.any fun c => value.less c.value) 0 table.size]? with
  | some c => if c.value = value then some c.name else none
  | none => none

end Lookup

end EnumForge
