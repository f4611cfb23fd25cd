import Mathlib.Data.List.Basic
import EnumForge.Proofs.Lines

/-!
Reading generated text back: taking a list apart at a mark, finding a line, and the items of a list
that was written one to a line with commas between them.
-/

namespace EnumForge.Reading

open Text Layout

/-! ### Marks -/

section

variable {α : Type} [BEq α] [LawfulBEq α]

lemma dropPrefix?_append (a b : List α) : (a ++ b).dropPrefix? a = some b :=
  List.dropPrefix?_append_of_beq b BEq.rfl

lemma dropSuffix?_append (a b : List α) : (a ++ b).dropSuffix? b = some a :=
  List.dropSuffix?_eq_some_iff.mpr ⟨b, rfl, BEq.rfl⟩

/-- What stands in front of the first mark and what stands behind it. -/
def cut? (mark : List α) : List α → Option (List α × List α)
  | [] => none
  | x :: xs =>
    match (x :: xs).dropPrefix? mark with
    | some rest => some ([], rest)
    | none => (cut? mark xs).map fun (before, behind) => (x :: before, behind)

/-- The first mark is found where nothing in front of it begins like a mark. -/
lemma cut?_append {x : α} {a : List α} (h : x ∉ a) (mark rest : List α) :
    cut? (x :: mark) (a ++ x :: (mark ++ rest)) = some (a, rest) := by
  induction a with
  | nil =>
    have hdrop := dropPrefix?_append (x :: mark) rest
    rw [List.cons_append] at hdrop
    rw [List.nil_append, cut?, hdrop]
  | cons y a ih =>
    rw [List.mem_cons, not_or] at h
    have hdrop : (y :: (a ++ x :: (mark ++ rest))).dropPrefix? (x :: mark) = none := by
      simp [List.dropPrefix?, Ne.symm h.1]
    rw [List.cons_append, cut?, hdrop, ih h.2]
    rfl

end

/-! ### Lines -/

section

variable {α : Type} {p : α → Bool}

/-- What stands behind the first element that satisfies `p`. -/
def behindFirst? (p : α → Bool) : List α → Option (List α)
  | [] => none
  | x :: xs => if p x then some xs else behindFirst? p xs

/-- What stands behind the last element that satisfies `p`. -/
def behindLast? (p : α → Bool) : List α → Option (List α)
  | [] => none
  | x :: xs => (behindLast? p xs).or (if p x then some xs else none)

lemma behindFirst?_append {before : List α} {x : α} (hbefore : ∀ y ∈ before, p y = false)
    (hx : p x) (behind : List α) : behindFirst? p (before ++ x :: behind) = some behind := by
  induction before with
  | nil => simp [behindFirst?, hx]
  | cons y before ih =>
    rw [List.forall_mem_cons] at hbefore
    simp [behindFirst?, hbefore.1, ih hbefore.2]

lemma behindLast?_eq_none {xs : List α} (h : ∀ x ∈ xs, p x = false) : behindLast? p xs = none := by
  induction xs with
  | nil => rfl
  | cons x xs ih =>
    rw [List.forall_mem_cons] at h
    simp [behindLast?, h.1, ih h.2]

lemma behindLast?_append {x : α} {behind : List α} (hx : p x)
    (hbehind : ∀ y ∈ behind, p y = false) (before : List α) :
    behindLast? p (before ++ x :: behind) = some behind := by
  induction before with
  | nil => simp [behindLast?, hx, behindLast?_eq_none hbehind]
  | cons y before ih => simp [behindLast?, ih]

end

/-! ### Items -/

/-- Where each member is read back, so is the list. -/
lemma mapM_map_eq_some {α β γ : Type} {read : β → Option γ} {write : α → β} {view : α → γ}
    {xs : List α} (h : ∀ x ∈ xs, read (write x) = some (view x)) :
    (xs.map write).mapM read = some (xs.map view) := by
  induction xs with
  | nil => rfl
  | cons x xs ih =>
    rw [List.forall_mem_cons] at h
    rw [List.map_cons, List.mapM_cons, h.1, ih h.2]
    rfl

/-- The items of a list without the commas that stand between them. -/
def withoutCommas? : List (List Char) → Option (List (List Char))
  | [] => some []
  | [l] => some [l]
  | l :: ls => do return (← l.dropSuffix? [',']) :: (← withoutCommas? ls)

/-- The items of a list that is written at the indentation, one to a line. -/
def items? (indentation : List Char) (ls : List (List Char)) : Option (List (List Char)) := do
  withoutCommas? (← ls.mapM (·.dropPrefix? indentation))

lemma withoutCommas?_withCommas (items : List String) :
    withoutCommas? ((withCommas items).map String.toList) = some (items.map String.toList) := by
  induction items with
  | nil => rfl
  | cons s rest ih =>
    cases rest with
    | nil => rfl
    | cons t rest =>
      obtain ⟨u, us, hus⟩ : ∃ u us, withCommas (t :: rest) = u :: us := by
        cases rest with
        | nil => exact ⟨t, [], rfl⟩
        | cons v rest => exact ⟨t ++ ",", _, rfl⟩
      have hdrop : (s ++ ",").toList.dropSuffix? [','] = some s.toList := by
        rw [String.toList_append]
        exact dropSuffix?_append s.toList [',']
      have hcons : withCommas (s :: t :: rest) = (s ++ ",") :: u :: us := congrArg _ hus
      rw [hus] at ih
      rw [hcons, List.map_cons, List.map_cons, withoutCommas?, hdrop, ← List.map_cons, ih]
      · rfl
      · simp

lemma dropPrefix?_row (depth : Nat) {s : String} (h : s ≠ "") :
    (row depth s).dropPrefix? (List.replicate (2 * depth) ' ') = some s.toList := by
  rw [row, if_neg (by simpa using h)]
  exact dropPrefix?_append _ _

lemma head?_of_mem_rows_list (depth : Nat) {items : List String} (h : ∀ s ∈ items, s ≠ "") :
    ∀ r ∈ (Layout.list items).rows (depth + 1), r.head? = some ' ' := by
  have hitems : ∀ s ∈ withCommas items, s ≠ "" := forall_mem_withCommas (by simp) h
  refine List.forall_mem_map.mpr fun s hs => ?_
  rw [row, if_neg (by simpa using hitems s hs)]
  rfl

/-- The items of a list are read back at the depth at which they were written. -/
theorem items?_rows (depth : Nat) {items : List String} (h : ∀ s ∈ items, s ≠ "") :
    items? (List.replicate (2 * depth) ' ') ((Layout.list items).rows depth) =
      some (items.map String.toList) := by
  have hitems : ∀ s ∈ withCommas items, s ≠ "" := forall_mem_withCommas (by simp) h
  have hrows : ((withCommas items).map (row depth)).mapM
      (·.dropPrefix? (List.replicate (2 * depth) ' ')) =
      some ((withCommas items).map String.toList) :=
    mapM_map_eq_some fun s hs => dropPrefix?_row depth (hitems s hs)
  rw [items?, rows, hrows]
  exact withoutCommas?_withCommas items

end EnumForge.Reading
