import Mathlib.Data.List.Forall2
import Mathlib.Tactic.Lemma
import EnumForge.Layout

/-!
A layout writes rows, each closed by a line break, behind what stands on the page. Where no row
holds a line break of its own, the rows are the lines of the text. Each row is a text behind some
spaces, and what does not depend on these may be shown of the texts.
-/

namespace EnumForge

namespace Text

/-- The lines of a text; what stands behind the last line break is one of them. -/
def lines (cs : List Char) : List (List Char) := cs.splitOn '\n'

/-- Rows, each closed by a line break. -/
def unlines (rows : List (List Char)) : List Char := rows.flatMap (· ++ ['\n'])

@[simp] lemma unlines_nil : unlines [] = [] := rfl

@[simp] lemma unlines_cons (r : List Char) (rs : List (List Char)) :
    unlines (r :: rs) = r ++ '\n' :: unlines rs := by simp [unlines]

@[simp] lemma unlines_append (rs ss : List (List Char)) :
    unlines (rs ++ ss) = unlines rs ++ unlines ss := by simp [unlines]

/-- Rows without line breaks are read back as they are. -/
lemma lines_unlines_append {rs : List (List Char)} (h : ∀ r ∈ rs, '\n' ∉ r) (rest : List Char) :
    lines (unlines rs ++ rest) = rs ++ lines rest := by
  induction rs with
  | nil => rfl
  | cons r rs ih =>
    rw [List.forall_mem_cons] at h
    rw [unlines_cons, List.append_assoc, List.cons_append, lines,
      List.splitOn_append_cons_self_of_not_mem h.1]
    exact congrArg (r :: ·) (ih h.2)

/-- Rows that hold line breaks are cut at these and do not touch the lines behind them. -/
lemma lines_unlines_flatMap (rs : List (List Char)) (rest : List Char) :
    lines (unlines rs ++ rest) = rs.flatMap lines ++ lines rest := by
  induction rs with
  | nil => rfl
  | cons r rs ih =>
    rw [unlines_cons, List.append_assoc, List.cons_append, lines, List.splitOn_append_cons_self,
      List.flatMap_cons, List.append_assoc, ← ih]
    rfl

lemma lines_cons_of_ne {c : Char} (hc : c ≠ '\n') (cs : List Char) :
    lines (c :: cs) = (lines cs).modifyHead (c :: ·) := by
  simp [lines, List.splitOn_cons_eq_if_modifyHead, hc]

/-- Every line break begins a line. -/
lemma length_lines (cs : List Char) : (lines cs).length = cs.count '\n' + 1 := by
  induction cs with
  | nil => rfl
  | cons c cs ih =>
    by_cases hc : c = '\n'
    · have hcut := List.splitOn_append_cons_self_of_not_mem (a := '\n') List.not_mem_nil cs
      rw [hc, List.count_cons_self, ← ih]
      exact congrArg List.length hcut
    · rw [lines_cons_of_ne hc, List.length_modifyHead, List.count_cons_of_ne hc, ih]

/-- What a text begins with stands in its first line. -/
lemma exists_lines_append {start : List Char} (h : '\n' ∉ start) (cs : List Char) :
    ∃ rest others, lines (start ++ cs) = (start ++ rest) :: others := by
  induction start with
  | nil =>
    obtain ⟨first, others, hlines⟩ := List.exists_cons_of_ne_nil (List.splitOn_ne_nil '\n' cs)
    exact ⟨first, others, hlines⟩
  | cons c start ih =>
    rw [List.mem_cons, not_or] at h
    obtain ⟨rest, others, hlines⟩ := ih h.2
    refine ⟨rest, others, ?_⟩
    rw [List.cons_append, lines_cons_of_ne (Ne.symm h.1), hlines]
    rfl

end Text

open Text

namespace Layout

/-- A line of a page without its line break. -/
def row (depth : Nat) (s : String) : List Char :=
  if s.isEmpty then [] else List.replicate (2 * depth) ' ' ++ s.toList

/-- A comma behind every item but the last. -/
def withCommas : List String → List String
  | [] => []
  | [s] => [s]
  | s :: rest => (s ++ ",") :: withCommas rest

/-- A comma behind an item does no harm to what is kept by it. -/
lemma forall_mem_withCommas {P : String → Prop} (hcomma : ∀ s, P s → P (s ++ ","))
    {items : List String} (h : ∀ s ∈ items, P s) : ∀ s ∈ withCommas items, P s := by
  fun_induction withCommas items with
  | case1 => exact h
  | case2 s => exact h
  | case3 s rest _ ih =>
    rw [List.forall_mem_cons] at h ⊢
    exact ⟨hcomma s h.1, ih h.2⟩

/-- What a layout writes on a page of the depth, without the line breaks that close the rows. -/
def rows : Layout → Nat → List (List Char)
  | empty, _ => []
  | line s, depth => [row depth s]
  | label s, depth => [List.replicate (2 * (depth - 1)) ' ' ++ s.toList]
  | blank, _ => [[]]
  | verbatim s, _ => [if Page.endsLine s then s.toList.dropLast else s.toList]
  | list items, depth => (withCommas items).map (row depth)
  | openScope segments, depth =>
    segments.map (fun s => row depth ("namespace " ++ s ++ " \x7b")) ++
      if segments.isEmpty then [] else [[]]
  | closeScope segments, depth =>
    segments.reverse.map fun s => row depth ("\x7d // namespace " ++ s)
  | block opening closing body, depth =>
    (if opening.isEmpty then [] else [row depth opening]) ++
      row depth "\x7b" :: (body.rows (depth + 1) ++ [row depth closing])
  | append first second, depth => first.rows depth ++ second.rows depth

@[simp] lemma rows_append (first second : Layout) (depth : Nat) :
    (first ++ second).rows depth = first.rows depth ++ second.rows depth := rfl

@[simp] lemma rows_all (ls : List Layout) (depth : Nat) :
    (all ls).rows depth = ls.flatMap (·.rows depth) := by
  induction ls with
  | nil => rfl
  | cons l ls ih => exact congrArg (l.rows depth ++ ·) ih

end Layout

namespace Page

open Layout

lemma toList_text_write (p : Page) (s : String) :
    (p.write s).text.toList = p.text.toList ++ s.toList := by simp [write]

lemma toList_text_line (p : Page) (s : String) :
    (p.line s).text.toList = p.text.toList ++ unlines [row p.depth s] := by
  unfold line row
  split <;> simp [toList_text_write, indentation]

lemma toList_text_verbatim (p : Page) (s : String) :
    (p.verbatim s).text.toList =
      p.text.toList ++ unlines [if endsLine s then s.toList.dropLast else s.toList] := by
  rw [verbatim, toList_text_write]
  split
  · next h =>
    obtain ⟨hne, hlast⟩ := List.getLast?_eq_some_iff.mp (by simpa [endsLine] using h)
    simp [hlast]
  · simp

lemma toList_text_list (items : List String) (p : Page) :
    (p.list items).text.toList =
      p.text.toList ++ unlines ((withCommas items).map (row p.depth)) := by
  fun_induction p.list items with
  | case1 p => simp [withCommas]
  | case2 p s => exact toList_text_line p s
  | case3 p s rest hne ih =>
    rw [ih, toList_text_line, depth_line]
    cases rest with
    | nil => exact absurd rfl hne
    | cons t rest => simp [withCommas]

lemma toList_text_foldl_line (f : String → String) (segments : List String) (p : Page) :
    (segments.foldl (fun p s => p.line (f s)) p).text.toList =
      p.text.toList ++ unlines (segments.map fun s => row p.depth (f s)) := by
  induction segments generalizing p with
  | nil => simp
  | cons s rest ih => simp [ih, toList_text_line, depth_line]

end Page

namespace Layout

/-- A layout adds its rows to the page. -/
theorem toList_text_run (l : Layout) (p : Page) :
    (l.run p).text.toList = p.text.toList ++ unlines (l.rows p.depth) := by
  induction l generalizing p with
  | empty => simp [run, rows]
  | line s => exact Page.toList_text_line p s
  | label s => simp [run, rows, Page.label, Page.toList_text_write, Page.indentation]
  | blank => simp [run, rows, Page.blank, Page.toList_text_write]
  | verbatim s => exact Page.toList_text_verbatim p s
  | list items => exact Page.toList_text_list items p
  | openScope segments =>
    simp only [run, rows, Page.openScope]
    split
    · next h => simp [Page.toList_text_foldl_line]
    · simp [Page.toList_text_foldl_line, Page.blank, Page.toList_text_write]
  | closeScope segments =>
    have h := Page.toList_text_foldl_line (fun s => "\x7d // namespace " ++ s) segments.reverse p
    exact h
  | block opening closing body ih =>
    simp only [run, rows]
    split
    · simp [ih, Page.toList_text_line, Page.depth_line, depth_run]
    · simp [ih, Page.toList_text_line, Page.depth_line, depth_run]
  | append first second ih₁ ih₂ => simp [run, rows, ih₁, ih₂, depth_run]

lemma toList_text (l : Layout) : l.text.toList = unlines (l.rows 0) := by
  rw [text, toList_text_run]
  rfl

/-! ### Indentation -/

/-- What a layout writes before it is indented. -/
def texts : Layout → List (List Char)
  | empty => []
  | line s => [s.toList]
  | label s => [s.toList]
  | blank => [[]]
  | verbatim s => [if Page.endsLine s then s.toList.dropLast else s.toList]
  | list items => (withCommas items).map String.toList
  | openScope segments =>
    segments.map (fun s => ("namespace " ++ s ++ " \x7b").toList) ++
      if segments.isEmpty then [] else [[]]
  | closeScope segments =>
    segments.reverse.map fun s => ("\x7d // namespace " ++ s).toList
  | block opening closing body =>
    (if opening.isEmpty then [] else [opening.toList]) ++
      ['\x7b'] :: (body.texts ++ [closing.toList])
  | append first second => first.texts ++ second.texts

@[simp] lemma texts_append (first second : Layout) :
    (first ++ second).texts = first.texts ++ second.texts := rfl

@[simp] lemma texts_all (ls : List Layout) : (all ls).texts = ls.flatMap texts := by
  induction ls with
  | nil => rfl
  | cons l ls ih => exact congrArg (l.texts ++ ·) ih

/-- A row is a text behind some spaces. -/
def Indents (r t : List Char) : Prop := ∃ k, r = List.replicate k ' ' ++ t

lemma indents_row (depth : Nat) (s : String) : Indents (row depth s) s.toList := by
  unfold row
  split
  · next hs => exact ⟨0, by simp [String.isEmpty_iff.mp hs]⟩
  · exact ⟨2 * depth, rfl⟩

lemma forall₂_indents_map_row (depth : Nat) (f : String → String) (ss : List String) :
    List.Forall₂ Indents (ss.map fun s => row depth (f s)) (ss.map fun s => (f s).toList) := by
  rw [List.forall₂_map_left_iff, List.forall₂_map_right_iff, List.forall₂_same]
  exact fun s _ => indents_row depth (f s)

theorem forall₂_indents_rows (l : Layout) (depth : Nat) :
    List.Forall₂ Indents (l.rows depth) l.texts := by
  have hself (t : List Char) : Indents t t := ⟨0, rfl⟩
  induction l generalizing depth with
  | empty => exact .nil
  | line s => exact .cons (indents_row depth s) .nil
  | label s => exact .cons ⟨2 * (depth - 1), rfl⟩ .nil
  | blank => exact .cons (hself _) .nil
  | verbatim s => exact .cons (hself _) .nil
  | list items => exact forall₂_indents_map_row depth id (withCommas items)
  | openScope segments =>
    refine List.rel_append ?_ ?_
    · exact forall₂_indents_map_row depth (fun s => "namespace " ++ s ++ " \x7b") segments
    · exact List.forall₂_same.mpr fun t _ => hself t
  | closeScope segments =>
    exact forall₂_indents_map_row depth (fun s => "\x7d // namespace " ++ s) segments.reverse
  | block opening closing body ih =>
    refine List.rel_append ?_ (.cons (indents_row depth "\x7b") ?_)
    · split
      · exact .nil
      · exact .cons (indents_row depth opening) .nil
    · exact List.rel_append (ih (depth + 1)) (.cons (indents_row depth closing) .nil)
  | append first second ih₁ ih₂ => exact List.rel_append (ih₁ depth) (ih₂ depth)

/-- A property that indentation keeps goes over from the texts to the rows. -/
lemma forall_mem_rows {P : List Char → Prop}
    (hindent : ∀ k t, P t → P (List.replicate k ' ' ++ t)) {l : Layout} {depth : Nat}
    (h : ∀ t ∈ l.texts, P t) : ∀ r ∈ l.rows depth, P r := by
  have hrows := forall₂_indents_rows l depth
  generalize l.rows depth = rs at hrows
  generalize l.texts = ts at hrows h
  induction hrows with
  | nil => exact fun r hr => absurd hr List.not_mem_nil
  | cons hr _ ih =>
    rw [List.forall_mem_cons] at h ⊢
    obtain ⟨k, rfl⟩ := hr
    exact ⟨hindent k _ h.1, ih h.2⟩

/-- A function that does not see indentation has the same values on the rows and on the texts. -/
lemma map_rows {α : Type} {f : List Char → α}
    (hindent : ∀ k t, f (List.replicate k ' ' ++ t) = f t) (l : Layout) (depth : Nat) :
    (l.rows depth).map f = l.texts.map f := by
  have hrows := forall₂_indents_rows l depth
  generalize l.rows depth = rs at hrows
  generalize l.texts = ts at hrows
  induction hrows with
  | nil => rfl
  | cons hr _ ih =>
    obtain ⟨k, rfl⟩ := hr
    rw [List.map_cons, List.map_cons, hindent, ih]

/-! ### Line breaks -/

/-- No text of a layout holds a line break. -/
def Unbroken (l : Layout) : Prop := ∀ t ∈ l.texts, '\n' ∉ t

lemma newline_not_mem_rows {l : Layout} (h : l.Unbroken) (depth : Nat) :
    ∀ r ∈ l.rows depth, '\n' ∉ r := forall_mem_rows (by simp) h

@[simp] lemma unbroken_empty : empty.Unbroken := by simp [Unbroken, texts]

@[simp] lemma unbroken_blank : blank.Unbroken := by simp [Unbroken, texts]

@[simp] lemma unbroken_line {s : String} : (line s).Unbroken ↔ '\n' ∉ s.toList := by
  simp [Unbroken, texts]

@[simp] lemma unbroken_label {s : String} : (label s).Unbroken ↔ '\n' ∉ s.toList := by
  simp [Unbroken, texts]

lemma unbroken_list {items : List String} (h : ∀ s ∈ items, '\n' ∉ s.toList) :
    (list items).Unbroken :=
  List.forall_mem_map.mpr (forall_mem_withCommas (by simp) h)

lemma unbroken_openScope {segments : List String} (h : ∀ s ∈ segments, '\n' ∉ s.toList) :
    (openScope segments).Unbroken := by
  simpa [Unbroken, texts, or_imp, forall_and] using h

lemma unbroken_closeScope {segments : List String} (h : ∀ s ∈ segments, '\n' ∉ s.toList) :
    (closeScope segments).Unbroken := by
  simpa [Unbroken, texts] using h

@[simp] lemma unbroken_block {opening closing : String} {body : Layout} :
    (block opening closing body).Unbroken ↔
      '\n' ∉ opening.toList ∧ '\n' ∉ closing.toList ∧ body.Unbroken := by
  by_cases h : opening.isEmpty
  · have hopening : opening = "" := String.isEmpty_iff.mp h
    simp [Unbroken, texts, hopening, or_imp, forall_and, and_comm]
  · simp [Unbroken, texts, h, or_imp, forall_and, and_comm]

@[simp] lemma unbroken_append {first second : Layout} :
    (first ++ second).Unbroken ↔ first.Unbroken ∧ second.Unbroken := by
  simp [Unbroken, or_imp, forall_and]

@[simp] lemma unbroken_all {ls : List Layout} : (all ls).Unbroken ↔ ∀ l ∈ ls, l.Unbroken := by
  simp only [Unbroken, texts_all, List.mem_flatMap]
  exact ⟨fun h l hl t ht => h t ⟨l, hl, ht⟩, fun h t ⟨l, hl, ht⟩ => h l hl t ht⟩

end Layout

end EnumForge
