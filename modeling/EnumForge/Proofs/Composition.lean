import EnumForge.Proofs.Lines

/-!
Layouts compose. What a layout writes depends on nothing but the depth at which it starts, and it is
put behind what stands on the page. A layout of indented lines writes the same lines one step deeper,
two spaces further in.
-/

namespace EnumForge

namespace Text

/-- A line two spaces further in; an empty one stays empty. -/
def deeper (line : List Char) : List Char :=
  if line.isEmpty then [] else ' ' :: ' ' :: line

/-- A text with each of its lines two spaces further in. -/
def indent (s : String) : String := .ofList (['\n'].intercalate ((lines s.toList).map deeper))

/-- Joining rows and an empty one behind them closes each by a line break. -/
lemma intercalate_concat_nil (rs : List (List Char)) :
    ['\n'].intercalate (rs ++ [[]]) = unlines rs := by
  induction rs with
  | nil => rfl
  | cons r rs ih =>
    obtain ⟨next, others, hrest⟩ := List.exists_cons_of_ne_nil (List.concat_ne_nil [] rs)
    rw [List.cons_append, hrest, List.intercalate_cons_cons, ← hrest, ih, unlines_cons,
      List.append_assoc, List.singleton_append]

/-- Rows without line breaks are indented one by one. -/
lemma toList_indent {s : String} {rs : List (List Char)} (hs : s.toList = unlines rs)
    (h : ∀ r ∈ rs, '\n' ∉ r) : (indent s).toList = unlines (rs.map deeper) := by
  have hlines : lines s.toList = rs ++ [[]] := by
    rw [hs, ← List.append_nil (unlines rs), lines_unlines_append h]
    rfl
  rw [indent, String.toList_ofList, hlines, List.map_append]
  exact intercalate_concat_nil (rs.map deeper)

end Text

open Text

namespace Layout

/-- The text that a layout adds to a page of the depth. -/
def written (l : Layout) (depth : Nat) : String := (l.run ⟨"", depth⟩).text

lemma toList_written (l : Layout) (depth : Nat) :
    (l.written depth).toList = unlines (l.rows depth) := by
  rw [written, toList_text_run]
  rfl

lemma run_eq (l : Layout) (p : Page) : l.run p = ⟨p.text ++ l.written p.depth, p.depth⟩ := by
  have htext : (l.run p).text = p.text ++ l.written p.depth := by
    apply String.toList_inj.mp
    rw [toList_text_run, String.toList_append, toList_written]
  rw [← htext, ← depth_run l p]

/-- Layouts one after another write their texts one after another. -/
lemma foldl_run_eq (ls : List Layout) (p : Page) :
    ls.foldl (fun p l => l.run p) p =
      ⟨p.text ++ String.join (ls.map (·.written p.depth)), p.depth⟩ := by
  induction ls generalizing p with
  | nil => simp
  | cons l ls ih =>
    rw [List.foldl_cons, ih, run_eq l p, List.map_cons, String.join_cons, String.append_assoc]

/-! ### One step deeper -/

/-- There are no labels, which stand further out, and no texts that stand as they are. -/
def isIndented : Layout → Bool
  | label _ => false
  | verbatim _ => false
  | block _ _ body => body.isIndented
  | append first second => first.isIndented && second.isIndented
  | _ => true

lemma row_succ (depth : Nat) (s : String) : row (depth + 1) s = deeper (row depth s) := by
  unfold row
  split_ifs with hs
  · rfl
  · have hne : s.toList ≠ [] := fun h => hs (String.isEmpty_iff.mpr (String.toList_eq_nil_iff.mp h))
    rw [deeper, if_neg (by simp [hne]), Nat.mul_succ, List.replicate_succ, List.replicate_succ]
    rfl

lemma map_row_succ (depth : Nat) (f : String → String) (ss : List String) :
    ss.map (fun s => row (depth + 1) (f s)) = (ss.map fun s => row depth (f s)).map deeper := by
  rw [List.map_map]
  exact List.map_congr_left fun s _ => row_succ depth (f s)

theorem rows_succ {l : Layout} (h : l.isIndented) (depth : Nat) :
    l.rows (depth + 1) = (l.rows depth).map deeper := by
  induction l generalizing depth with
  | empty => rfl
  | line s => exact congrArg ([·]) (row_succ depth s)
  | label s => cases h
  | blank => rfl
  | verbatim s => cases h
  | list items => exact map_row_succ depth id (withCommas items)
  | openScope segments =>
    rw [rows, rows, List.map_append, map_row_succ]
    split_ifs <;> rfl
  | closeScope segments => exact map_row_succ depth _ segments.reverse
  | block opening closing body ih =>
    simp only [rows, ih h, row_succ, List.map_append, List.map_cons, List.map_nil]
    split_ifs <;> rfl
  | append first second ih₁ ih₂ =>
    obtain ⟨h₁, h₂⟩ := Bool.and_eq_true_iff.mp h
    rw [rows, rows, ih₁ h₁, ih₂ h₂, List.map_append]

lemma written_succ {l : Layout} (h : l.isIndented) (hl : l.Unbroken) (depth : Nat) :
    l.written (depth + 1) = indent (l.written depth) := by
  apply String.toList_inj.mp
  rw [toList_written, rows_succ h,
    toList_indent (toList_written l depth) (newline_not_mem_rows hl depth)]

/-- **Composition**: on any page, a layout leaves the depth as it is and adds a text that is known
from the layout and the depth; layouts one after another add their texts in order; and what indented
lines add one step deeper is the same text with its lines two spaces further in. -/
theorem run_composes (p : Page) :
    (∀ l : Layout, l.run p = ⟨p.text ++ l.written p.depth, p.depth⟩) ∧
      (∀ ls : List Layout, ls.foldl (fun p l => l.run p) p =
        ⟨p.text ++ String.join (ls.map (·.written p.depth)), p.depth⟩) ∧
      ∀ l : Layout, l.isIndented → l.Unbroken →
        l.written (p.depth + 1) = indent (l.written p.depth) :=
  ⟨fun l => run_eq l p, fun ls => foldl_run_eq ls p, fun _ h hl => written_succ h hl p.depth⟩

/-- A block without an opening, in which a line and an item are empty, around a scope and a block
that closes with an empty line. -/
def nested : Layout := .block "" "\x7d;" (.all [
  .line "int i;",
  .line "",
  .list ["A", "", "B"],
  .openScope ["s"],
  .block "if (i)" "" (.line " ++i;"),
  .closeScope ["s"]])

theorem nested_composes :
    nested.run ⟨"E e =\n", 1⟩ = ⟨"E e =\n" ++ nested.written 1, 1⟩ ∧
      nested.isIndented ∧ nested.Unbroken ∧ nested.written 1 = indent (nested.written 0) ∧
      nested.written 0 = String.join (["\x7b", "  int i;", "", "  A,", "  ,", "  B",
        "  namespace s \x7b", "", "  if (i)", "  \x7b", "     ++i;", "", "  \x7d // namespace s",
        "\x7d;"].map (· ++ "\n")) := by
  have hindented : nested.isIndented := rfl
  have hunbroken : nested.Unbroken := by
    unfold Unbroken
    decide
  obtain ⟨hrun, -, -⟩ := run_composes ⟨"E e =\n", 1⟩
  obtain ⟨-, -, hdeeper⟩ := run_composes ⟨"", 0⟩
  exact ⟨hrun nested, hindented, hunbroken, hdeeper nested hindented hunbroken, by decide⟩

end Layout

end EnumForge
