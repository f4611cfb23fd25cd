/-!
Text laid out in lines. A layout is a program of writing steps; it runs on a page, which holds the
text so far and the depth at which the next line stands. A step inside a block is two spaces deeper.
-/

namespace EnumForge

inductive Layout
  | empty
  /-- A line at the depth of the page; an empty one stays empty. -/
  | line (s : String)
  /-- A line one step further out than the depth of the page. -/
  | label (s : String)
  | blank
  /-- Text as it is, closed by a line break if it has none at its end. -/
  | verbatim (s : String)
  /-- A line for each item, with a comma between two items. -/
  | list (items : List String)
  /-- A line that opens each scope, outermost first, and a blank line if there is any. -/
  | openScope (segments : List String)
  /-- A line that closes each scope, innermost first. -/
  | closeScope (segments : List String)
  /-- A body in braces. The line before the brace is left out if it is empty. -/
  | block (opening closing : String) (body : Layout)
  | append (first second : Layout)
  deriving DecidableEq

instance : Append Layout := ⟨.append⟩

/-- One layout after another. -/
def Layout.all (ls : List Layout) : Layout := ls.foldr (· ++ ·) .empty

structure Page where
  text : String := ""
  depth : Nat := 0
  deriving DecidableEq

namespace Page

def indentation (depth : Nat) : String := .ofList (List.replicate (2 * depth) ' ')

def write (p : Page) (s : String) : Page := { p with text := p.text ++ s }

def line (p : Page) (s : String) : Page :=
  if s.isEmpty then p.write "\n" else p.write (indentation p.depth ++ s ++ "\n")

def label (p : Page) (s : String) : Page := p.write (indentation (p.depth - 1) ++ s ++ "\n")

def blank (p : Page) : Page := p.write "\n"

def endsLine (s : String) : Bool := s.toList.getLast? == some '\n'

def verbatim (p : Page) (s : String) : Page := p.write (if endsLine s then s else s ++ "\n")

def list (p : Page) : List String → Page
  | [] => p
  | [s] => p.line s
  | s :: rest => (p.line (s ++ ",")).list rest

def openScope (p : Page) (segments : List String) : Page :=
  let p := segments.foldl (fun p s => p.line ("namespace " ++ s ++ " \x7b")) p
  if segments.isEmpty then p else p.blank

def closeScope (p : Page) (segments : List String) : Page :=
  segments.reverse.foldl (fun p s => p.line ("\x7d // namespace " ++ s)) p

/-! No step but a block changes the depth. -/

@[simp] theorem depth_write (p : Page) (s : String) : (p.write s).depth = p.depth := rfl

theorem depth_line (p : Page) (s : String) : (p.line s).depth = p.depth := by
  unfold line
  split <;> rfl

theorem depth_list (items : List String) (p : Page) : (p.list items).depth = p.depth := by
  fun_induction p.list items <;> simp_all [depth_line]

theorem depth_foldl_line (f : String → String) (segments : List String) (p : Page) :
    (segments.foldl (fun p s => p.line (f s)) p).depth = p.depth := by
  induction segments generalizing p with
  | nil => rfl
  | cons s rest ih => rw [List.foldl_cons, ih, depth_line]

theorem depth_openScope (p : Page) (segments : List String) :
    (p.openScope segments).depth = p.depth := by
  unfold openScope
  split
  · exact depth_foldl_line _ segments p
  · exact depth_foldl_line _ segments p

theorem depth_closeScope (p : Page) (segments : List String) :
    (p.closeScope segments).depth = p.depth :=
  depth_foldl_line _ segments.reverse p

end Page

namespace Layout

def run : Layout → Page → Page
  | empty, p => p
  | line s, p => p.line s
  | label s, p => p.label s
  | blank, p => p.blank
  | verbatim s, p => p.verbatim s
  | list items, p => p.list items
  | openScope segments, p => p.openScope segments
  | closeScope segments, p => p.closeScope segments
  | block opening closing body, p =>
    let p := (if opening.isEmpty then p else p.line opening).line "\x7b"
    let p := body.run { p with depth := p.depth + 1 }
    { p with depth := p.depth - 1 }.line closing
  | append first second, p => second.run (first.run p)

@[simp] theorem run_append (first second : Layout) (p : Page) :
    (first ++ second).run p = second.run (first.run p) := rfl

@[simp] theorem run_all_nil (p : Page) : (all []).run p = p := rfl

@[simp] theorem run_all_cons (l : Layout) (ls : List Layout) (p : Page) :
    (all (l :: ls)).run p = (all ls).run (l.run p) := rfl

/-- A layout leaves the page at the depth at which it found it. -/
theorem depth_run (l : Layout) (p : Page) : (l.run p).depth = p.depth := by
  induction l generalizing p with
  | empty => rfl
  | line s => exact Page.depth_line p s
  | label s => rfl
  | blank => rfl
  | verbatim s => rfl
  | list items => exact Page.depth_list items p
  | openScope segments => exact Page.depth_openScope p segments
  | closeScope segments => exact Page.depth_closeScope p segments
  | block opening closing body ih => simp [run, ih, Page.depth_line, apply_ite Page.depth]
  | append first second ih₁ ih₂ => simp [run, ih₁, ih₂]

/-- The text that a layout writes on an empty page. -/
def text (l : Layout) : String := (l.run {}).text

end Layout

end EnumForge
