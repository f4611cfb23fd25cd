import EnumForge.Definition
import EnumForge.Text.Utf8

/-!
The constants that written values declare. Bare names get their positions; a mapping is sorted by
value, so that the order in which it was written does not matter.
-/

namespace EnumForge

/-- A text has a value only if it is one character. -/
def WrittenValue.value? : WrittenValue → Option Value
  | integer i => some (.integer i)
  | text s =>
    match s.toList with
    | [c] => some (.char c)
    | _ => none

/-- By value, and by name where two values are equal. -/
def Constant.le (a b : Constant) : Bool :=
  a.value.less b.value || (a.value == b.value && !Text.less b.name a.name)

namespace WrittenValues

/-- Notes that `name` stands at position `i`. A name that is in the table keeps its row. -/
def notePosition (name : String) (i : Nat) : List (String × Nat) → List (String × Nat)
  | [] => [(name, i)]
  | (n, j) :: rest => if n = name then (n, i) :: rest else (n, j) :: notePosition name i rest

/-- The last position of each name, in the order of first positions. -/
def positions (ns : List String) : List (String × Nat) :=
  ns.zipIdx.foldl (fun table (n, i) => notePosition n i table) []

/-- The constants in the order of their declaration. What is not a value is left out. -/
def constants : WrittenValues → List Constant
  | names ns => (positions ns).map fun (n, i) => ⟨n, .integer i⟩
  | mapping ps =>
    (ps.filterMap fun (n, v) => v.value?.map (Constant.mk n)).mergeSort Constant.le

end WrittenValues

end EnumForge
