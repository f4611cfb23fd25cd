import EnumForge.Document.Container
import EnumForge.Document.Numeral

/-!
Single values of a document: texts, values that may be missing, and values of any form.
-/

namespace EnumForge.Document

open Text (Bytes)

/-- The fault of a value of the wrong type. A scalar is read before it is refused. -/
def mismatch (wanted : Wanted) (s : Bytes) : Fault :=
  let refuse (r : Except Fault (Found × Bytes)) : Fault :=
    match r with
    | .ok (found, rest) => .behind (.wrongType found wanted) rest
    | .error f => f
  match s with
  | [] => .before .endInValue []
  | b :: r =>
    if b = ascii 'n' then refuse ((readWord ['u', 'l', 'l'] r).map (.null, ·))
    else if b = ascii 't' then refuse ((readWord ['r', 'u', 'e'] r).map (.boolean true, ·))
    else if b = ascii 'f' then refuse ((readWord ['a', 'l', 's', 'e'] r).map (.boolean false, ·))
    else if b = ascii '-' || Numeral.isDigit b then
      refuse ((readNumeral (b :: r)).map fun (n, rest) => (n.found, rest))
    else if b = ascii '\x22' then refuse ((readText r).map fun (t, rest) => (.text t, rest))
    else if b = ascii '[' then .behind (.wrongType .array wanted) (b :: r)
    else if b = ascii '\x7b' then .behind (.wrongType .object wanted) (b :: r)
    else .before .expectedValue (b :: r)

/-- A text and nothing else. -/
def readTextValue : Reader String := fun s =>
  match skipBlanks s with
  | [] => .error (.before .endInValue [])
  | b :: r => if b = ascii '\x22' then readText r else .error (mismatch .text (b :: r))

/-- A list of texts. -/
def readTexts : Reader (List String) := fun s =>
  match skipBlanks s with
  | [] => .error (.before .endInValue [])
  | b :: r =>
    if b = ascii '[' then readArray readTextValue r else .error (mismatch .array (b :: r))

/-- A value or `null`. -/
def readOptional {α : Type} (value : Reader α) : Reader (Option α) := fun s =>
  match skipBlanks s with
  | b :: r =>
    if b = ascii 'n' then (readWord ['u', 'l', 'l'] r).map (none, ·)
    else (value (b :: r)).map fun (x, rest) => (some x, rest)
  | [] => (value []).map fun (x, rest) => (some x, rest)

/-! ### Values of any form -/

/-- A value of any form, as far as it matters. -/
inductive Content
  | text (s : String)
  | array (xs : List Content)
  | other

/-- A value of any form; at most `depth` arrays and objects may be open at once. -/
def readContent : Nat → Reader Content
  | depth, s =>
    match skipBlanks s with
    | [] => .error (.before .endInValue [])
    | b :: r =>
      if b = ascii 'n' then (readWord ['u', 'l', 'l'] r).map (.other, ·)
      else if b = ascii 't' then (readWord ['r', 'u', 'e'] r).map (.other, ·)
      else if b = ascii 'f' then (readWord ['a', 'l', 's', 'e'] r).map (.other, ·)
      else if b = ascii '-' || Numeral.isDigit b then
        (readNumeral (b :: r)).map fun (_, rest) => (.other, rest)
      else if b = ascii '\x22' then (readText r).map fun (t, rest) => (.text t, rest)
      else if b = ascii '[' then
        match depth with
        | 0 => .error (.before .tooDeep (b :: r))
        | depth + 1 => (readArray (readContent depth) r).map fun (xs, rest) => (.array xs, rest)
      else if b = ascii '\x7b' then
        match depth with
        | 0 => .error (.before .tooDeep (b :: r))
        | depth + 1 => do
          let member (_ : Unit) (key : String) : Reader Unit := fun s => do
            let (_, s) ← readMemberValue key (readContent depth) s
            return ((), s)
          let (_, s) ← readMembers member () r
          return (.other, ← closeObject s)
      else .error (.before .expectedValue (b :: r))

/-- The texts of a list of texts. -/
def Content.texts? : List Content → Option (List String)
  | [] => some []
  | .text s :: xs => (texts? xs).map (s :: ·)
  | _ :: _ => none

/-- The parts of a text between double colons. -/
def splitColons : List Char → List (List Char)
  | [] => [[]]
  | ':' :: ':' :: cs => [] :: splitColons cs
  | c :: cs =>
    match splitColons cs with
    | [] => [[c]]
    | part :: parts => (c :: part) :: parts

/-- A scope is a list of segments, or one text that joins them by double colons. The empty text is
no segment. -/
def Content.scope? : Content → Option (List String)
  | text s => some (if s.isEmpty then [] else (splitColons s.toList).map .ofList)
  | array xs => texts? xs
  | other => none

end EnumForge.Document
