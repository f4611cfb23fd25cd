import EnumForge.Document.Scan

/-!
Arrays and objects in a document, for any reader of what is in them.
-/

namespace EnumForge.Document

open Text (Bytes)

/-- The errors of a reader, seen from one step further out. -/
def under {α : Type} (step : Step) (x : Except Fault α) : Except Fault α :=
  x.mapError (·.under step)

/-! ### Arrays -/

/-- Goes to the next element, past the comma that comes before every element but the first. The
answer is `false` in front of the closing bracket. -/
def nextElement (first : Bool) : Reader Bool := fun s =>
  match skipBlanks s with
  | [] => .error (.before .endInArray [])
  | b :: r =>
    if b = ascii ']' then .ok (false, b :: r)
    else if first then .ok (true, b :: r)
    else if b = ascii ',' then
      match skipBlanks r with
      | [] => .error (.before .endInValue [])
      | c :: t =>
        if c = ascii ']' then .error (.before .trailingComma (c :: t)) else .ok (true, c :: t)
    else .error (.before .expectedArraySeparator (b :: r))

/-- Leaves an array. -/
def closeArray (s : Bytes) : Except Fault Bytes :=
  match skipBlanks s with
  | [] => .error (.before .endInArray [])
  | b :: r =>
    if b = ascii ']' then .ok r
    else if b = ascii ',' then
      let t := skipBlanks r
      if t.head? = some (ascii ']') then .error (.before .trailingComma t)
      else .error (.before .trailingCharacters t)
    else .error (.before .trailingCharacters (b :: r))

/-- What is left when an array is left after a fault. -/
def leaveArray (s : Bytes) : Bytes :=
  match skipBlanks s with
  | [] => []
  | b :: r => if b = ascii ']' then r else if b = ascii ',' then skipBlanks r else b :: r

/-- At most `most` further elements, behind those of `done`, which are in reverse; `index` is their
number. -/
def readElements {α : Type} (element : Reader α) : Nat → List α → Nat → Reader (List α)
  | 0, _, _, _ => .error (.before .endInArray [])
  | most + 1, done, index, s =>
    match nextElement (index == 0) s with
    | .error f => .error f
    | .ok (false, r) => .ok (done.reverse, r)
    | .ok (true, r) =>
      match under (.index index) (element r) with
      | .error f => .error f
      | .ok (x, t) => readElements element most (x :: done) (index + 1) t

/-- An array whose bracket has been read, up to and with the closing one. Every element takes a byte
at least, and so does the bracket behind them. -/
def readArray {α : Type} (element : Reader α) : Reader (List α) := fun s => do
  let (xs, s) ← readElements element (s.length + 1) [] 0 s
  return (xs, ← closeArray s)

/-! ### Objects -/

/-- Reads the next key, past the comma that comes before every key but the first. The answer is
`none` in front of the closing brace. -/
def nextKey (first : Bool) : Reader (Option String) := fun s =>
  match skipBlanks s with
  | [] => .error (.before .endInObject [])
  | b :: r =>
    if b = ascii '\x7d' then .ok (none, b :: r)
    else if first then
      if b = ascii '\x22' then (readText r).map fun (key, s) => (some key, s)
      else .error (.before .keyNotText (b :: r))
    else if b = ascii ',' then
      match skipBlanks r with
      | [] => .error (.before .endInValue [])
      | c :: t =>
        if c = ascii '\x22' then (readText t).map fun (key, s) => (some key, s)
        else if c = ascii '\x7d' then .error (.before .trailingComma (c :: t))
        else .error (.before .keyNotText (c :: t))
    else .error (.before .expectedObjectSeparator (b :: r))

/-- The colon after a key. -/
def readColon (s : Bytes) : Except Fault Bytes :=
  match skipBlanks s with
  | [] => .error (.before .endInObject [])
  | b :: r => if b = ascii ':' then .ok r else .error (.before .expectedColon (b :: r))

/-- Leaves an object. -/
def closeObject (s : Bytes) : Except Fault Bytes :=
  match skipBlanks s with
  | [] => .error (.before .endInObject [])
  | b :: r =>
    if b = ascii '\x7d' then .ok r
    else if b = ascii ',' then .error (.before .trailingComma (b :: r))
    else .error (.before .trailingCharacters (b :: r))

/-- What is left when an object is left after a fault. -/
def leaveObject (s : Bytes) : Bytes :=
  match skipBlanks s with
  | [] => []
  | b :: r => if b = ascii '\x7d' then r else b :: r

/-- At most `most` further members. What has been read is kept in a state, which every one of them
changes. -/
def readFurtherMembers {σ : Type} (member : σ → String → Reader σ) :
    Nat → Bool → σ → Reader σ
  | 0, _, _, _ => .error (.before .endInObject [])
  | most + 1, first, state, s =>
    match under .unknown (nextKey first s) with
    | .error f => .error f
    | .ok (none, r) => .ok (state, r)
    | .ok (some key, r) =>
      match member state key r with
      | .error f => .error f
      | .ok (state, t) => readFurtherMembers member most false state t

/-- All members of an object whose brace has been read, up to the closing one. Every member takes a
byte at least. -/
def readMembers {σ : Type} (member : σ → String → Reader σ) (state : σ) : Reader σ := fun s =>
  readFurtherMembers member (s.length + 1) true state s

/-- The value of a member. -/
def readMemberValue {α : Type} (key : String) (value : Reader α) : Reader α := fun s => do
  let s ← readColon s
  under (.key key) (value s)

end EnumForge.Document
