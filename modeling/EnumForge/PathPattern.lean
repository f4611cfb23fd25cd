import EnumForge.Path

/-!
Patterns for paths. A star stands for any text and a question mark for any character in one name,
brackets for one character of a set, and two stars alone in a step for any number of directories.
The main statements say what a name has to begin with to fit: nothing for no token (`fits_nil`), any
text for a star (`fits_anyText_cons`), one character for any other token (`fits_cons_cons`).
-/

namespace EnumForge

/-- What brackets may hold: single characters and ranges. -/
structure CharRange where
  first : Char
  last : Char
  deriving DecidableEq

def CharRange.contains (r : CharRange) (c : Char) : Bool :=
  r.first.toNat ≤ c.toNat && c.toNat ≤ r.last.toNat

namespace PathPattern

/-- A part of a pattern for one name. -/
inductive Token
  | char (c : Char)
  | anyChar
  | anyText
  /-- Any number of directories. -/
  | anyDirectories
  | within (set : List CharRange)
  | outside (set : List CharRange)
  deriving DecidableEq

inductive ErrorKind
  | tooManyStars | starsInName | openBrackets
  deriving DecidableEq

def ErrorKind.message : ErrorKind → String
  | tooManyStars => "wildcards are either regular `*` or recursive `**`"
  | starsInName => "recursive wildcards must form a single path component"
  | openBrackets => "invalid range pattern"

/-- A pattern that is not well formed, with the position of the fault. -/
structure SyntaxError where
  position : Nat
  kind : ErrorKind
  deriving DecidableEq

def SyntaxError.message (e : SyntaxError) : String :=
  s!"Pattern syntax error near position {e.position}: {e.kind.message}"

/-! ### Reading patterns -/

/-- The content of brackets. A dash between two characters makes a range. -/
def ranges : List Char → List CharRange
  | a :: '-' :: b :: cs => ⟨a, b⟩ :: ranges cs
  | a :: cs => ⟨a, a⟩ :: ranges cs
  | [] => []

/-- The characters before the first closing bracket and those behind it. -/
def untilBracket : List Char → Option (List Char × List Char)
  | [] => none
  | c :: cs =>
    if c = ']' then some ([], cs)
    else (untilBracket cs).map fun (inside, rest) => (c :: inside, rest)

/-- Brackets whose opening has been read. They hold at least one character, which may be a closing
bracket. -/
def brackets : List Char → Option (Token × List Char)
  | '!' :: c :: cs =>
    (untilBracket cs).map fun (inside, rest) => (.outside (ranges (c :: inside)), rest)
  | c :: cs =>
    if c = '!' then none
    else (untilBracket cs).map fun (inside, rest) => (.within (ranges (c :: inside)), rest)
  | [] => none

/-- The tokens of a pattern. `before` is the character in front, `position` its number. Two stars
belong to the slash behind them. -/
def tokens (before : Option Char) (position : Nat) (cs : List Char) :
    Except SyntaxError (List Token) :=
  match cs with
  | [] => .ok []
  | '?' :: r => do return .anyChar :: (← tokens (some '?') (position + 1) r)
  | '*' :: '*' :: '*' :: _ => .error ⟨position + 2, .tooManyStars⟩
  | '*' :: '*' :: r =>
    if before.all (· == '/') then
      match r with
      | [] => .ok [.anyDirectories]
      | '/' :: r => do return .anyDirectories :: (← tokens (some '/') (position + 3) r)
      | _ :: _ => .error ⟨position + 2, .starsInName⟩
    else .error ⟨position - 1, .starsInName⟩
  | '*' :: r => do return .anyText :: (← tokens (some '*') (position + 1) r)
  | '[' :: r =>
    match brackets r with
    | none => .error ⟨position, .openBrackets⟩
    | some (token, rest) =>
      if _h : rest.length ≤ r.length then do
        return token :: (← tokens (some ']') (position + 1 + r.length - rest.length) rest)
      else .error ⟨position, .openBrackets⟩
  | c :: r => do return .char c :: (← tokens (some c) (position + 1) r)
termination_by cs.length
decreasing_by all_goals simp only [List.length_cons]; omega

/-- A step of a pattern. -/
inductive Component
  /-- One name alone. -/
  | literal (s : String)
  | name (ts : List Token)
  /-- Any number of directories. -/
  | directories
  deriving DecidableEq

/-- The characters of tokens that stand for themselves. -/
def literal? : List Token → Option (List Char)
  | [] => some []
  | .char c :: ts => (literal? ts).map (c :: ·)
  | _ :: _ => none

def Component.ofTokens (ts : List Token) : Component :=
  if ts.contains .anyDirectories then .directories
  else
    match literal? ts with
    | some cs => .literal (.ofList cs)
    | none => .name ts

/-! ### Matching names -/

/-- Whether one character fits a token. -/
def Token.fits (c : Char) : Token → Bool
  | char x => c == x
  | within set => set.any (·.contains c)
  | outside set => !set.any (·.contains c)
  | _ => true

/-- For each answer whether it or one behind it is yes. -/
def orBehind : List Bool → List Bool
  | [] => []
  | b :: bs =>
    let behind := orBehind bs
    (b || behind.headD false) :: behind

/-- Whether the tokens fit, for each end of the name from the whole of it to the empty one. -/
def fitsEnds (cs : List Char) : List Token → List Bool
  | [] => cs.map (fun _ => false) ++ [true]
  | .anyText :: ts => orBehind (fitsEnds cs ts)
  | t :: ts => cs.zipWith (fun c b => t.fits c && b) (fitsEnds cs ts).tail ++ [false]

/-- Whether the tokens fit the whole name. -/
def fits (ts : List Token) (cs : List Char) : Bool := (fitsEnds cs ts).headD false

theorem length_orBehind (bs : List Bool) : (orBehind bs).length = bs.length := by
  induction bs with
  | nil => rfl
  | cons b bs ih => simp [orBehind, ih]

/-- A name has one end more than characters. -/
theorem length_fitsEnds (cs : List Char) (ts : List Token) :
    (fitsEnds cs ts).length = cs.length + 1 := by
  fun_induction fitsEnds cs ts with
  | case1 => simp
  | case2 ts ih => rw [length_orBehind, ih]
  | case3 t ts _ ih => simp [ih]

/-- The answers for a name are its own and those for the name without its first character. -/
theorem fitsEnds_cons (c : Char) (cs : List Char) (ts : List Token) :
    fitsEnds (c :: cs) ts = fits ts (c :: cs) :: fitsEnds cs ts := by
  suffices h : (fitsEnds (c :: cs) ts).tail = fitsEnds cs ts by
    have hl := length_fitsEnds (c :: cs) ts
    unfold fits
    cases hb : fitsEnds (c :: cs) ts with
    | nil => simp [hb] at hl
    | cons b bs => simp [← h, hb]
  fun_induction fitsEnds cs ts with
  | case1 => rfl
  | case2 ts ih =>
    rw [fitsEnds]
    cases h : fitsEnds (c :: cs) ts with
    | nil => simp [← ih, h, orBehind]
    | cons b bs => simp [← ih, h, orBehind]
  | case3 t ts ht ih =>
    rw [fitsEnds.eq_3 _ _ _ ht, ih]
    have hl := length_fitsEnds cs ts
    cases h : fitsEnds cs ts with
    | nil => simp [h] at hl
    | cons b bs => simp

/-- Without tokens nothing fits but the empty name. -/
@[simp] theorem fits_nil (cs : List Char) : fits [] cs = cs.isEmpty := by
  cases cs <;> simp [fits, fitsEnds]

/-- A star fits the empty text. -/
theorem fits_anyText_nil (ts : List Token) : fits (.anyText :: ts) [] = fits ts [] := by
  have hl := length_fitsEnds [] ts
  simp only [fits, fitsEnds]
  match h : fitsEnds [] ts with
  | [] => simp [h] at hl
  | [b] => simp [orBehind]
  | _ :: _ :: _ => simp [h] at hl

/-- A star fits the empty text or the first character and more. -/
theorem fits_anyText_cons (ts : List Token) (c : Char) (cs : List Char) :
    fits (.anyText :: ts) (c :: cs) = (fits ts (c :: cs) || fits (.anyText :: ts) cs) := by
  rw [fits, fitsEnds, fitsEnds_cons]
  rfl

/-- Any other token fits one character. -/
theorem fits_cons_nil (t : Token) (ts : List Token) (h : t ≠ .anyText) :
    fits (t :: ts) [] = false := by
  rw [fits, fitsEnds.eq_3 _ _ _ h]
  rfl

theorem fits_cons_cons (t : Token) (ts : List Token) (h : t ≠ .anyText) (c : Char)
    (cs : List Char) : fits (t :: ts) (c :: cs) = (t.fits c && fits ts cs) := by
  rw [fits, fitsEnds.eq_3 _ _ _ h, fitsEnds_cons, fits.eq_1 ts cs]
  have hl := length_fitsEnds cs ts
  cases hb : fitsEnds cs ts with
  | nil => simp [hb] at hl
  | cons b bs => simp

def Component.fits (s : String) : Component → Bool
  | literal t => s == t
  | name ts => PathPattern.fits ts s.toList
  | directories => false

end PathPattern

end EnumForge
