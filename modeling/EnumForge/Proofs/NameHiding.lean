import EnumForge.Proofs.OutputPaths
import EnumForge.Proofs.Tokens

/-!
The stream operators name the type of an enumeration where variables are declared already. A scan
of their tokens keeps the variables that are declared so far and notes each place where a type is
named without a scope; there a variable of its name hides it.
-/

namespace EnumForge

open Text Identifier Token

/-! ### Scanning declarations -/

structure Scan where
  /-- The last four tokens, the last one first. -/
  behind : List Token := []
  parameters : List String := []
  /-- The variables of the blocks that are open, the innermost block first. -/
  blocks : List (List String) := []
  /-- The types that were named without a scope, each with the variables declared there. -/
  uses : List (String × List String) := []

namespace Scan

def visible (s : Scan) : List String := s.blocks.flatten ++ s.parameters

def use (s : Scan) (t : String) : Scan := { s with uses := s.uses ++ [(t, s.visible)] }

def declare (s : Scan) (v : String) : Scan :=
  match s.blocks with
  | [] => { s with parameters := v :: s.parameters }
  | b :: bs => { s with blocks := (v :: b) :: bs }

/-- A name behind another one is that of a variable and the other one is its type, unless it is
returned. The type is named before the variable is declared. -/
def endDeclaration (s : Scan) : Scan :=
  match s.behind with
  | word v :: mark '&' :: word t :: before
  | word v :: word t :: before =>
    if t = "return" then s
    else if before.head? = some scope then s.declare v
    else (s.use t).declare v
  | _ => s

/-- A single name in angle brackets is a type. -/
def endArgument (s : Scan) : Scan :=
  match s.behind with
  | word t :: mark '<' :: _ => s.use t
  | _ => s

/-- Outside all blocks the function has ended, and its parameters with it. -/
def endFunction (s : Scan) : Scan := if s.blocks.isEmpty then { s with parameters := [] } else s

def act (s : Scan) : Token → Scan
  | mark ',' | mark ')' => s.endDeclaration
  | mark ';' => s.endDeclaration.endFunction
  | mark '>' => s.endArgument
  | mark '\x7b' => { s with blocks := [] :: s.blocks }
  | mark '\x7d' => { s with blocks := s.blocks.tail }.endFunction
  | _ => s

def step (s : Scan) (t : Token) : Scan := { s.act t with behind := (t :: s.behind).take 4 }

def run (s : Scan) (ts : List Token) : Scan := ts.foldl step s

lemma run_append (s : Scan) (ts us : List Token) : s.run (ts ++ us) = (s.run ts).run us :=
  List.foldl_append

end Scan

/-- The types that a text names without a scope, each with the variables declared there. -/
def typeUses (text : String) : List (String × List String) := (Scan.run {} (ofText text)).uses

/-- A type is named where a variable of its name is declared. -/
def HidesType (text : String) : Prop := ∃ use ∈ typeUses text, use.1 ∈ use.2

example : typeUses "bool f(T x, T & y) \x7b T a; g<U>(a); return a; \x7d" =
    [("T", []), ("T", ["x"]), ("T", ["y", "x"]), ("U", ["a", "y", "x"])] := by
  decide +kernel

/-! ### The stream operators -/

/-- The tokens that begin the function that writes a value. -/
def outputHead (name : String) : List Token := [word "std", scope, word "ostream", mark '&',
  word "operator", mark '<', mark '<', mark '(', word "std", scope, word "ostream", mark '&',
  word "os", mark ',', word name, word "value", mark ')']

/-- The tokens that begin the function that reads a value. -/
def inputHead (name : String) : List Token := [word "std", scope, word "istream", mark '&',
  word "operator", mark '>', mark '>', mark '(', word "std", scope, word "istream", mark '&',
  word "is", mark ',', word name, mark '&', word "value", mark ')']

def outputBody : List Token := [mark '\x7b', word "return", word "os", mark '<', mark '<',
  word "value_to_name", mark '(', word "value", mark ')', mark ';', mark '\x7d']

def inputBody (name : String) : List Token := [mark '\x7b', word "std", scope, word "string",
  word "token", mark ';', word "if", mark '(', word "is", mark '>', mark '>', word "token",
  mark ')', mark '\x7b', word "value", mark '=', word "name_to_value", mark '<', word name,
  mark '>', mark '(', word "token", mark ')', mark ';', mark '\x7d', word "return", word "is",
  mark ';', mark '\x7d']

namespace Scan

variable {name : String} (hname : name ≠ "return") (behind : List Token)
  (uses : List (String × List String))

include hname

lemma run_outputHead : run ⟨behind, [], [], uses⟩ (outputHead name) =
    ⟨[mark ')', word "value", word name, mark ','], ["value", "os"], [],
      uses ++ [(name, ["os"])]⟩ := by
  simp [outputHead, run, step, act, endDeclaration, declare, use, visible, hname]

lemma run_inputHead : run ⟨behind, [], [], uses⟩ (inputHead name) =
    ⟨[mark ')', word "value", mark '&', word name], ["value", "is"], [],
      uses ++ [(name, ["is"])]⟩ := by
  simp [inputHead, run, step, act, endDeclaration, endArgument, declare, use, visible, hname]

lemma run_outputDeclaration : run ⟨behind, [], [], uses⟩ (outputHead name ++ [mark ';']) =
    ⟨[mark ';', mark ')', word "value", word name], [], [], uses ++ [(name, ["os"])]⟩ := by
  rw [run_append, run_outputHead hname]
  rfl

lemma run_inputDeclaration : run ⟨behind, [], [], uses⟩ (inputHead name ++ [mark ';']) =
    ⟨[mark ';', mark ')', word "value", mark '&'], [], [], uses ++ [(name, ["is"])]⟩ := by
  rw [run_append, run_inputHead hname]
  rfl

lemma run_output : run ⟨behind, [], [], uses⟩ (outputHead name ++ outputBody) =
    ⟨[mark '\x7d', mark ';', mark ')', word "value"], [], [], uses ++ [(name, ["os"])]⟩ := by
  rw [run_append, run_outputHead hname]
  rfl

lemma run_input : run ⟨behind, [], [], uses⟩ (inputHead name ++ inputBody name) =
    ⟨[mark '\x7d', mark ';', word "is", word "return"], [], [],
      uses ++ [(name, ["is"]), (name, ["token", "value", "is"])]⟩ := by
  rw [run_append, run_inputHead hname]
  simp [inputBody, run, step, act, endDeclaration, endArgument, endFunction, declare, use, visible]

end Scan

/-! ### Their texts -/

namespace Layout

/-- The tokens of what a layout writes. -/
def tokens (l : Layout) : List Token := l.texts.flatMap ofChars

/-- Neither the line breaks of a layout nor its indentation are seen in its tokens. -/
lemma ofText_text (l : Layout) : ofText l.text = l.tokens := by
  have hrows (rs : List (List Char)) : ofChars (unlines rs) = rs.flatMap ofChars := by
    induction rs with
    | nil => rfl
    | cons r rs ih =>
      have hseam : Apart r ('\n' :: unlines rs) := by
        rintro a - _ ⟨⟩
        simp [isMark_newline]
      rw [unlines_cons, ofChars_append hseam, ofChars_blank _ rfl, ih, List.flatMap_cons]
  have hindent (k : Nat) (t : List Char) : ofChars (List.replicate k ' ' ++ t) = ofChars t := by
    induction k with
    | zero => rfl
    | succ k ih => rw [List.replicate_succ, List.cons_append, ofChars_blank _ rfl, ih]
  rw [ofText, toList_text, hrows, List.flatMap_def, map_rows hindent, ← List.flatMap_def, tokens]

@[simp] lemma tokens_line (s : String) : (line s).tokens = ofText s := List.flatMap_singleton _ _

@[simp] lemma tokens_blank : blank.tokens = [] := rfl

@[simp] lemma tokens_all (ls : List Layout) : (all ls).tokens = ls.flatMap tokens := by
  rw [tokens, texts_all, List.flatMap_assoc]
  rfl

@[simp] lemma tokens_block (opening closing : String) (body : Layout) :
    (block opening closing body).tokens =
      ofText opening ++ mark '\x7b' :: (body.tokens ++ ofText closing) := by
  have hbrace : ofChars ['\x7b'] = [mark '\x7b'] := rfl
  rw [tokens, texts, List.flatMap_append, List.flatMap_cons, List.flatMap_append,
    List.flatMap_singleton, hbrace]
  split
  · next h =>
    rw [String.isEmpty_iff.mp h]
    rfl
  · rw [List.flatMap_singleton]
    rfl

end Layout

section

variable {name : String} (hname : isIdentifier name)

include hname

lemma tokens_header : (Header.streamOperators name).tokens =
    outputHead name ++ [mark ';'] ++ (inputHead name ++ [mark ';']) := by
  have houtput : ofText s!"std::ostream & operator<<(std::ostream & os, {name} value);" =
      outputHead name ++ [mark ';'] := by
    refine (ofText_around hname (by decide) (by decide)).trans ?_
    rfl
  have hinput : ofText s!"std::istream & operator>>(std::istream & is, {name} & value);" =
      inputHead name ++ [mark ';'] := by
    refine (ofText_around hname (by decide) (by decide)).trans ?_
    rfl
  simp [Header.streamOperators, houtput, hinput]

lemma tokens_source : (Source.streamOperators name).tokens =
    outputHead name ++ outputBody ++ (inputHead name ++ inputBody name) := by
  have houtput : ofText s!"std::ostream & operator<<(std::ostream & os, {name} value)" =
      outputHead name := by
    refine (ofText_around hname (by decide) (by decide)).trans ?_
    rfl
  have hinput : ofText s!"std::istream & operator>>(std::istream & is, {name} & value)" =
      inputHead name := by
    refine (ofText_around hname (by decide) (by decide)).trans ?_
    rfl
  have hvalue : ofText s!"value = name_to_value<{name}>(token);" =
      [word "value", mark '=', word "name_to_value", mark '<', word name, mark '>', mark '(',
        word "token", mark ')', mark ';'] := by
    have hfront : ofText "value = name_to_value<" =
        [word "value", mark '=', word "name_to_value", mark '<'] := by decide +kernel
    refine (ofText_around hname (by decide) (by decide)).trans ?_
    exact congrArg (· ++ word name :: ofText ">(token);") hfront
  have hwrite : ofText "return os << value_to_name(value);" = [word "return", word "os", mark '<',
      mark '<', word "value_to_name", mark '(', word "value", mark ')', mark ';'] := by
    decide +kernel
  have htoken : ofText "std::string token;" =
      [word "std", scope, word "string", word "token", mark ';'] := by decide
  have hread : ofText "if (is >> token)" =
      [word "if", mark '(', word "is", mark '>', mark '>', word "token", mark ')'] := by decide
  have hreturn : ofText "return is;" = [word "return", word "is", mark ';'] := by decide
  have hbrace : ofText "\x7d" = [mark '\x7d'] := rfl
  simp [Source.streamOperators, outputBody, inputBody, houtput, hinput, hvalue, hwrite, htoken,
    hread, hreturn, hbrace]

lemma ne_return : name ≠ "return" := by
  rintro rfl
  exact absurd hname (by decide +kernel)

theorem typeUses_header :
    typeUses (Header.streamOperators name).text = [(name, ["os"]), (name, ["is"])] := by
  rw [typeUses, Layout.ofText_text, tokens_header hname, Scan.run_append,
    Scan.run_outputDeclaration (ne_return hname), Scan.run_inputDeclaration (ne_return hname)]
  rfl

theorem typeUses_source :
    typeUses (Source.streamOperators name).text =
      [(name, ["os"]), (name, ["is"]), (name, ["token", "value", "is"])] := by
  rw [typeUses, Layout.ofText_text, tokens_source hname, Scan.run_append,
    Scan.run_output (ne_return hname), Scan.run_input (ne_return hname)]
  rfl

lemma hidesType_header_iff :
    HidesType (Header.streamOperators name).text ↔ name ∈ ["os", "is"] := by
  simp [HidesType, typeUses_header hname]

lemma hidesType_source_iff :
    HidesType (Source.streamOperators name).text ↔ name ∈ ["os", "is", "value", "token"] := by
  simp only [HidesType, typeUses_source hname, List.mem_cons, List.not_mem_nil, or_false,
    exists_eq_or_imp, exists_eq_left]
  tauto

end

/-! ### In the files -/

/-- Each of the layouts that make up a layout is written as it stands. -/
lemma Layout.isInfix_text_all {l : Layout} {ls : List Layout} (h : l ∈ ls) :
    l.text.toList <:+: (all ls).text.toList := by
  obtain ⟨before, behind, rfl⟩ := List.append_of_mem h
  refine ⟨unlines (before.flatMap (·.rows 0)), unlines (behind.flatMap (·.rows 0)), ?_⟩
  simp [toList_text]

lemma isInfix_guarded (guard : String) (body : Layout) :
    body.text.toList <:+: (Header.guarded guard body).text.toList :=
  Layout.isInfix_text_all (by simp)

lemma isInfix_header (d : Definition) (cs : List Constant) (extension : String) :
    (Header.streamOperators d.name).text.toList <:+:
      (Header.layout d cs extension).text.toList := by
  refine List.IsInfix.trans ?_ (isInfix_guarded _ _)
  exact Layout.isInfix_text_all (by simp)

lemma isInfix_source (d : Definition) (t : Lookup) (headerFile : String) :
    (Source.streamOperators d.name).text.toList <:+:
      (Source.layout d t headerFile).text.toList :=
  Layout.isInfix_text_all (by simp)

/-- The files of an accepted definition hold its stream operators. -/
lemma Definition.exists_streamOperators {d : Definition} {e : Enumeration} (h : d.check = .ok e)
    {x : Extensions} (hx : x.header ≠ x.source) :
    ∃ files, d.generate x = .ok files ∧
      (Header.streamOperators d.name).text.toList <:+: files.header.toList ∧
      (Source.streamOperators d.name).text.toList <:+: files.source.toList := by
  obtain ⟨rfl, -⟩ := Enumeration.valid_of_check h
  obtain ⟨files, hfiles, hheader, hsource⟩ := e.render_eq_ok hx
  refine ⟨files, Definition.generate_eq_ok_iff.mpr ⟨e, h, hfiles⟩, ?_, ?_⟩
  · rw [hheader]
    exact isInfix_header _ _ _
  · rw [hsource]
    exact isInfix_source _ _ _

/-- **Hidden types**: the files of an accepted definition hold the stream operators, which name the
type at the places listed here, in their declarations and in their definitions. A variable hides it
there just when it has the name of one that is declared before such a place. -/
theorem Definition.name_hidden_iff {d : Definition} {e : Enumeration} (h : d.check = .ok e)
    {x : Extensions} (hx : x.header ≠ x.source) :
    (∃ files, d.generate x = .ok files ∧
        (Header.streamOperators d.name).text.toList <:+: files.header.toList ∧
        (Source.streamOperators d.name).text.toList <:+: files.source.toList) ∧
      typeUses (Header.streamOperators d.name).text = [(d.name, ["os"]), (d.name, ["is"])] ∧
      typeUses (Source.streamOperators d.name).text =
        [(d.name, ["os"]), (d.name, ["is"]), (d.name, ["token", "value", "is"])] ∧
      (HidesType (Header.streamOperators d.name).text ↔ d.name ∈ ["os", "is"]) ∧
      (HidesType (Source.streamOperators d.name).text ↔
        d.name ∈ ["os", "is", "value", "token"]) := by
  obtain ⟨rfl, he⟩ := Enumeration.valid_of_check h
  exact ⟨exists_streamOperators h hx, typeUses_header he.typeName, typeUses_source he.typeName,
    hidesType_header_iff he.typeName, hidesType_source_iff he.typeName⟩

/-- An enumeration that is named as asked for. -/
def named (name : String) : Definition where
  name := name
  values := some (.names ["RED"])

theorem value_hidden :
    ¬ HidesType (Header.streamOperators "value").text ∧
      HidesType (Source.streamOperators "value").text := by
  have hcheck : (named "value").check = .ok ⟨named "value", [⟨"RED", .integer 0⟩]⟩ := by cbv
  obtain ⟨-, -, -, hheader, hsource⟩ := Definition.name_hidden_iff hcheck (x := {}) (by decide)
  exact ⟨mt hheader.mp (by decide), hsource.mpr (by decide)⟩

/-- A type of the name is accepted, and its source has it hidden. -/
def AcceptedHidden (name : String) : Prop :=
  ∃ e files, (named name).check = .ok e ∧ (named name).generate {} = .ok files ∧
    (Source.streamOperators name).text.toList <:+: files.source.toList ∧
    HidesType (Source.streamOperators name).text

lemma acceptedHidden_of_check {name : String}
    (h : (named name).check = .ok ⟨named name, [⟨"RED", .integer 0⟩]⟩)
    (hmem : name ∈ ["os", "is", "value", "token"]) : AcceptedHidden name := by
  obtain ⟨files, hfiles, -, hsource⟩ := Definition.exists_streamOperators h (x := {}) (by decide)
  have hname : isIdentifier name := (Enumeration.valid_of_check h).2.typeName
  exact ⟨_, files, h, hfiles, hsource, (hidesType_source_iff hname).mpr hmem⟩

/-- The name of each variable can be that of a type. -/
theorem names_of_variables_hidden :
    AcceptedHidden "os" ∧ AcceptedHidden "is" ∧ AcceptedHidden "value" ∧
      AcceptedHidden "token" := by
  refine ⟨acceptedHidden_of_check ?_ ?_, acceptedHidden_of_check ?_ ?_,
    acceptedHidden_of_check ?_ ?_, acceptedHidden_of_check ?_ ?_⟩
  all_goals decide

end EnumForge
