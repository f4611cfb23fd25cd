import EnumForge.Batch

/-!
The arguments of the command line: three commands with their options, and the ways in which
arguments can be wrong.
-/

namespace EnumForge.CommandLine

/-- Why no command runs. -/
inductive UsageError
  | help | version
  /-- There is no argument at all. -/
  | nothing
  | missingCommand
  | missingInput
  | unknownCommand
  | unknownArgument
  /-- An option that takes one value, or a flag, is given twice. -/
  | repeatedArgument
  /-- An option has no value, or one that it cannot have. -/
  | invalidValue
  /-- A flag has a value. -/
  | unexpectedValue
  deriving DecidableEq

/-- Asking for help or the version is no failure. -/
def UsageError.exitCode : UsageError → Nat
  | help => 0
  | version => 0
  | _ => 2

inductive CommandName
  | generate | check | print
  deriving DecidableEq

def commandName? (s : String) : Option CommandName :=
  if s = "generate" then some .generate
  else if s = "check" then some .check
  else if s = "print" then some .print
  else none

/-- An option that takes a value. -/
inductive ValueOption
  | headerExtension | sourceExtension | outputDirectory | definitionName
  deriving DecidableEq

inductive Switch
  | option (o : ValueOption)
  | keepGoing | verbose | help
  deriving DecidableEq

def longSwitch? (c : CommandName) (name : String) : Option Switch :=
  if name = "header-ext" then some (.option .headerExtension)
  else if name = "source-ext" then some (.option .sourceExtension)
  else if name = "verbose" then some .verbose
  else if name = "help" then some .help
  else if c = .generate && name = "out-dir" then some (.option .outputDirectory)
  else if c = .generate && name = "keep-going" then some .keepGoing
  else if c = .print && name = "name" then some (.option .definitionName)
  else none

def shortSwitch? (c : CommandName) (letter : Char) : Option Switch :=
  if letter = 'v' then some .verbose
  else if letter = 'h' then some .help
  else if c = .generate && letter = 'o' then some (.option .outputDirectory)
  else none

/-! ### The arguments of one command -/

/-- The arguments so far. An option waits for its value, and is entered only with the next argument.
-/
structure Collected where
  inputs : List String := []
  values : List (ValueOption × String) := []
  keepGoing : Bool := false
  verbosity : Nat := 0
  waiting : Option (ValueOption × Option String) := none

namespace Collected

/-- Enters the value of an option. The output directory cannot be the empty path. -/
def enter (c : Collected) (o : ValueOption) (value : String) : Except UsageError Collected :=
  if (c.values.lookup o).isSome then .error .repeatedArgument
  else if o = .outputDirectory && value.isEmpty then .error .invalidValue
  else .ok { c with values := (o, value) :: c.values }

/-- Enters the option that waits. -/
def settle (c : Collected) : Except UsageError Collected :=
  match c.waiting with
  | none => .ok c
  | some (_, none) => .error .invalidValue
  | some (o, some value) =>
    let settled := { c with waiting := none }
    settled.enter o value

def addInput (c : Collected) (input : String) : Except UsageError Collected := do
  let c ← c.settle
  return { c with inputs := c.inputs ++ [input] }

/-- Applies a flag, or lets an option wait for its value. -/
def apply (c : Collected) (s : Switch) : Except UsageError Collected := do
  let c ← c.settle
  match s with
  | .option o => .ok { c with waiting := some (o, none) }
  | .keepGoing => if c.keepGoing then .error .repeatedArgument else .ok { c with keepGoing := true }
  | .verbose => .ok { c with verbosity := c.verbosity + 1 }
  | .help => .error .help

/-- An option with its value in one argument. -/
def applyWith (c : Collected) (o : ValueOption) (value : String) : Except UsageError Collected := do
  (← c.settle).enter o value

/-- An argument that begins with two dashes; a value stands behind an equals sign. -/
def addLong (c : Collected) (command : CommandName) (text : List Char) :
    Except UsageError Collected :=
  let name := String.ofList (text.takeWhile (· != '='))
  let value : Option String :=
    match text.dropWhile (· != '=') with
    | [] => none
    | _ :: cs => some (.ofList cs)
  match longSwitch? command name, value with
  | none, _ => .error .unknownArgument
  | some (.option o), some value => c.applyWith o value
  | some _, some _ => .error .unexpectedValue
  | some s, none => c.apply s

/-- Letters behind one dash. What is behind the letter of an option is its value. -/
def addShort (c : Collected) (command : CommandName) : List Char → Except UsageError Collected
  | [] => .ok c
  | letter :: rest =>
    match shortSwitch? command letter with
    | none => .error .unknownArgument
    | some (.option o) =>
      match rest with
      | [] => c.apply (.option o)
      | '=' :: value => c.applyWith o (.ofList value)
      | value => c.applyWith o (.ofList value)
    | some s => do (← c.apply s).addShort command rest

/-- All arguments of a command. Behind two dashes alone every argument is an input. -/
def addAll (c : Collected) (command : CommandName) (inputsOnly : Bool) :
    List String → Except UsageError Collected
  | [] => c.settle
  | a :: rest => do
    if inputsOnly then (← c.addInput a).addAll command true rest
    else
      match a.toList with
      | ['-', '-'] => c.addAll command true rest
      | '-' :: '-' :: text => (← c.addLong command text).addAll command false rest
      | '-' :: letter :: letters =>
        (← c.addShort command (letter :: letters)).addAll command false rest
      | _ =>
        match c.waiting with
        | some (o, none) =>
          let valued := { c with waiting := some (o, some a) }
          valued.addAll command false rest
        | _ => (← c.addInput a).addAll command false rest

end Collected

/-! ### Commands -/

inductive Command
  | generate (outputDirectory : String) (policy : FailurePolicy)
  | check
  | print (name : Option String)
  deriving DecidableEq

/-- A command with what all commands have. -/
structure Invocation where
  command : Command
  inputs : List String
  extensions : Extensions
  verbosity : Nat
  deriving DecidableEq

/-- An extension may be given with dots in front. -/
def bareExtension (s : String) : String := .ofList (s.toList.dropWhile (· == '.'))

/-- The greatest verbosity that is told apart. -/
def greatestVerbosity : Nat := 255

/-- The invocation of a command. Verbosity behind the name of the command replaces the one before.
-/
def Collected.invocation (c : Collected) (command : CommandName) (verbosity : Nat) :
    Except UsageError Invocation :=
  if c.inputs.isEmpty then .error .missingInput
  else
    .ok {
      command :=
        match command with
        | .generate =>
          .generate ((c.values.lookup .outputDirectory).getD ".")
            (if c.keepGoing then .keepGoing else .stopAtFirst)
        | .check => .check
        | .print => .print (c.values.lookup .definitionName)
      inputs := c.inputs
      extensions :=
        ⟨bareExtension ((c.values.lookup .headerExtension).getD "hpp"),
          bareExtension ((c.values.lookup .sourceExtension).getD "cpp")⟩
      verbosity := min greatestVerbosity (if c.verbosity = 0 then verbosity else c.verbosity) }

/-- Help is there for everything together and for each command, itself included. -/
def helpFor : List String → UsageError
  | [] => .help
  | [topic] => if topic = "help" || (commandName? topic).isSome then .help else .unknownCommand
  | _ => .unknownCommand

/-- Letters behind one dash in front of the command; the verbosity after them. -/
def leadingLetters (verbosity : Nat) : List Char → Except UsageError Nat
  | [] => .ok verbosity
  | 'v' :: rest => leadingLetters (verbosity + 1) rest
  | 'h' :: _ => .error .help
  | 'V' :: _ => .error .version
  | _ => .error .unknownArgument

/-- An argument with two dashes in front of the command; the verbosity after it. -/
def leadingLong (verbosity : Nat) (text : List Char) : Except UsageError Nat :=
  let name := String.ofList (text.takeWhile (· != '='))
  if name = "verbose" || name = "help" || name = "version" then
    if text.contains '=' then .error .unexpectedValue
    else if name = "help" then .error .help
    else if name = "version" then .error .version
    else .ok (verbosity + 1)
  else .error .unknownArgument

/-- The answer when there are no more arguments and no command. -/
def noCommand (verbosity : Nat) : UsageError := if verbosity = 0 then .nothing else .missingCommand

/-- Reads the arguments; `verbosity` counts what is in front of the command. -/
def parseFrom (verbosity : Nat) : List String → Except UsageError Invocation
  | [] => .error (noCommand verbosity)
  | a :: rest =>
    match commandName? a with
    | some command => do
      let c ← ({} : Collected).addAll command false rest
      c.invocation command verbosity
    | none =>
      if a = "help" then .error (helpFor rest)
      else
        match a.toList with
        | ['-', '-'] =>
          match rest with
          | [] => .error (noCommand verbosity)
          | b :: _ =>
            .error (if b = "help" || (commandName? b).isSome then .unknownArgument
              else .unknownCommand)
        | '-' :: '-' :: text => do parseFrom (← leadingLong verbosity text) rest
        | '-' :: letter :: letters => do
          parseFrom (← leadingLetters verbosity (letter :: letters)) rest
        | _ => .error .unknownCommand

def parse (args : List String) : Except UsageError Invocation := parseFrom 0 args

end EnumForge.CommandLine
