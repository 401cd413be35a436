import Interpolation.CommandLine.Arguments

/-!
# Invocations

What the arguments of the program ask for.  Options for all commands may stand in front of the name
of the command and behind it; of both the one behind counts.  Apart from that each option is given
once, variables excepted.

## Main definitions

* `Invocation`, `Command`: what is asked for.
* `Invocation.ofArguments`: the invocation of a list of arguments.
-/

namespace Interpolation.CommandLine

/-- How an error is shown. -/
inductive DiagnosticStyle where
  /-- With all that is known about it. -/
  | fancy
  /-- With the lines of the template that it concerns. -/
  | plain
deriving DecidableEq

/-- The style of a name on the command line. -/
def DiagnosticStyle.ofName? : String → Option DiagnosticStyle
  | "fancy" => some fancy
  | "plain" => some plain
  | _ => none

/-- Where a template comes from. -/
inductive Input where
  /-- It is given as an argument. -/
  | text (s : String)
  /-- It is in a file. -/
  | file (path : String)
  /-- It is read from standard input. -/
  | standardInput
deriving DecidableEq

/-- Where variables come from: a file, and then assignments. -/
structure Variables where
  /-- The file of variables, if one is given. -/
  file? : Option String
  /-- The assignments, in their order. -/
  assignments : List String
deriving DecidableEq

/-- What the program is to do. -/
inductive Command where
  /-- Show the segments of a template. -/
  | segments (input : Input) (json : Bool)
  /-- Read a template and count its pieces. -/
  | check (input : Input)
  /-- Evaluate a template to text. -/
  | render (input : Input) (vars : Variables)
  /-- Evaluate an expression. -/
  | eval (expression : String) (vars : Variables)
deriving DecidableEq

/-- What a run of the program is asked for. -/
structure Invocation where
  /-- The token in front of an expression, where it is not that of the configuration. -/
  opening? : Option String
  /-- The token behind an expression, where it is not that of the configuration. -/
  closing? : Option String
  /-- Whether expressions are marked with a dollar. -/
  dollar : Bool
  /-- The file that the delimiters are read from. -/
  config? : Option String
  /-- How an error is shown. -/
  style : DiagnosticStyle
  /-- What is to be done. -/
  command : Command
deriving DecidableEq

/-- The options and the operand that are given in front of the name of a command, or behind it. -/
structure Level where
  opening? : Option String
  closing? : Option String
  dollar : Bool
  config? : Option String
  style? : Option DiagnosticStyle
  text? : Option String
  json : Bool
  varsFile? : Option String
  assignments : List String
  operand? : Option String

/-- The names of the commands. -/
def commandNames : List String := ["segments", "check", "render", "eval"]

/-- The command that explains the others. -/
def helpName : String := "help"

/-- The settings of all commands. -/
def commonSettings : List Setting := [.opening, .closing, .config, .diagnostics]

/-- The arguments in front of a command. -/
def programGrammar : ArgumentGrammar := ⟨[.dollar], commonSettings, helpName :: commandNames, true⟩

/-- The arguments of a command. -/
def commandGrammar (name : String) : ArgumentGrammar :=
  match name with
  | "segments" => ⟨[.dollar, .json], .text :: commonSettings, [], false⟩
  | "check" => ⟨[.dollar], .text :: commonSettings, [], false⟩
  | "render" => ⟨[.dollar], .text :: .var :: .vars :: commonSettings, [], false⟩
  | _ => ⟨[.dollar], .var :: .vars :: commonSettings, [], false⟩

namespace Level

/-- Nothing is given. -/
def empty : Level := ⟨none, none, false, none, none, none, false, none, [], none⟩

/-- A value that is given for the first time. -/
def once {α : Type} (earlier : Option α) (value : α) : Except Stop (Option α) :=
  if earlier.isSome then .error .misuse else .ok (some value)

/-- A path that is given for the first time and is not empty. -/
def oncePath (earlier : Option String) (path : String) : Except Stop (Option String) :=
  if path = "" then .error .misuse else once earlier path

/-- A switch that is given for the first time. -/
def onceOn (earlier : Bool) : Except Stop Bool :=
  if earlier then .error .misuse else .ok true

/-- One more argument.  Where the operand is a path, it must not be empty. -/
def add (operandIsPath : Bool) (level : Level) : Argument → Except Stop Level
  | .switch .dollar => (onceOn level.dollar).map fun v => { level with dollar := v }
  | .switch .json => (onceOn level.json).map fun v => { level with json := v }
  | .setting .opening s => (once level.opening? s).map fun v => { level with opening? := v }
  | .setting .closing s => (once level.closing? s).map fun v => { level with closing? := v }
  | .setting .config s => (oncePath level.config? s).map fun v => { level with config? := v }
  | .setting .diagnostics s =>
    match DiagnosticStyle.ofName? s with
    | some style => (once level.style? style).map fun v => { level with style? := v }
    | none => .error .misuse
  | .setting .text s => (once level.text? s).map fun v => { level with text? := v }
  | .setting .var s => .ok { level with assignments := level.assignments ++ [s] }
  | .setting .vars s => (oncePath level.varsFile? s).map fun v => { level with varsFile? := v }
  | .operand s =>
    (if operandIsPath then oncePath level.operand? s else once level.operand? s).map
      fun v => { level with operand? := v }

/-- All arguments, one after the other. -/
def addAll (operandIsPath : Bool) (level : Level) : List Argument → Except Stop Level
  | [] => .ok level
  | argument :: arguments =>
    match level.add operandIsPath argument with
    | .error stop => .error stop
    | .ok level => addAll operandIsPath level arguments

/-- Two configurations are not asked for at once. -/
def isConsistent (level : Level) : Bool := !(level.dollar && level.config?.isSome)

/-- The template: its text, its file, or standard input where neither is given. -/
def input (level : Level) : Except Stop Input :=
  match level.text?, level.operand? with
  | some _, some _ => .error .misuse
  | some s, none => .ok (.text s)
  | none, some path => .ok (.file path)
  | none, none => .ok .standardInput

/-- The variables that are given. -/
def vars (level : Level) : Variables := ⟨level.varsFile?, level.assignments⟩

/-- The command of a name, from what is given for it. -/
def command (level : Level) : String → Except Stop Command
  | "segments" => level.input.map (.segments · level.json)
  | "check" => level.input.map .check
  | "render" => level.input.map (.render · level.vars)
  | _ =>
    match level.operand? with
    | some expression => .ok (.eval expression level.vars)
    | none => .error .misuse

end Level

namespace Invocation

/-- What is asked for by the options in front of a command and by its arguments. -/
def ofCommand (front : Level) (name : String) (arguments : List String) :
    Except Stop Invocation :=
  let reading := (commandGrammar name).read arguments
  match Level.empty.addAll (name ≠ "eval") reading.arguments, reading.ending with
  | .error stop, _ | .ok _, .stopped stop => .error stop
  | .ok level, _ =>
    match level.command name with
    | .error stop => .error stop
    | .ok command =>
      -- Each of the two levels is consistent by itself; together they need not be.
      if level.isConsistent ∧ front.isConsistent then
        .ok
          { opening? := level.opening?.or front.opening?
            closing? := level.closing?.or front.closing?
            dollar := level.dollar || front.dollar
            config? := level.config?.or front.config?
            style := (level.style?.or front.style?).getD .fancy
            command }
      else .error .misuse

/-- What the arguments of the program ask for.  Operands in front of a command are not understood,
and help can be asked for about one command at a time. -/
def ofArguments (arguments : List String) : Except Stop Invocation :=
  let reading := programGrammar.read arguments
  match reading.arguments.any (fun | .operand _ => true | _ => false),
      Level.empty.addAll false reading.arguments, reading.ending with
  | true, _, _ | _, _, .finished => .error .misuse
  | _, .error stop, _ | _, .ok _, .stopped stop => .error stop
  | false, .ok front, .command name rest =>
    if name = helpName then
      .error (if rest = [] ∨ rest ∈ (helpName :: commandNames).map ([·]) then .help else .misuse)
    else ofCommand front name rest

end Invocation

end Interpolation.CommandLine
