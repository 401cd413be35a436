/-!
# Command-line arguments

Arguments are switches, settings with a value, and operands.  Words with two hyphens in front are
switches and settings; the value of a setting follows behind an equals sign or as the next argument,
which then must not look like an option.  Behind two hyphens alone, everything is an operand.  The
first operand of the program is the name of a command, which takes the arguments behind it.

Arguments are judged in their order, so whatever stops the program first decides.

## Main definitions

* `ArgumentGrammar`: which arguments a command takes.
* `Argument`, `Reading`: what arguments mean, and where reading them ends.
* `ArgumentGrammar.read`: the meaning of a list of arguments.
-/

namespace Interpolation.CommandLine

/-- Options without a value. -/
inductive Switch where
  /-- Expressions are marked with a dollar. -/
  | dollar
  /-- The output is a document. -/
  | json
deriving DecidableEq

/-- Options with a value. -/
inductive Setting where
  /-- The token in front of an expression. -/
  | opening
  /-- The token behind an expression. -/
  | closing
  /-- The file of a delimiter configuration. -/
  | config
  /-- How errors are shown. -/
  | diagnostics
  /-- The template itself, in place of a file. -/
  | text
  /-- A variable with its value. -/
  | var
  /-- The file of variables. -/
  | vars
deriving DecidableEq

/-- The name of a switch on the command line. -/
def Switch.name : Switch → String
  | dollar => "dollar"
  | json => "json"

/-- The name of a setting on the command line. -/
def Setting.name : Setting → String
  | opening => "prefix"
  | closing => "suffix"
  | config => "config"
  | diagnostics => "diagnostics"
  | text => "text"
  | var => "var"
  | vars => "vars"

/-- Which arguments a command takes. -/
structure ArgumentGrammar where
  /-- The switches that are understood. -/
  switches : List Switch
  /-- The settings that are understood. -/
  settings : List Setting
  /-- The names of the commands that may follow. -/
  commands : List String
  /-- Whether the version can be asked for. -/
  version : Bool

/-- An argument with its meaning. -/
inductive Argument where
  /-- An option without a value. -/
  | switch (s : Switch)
  /-- An option with its value. -/
  | setting (s : Setting) (value : String)
  /-- What is no option. -/
  | operand (text : String)

/-- What ends a run before it has begun. -/
inductive Stop where
  /-- The arguments make no sense. -/
  | misuse
  /-- Help is asked for. -/
  | help
  /-- The version is asked for. -/
  | version
deriving DecidableEq

/-- Where reading arguments ends. -/
inductive Ending where
  /-- All of them are read. -/
  | finished
  /-- The others belong to a command. -/
  | command (name : String) (arguments : List String)
  /-- One of them ends the run. -/
  | stopped (stop : Stop)

/-- The meaning of arguments, and where reading them ends. -/
structure Reading where
  /-- The arguments that are read, in their order. -/
  arguments : List Argument
  /-- What has become of the others. -/
  ending : Ending

/-- A reading with one more argument in front. -/
def Reading.cons (argument : Argument) (reading : Reading) : Reading :=
  { reading with arguments := argument :: reading.arguments }

/-- A reading that ends at once. -/
def Reading.stop (stop : Stop) : Reading := ⟨[], .stopped stop⟩

/-- What an argument looks like, before its meaning is known. -/
inductive Form where
  /-- Two hyphens alone. -/
  | terminator
  /-- A name behind two hyphens, perhaps with a value behind an equals sign. -/
  | long (name : String) (value? : Option String)
  /-- Letters behind one hyphen. -/
  | short (letters : List Char)
  /-- Anything else. -/
  | word

/-- The parts of a text in front of and behind its first equals sign. -/
def splitEquals (text : List Char) : String × Option String :=
  (String.ofList (text.takeWhile (· ≠ '=')),
    match text.dropWhile (· ≠ '=') with
    | [] => none
    | _ :: value => some (String.ofList value))

/-- The form of an argument. -/
def Form.of (argument : String) : Form :=
  match argument.toList with
  | ['-', '-'] => .terminator
  | '-' :: '-' :: text =>
    let (name, value?) := splitEquals text
    .long name value?
  | '-' :: c :: letters => .short (c :: letters)
  | _ => .word

/-- Whether an argument cannot be the value of the setting in front of it. -/
def looksLikeOption (argument : String) : Bool :=
  match Form.of argument with
  | .word => false
  | _ => true

namespace ArgumentGrammar

/-- The setting of a name, if it is understood. -/
def setting? (g : ArgumentGrammar) (name : String) : Option Setting :=
  g.settings.find? (·.name = name)

/-- The switch of a name, if it is understood. -/
def switch? (g : ArgumentGrammar) (name : String) : Option Switch :=
  g.switches.find? (·.name = name)

/-- What a name without a meaning of its own asks for. -/
def stopFor (g : ArgumentGrammar) (name : String) : Stop :=
  if name = "help" then .help
  else if name = "version" ∧ g.version then .version
  else .misuse

/-- What letters behind one hyphen ask for: the first one decides. -/
def stopForLetters (g : ArgumentGrammar) : List Char → Stop
  | 'h' :: _ => .help
  | 'V' :: _ => if g.version then .version else .misuse
  | _ => .misuse

/-- The meaning of a list of arguments. -/
def read (g : ArgumentGrammar) : List String → Reading
  | [] => ⟨[], .finished⟩
  | argument :: rest =>
    match Form.of argument with
    -- Nothing behind it is an option any more.
    | .terminator => ⟨rest.map .operand, .finished⟩
    | .short letters => .stop (g.stopForLetters letters)
    | .word =>
      if argument ∈ g.commands then ⟨[], .command argument rest⟩
      else .cons (.operand argument) (read g rest)
    | .long name (some value) =>
      match g.setting? name with
      | some s => .cons (.setting s value) (read g rest)
      | none => .stop .misuse
    | .long name none =>
      match g.setting? name, g.switch? name with
      -- The value is the next argument, which must be there.
      | some s, _ =>
        match rest with
        | value :: rest =>
          if looksLikeOption value then .stop .misuse
          else .cons (.setting s value) (read g rest)
        | [] => .stop .misuse
      | none, some s => .cons (.switch s) (read g rest)
      | none, none => .stop (g.stopFor name)

end ArgumentGrammar

end Interpolation.CommandLine
