import Interpolation.CommandLine.Files
import Interpolation.CommandLine.Invocation
import Interpolation.Delimiters.Json
import Interpolation.Diagnostic
import Interpolation.Expression.Parser
import Interpolation.Segment.Json
import Interpolation.Segment.Table
import Interpolation.Value.Json

/-!
# Running a command

A run takes its surroundings as they are given, files and standard input included, and answers with
an exit code and two texts.

## Main definitions

* `Surroundings`, `Outcome`: what a run depends on, and what it leaves behind.
* `Invocation.delimiters`, `Input.read`, `Variables.read`: what an invocation refers to.
* `Invocation.execute`: the output of a command, or its failure.
* `run`: a whole run.
-/

namespace Interpolation.CommandLine

/-- What a run depends on. -/
structure Surroundings where
  /-- The text of the file at a path. -/
  file : String → Except ReadFailure String
  /-- The text on standard input. -/
  standardInput : Except ReadFailure String
  /-- Whether the terminal shows styles. -/
  color : Bool

/-- What a run leaves behind. -/
structure Outcome where
  /-- Zero for a success. -/
  exitCode : Nat
  /-- What is written to standard output. -/
  output : String
  /-- What is written to standard error. -/
  errors : String

/-- The error of something outside the program. -/
def failure (message : String) : Error := .unspanned (.inputOutput message)

/-- The text of a file, which an error names. -/
def Surroundings.contents (s : Surroundings) (path : String) : Except Error String :=
  (s.file path).mapError fun reason =>
    failure ("failed to read '" ++ path ++ "': " ++ reason.message)

/-- The text of a template. -/
def Input.read (s : Surroundings) : Input → Except Error String
  | text t => .ok t
  | file path => s.contents path
  | standardInput =>
    s.standardInput.mapError fun reason =>
      failure ("failed to read standard input: " ++ reason.message)

/-- The name and the value of an assignment, which stand around its first equals sign.  The value
is a JSON document where it spells one, and a text otherwise. -/
def readAssignment (assignment : String) : Except Error (String × Value) :=
  match splitEquals assignment.toList with
  | (_, none) => .error (failure ("expected NAME=VALUE, got '" ++ assignment ++ "'"))
  | (name, some text) =>
    .ok (String.ofList (trim name.toList), (Value.parseJson? text).getD (.string text))

/-- A scope after some assignments, one after the other. -/
def assignAll (scope : Scope) : List String → Except Error Scope
  | [] => .ok scope
  | assignment :: assignments =>
    match readAssignment assignment with
    | .error e => .error e
    | .ok (name, value) => assignAll (scope.set name value) assignments

/-- The scope of the variables in a file. -/
def readScope (s : Surroundings) (path : String) : Except Error Scope :=
  match s.contents path with
  | .error e => .error e
  | .ok text =>
    match Value.parseJson? text with
    | some (.map entries) => .ok ⟨entries⟩
    | _ => .error (failure ("'" ++ path ++ "' is not a JSON object: expected an object"))

/-- The scope of variables: an assignment counts more than the file. -/
def Variables.read (s : Surroundings) (v : Variables) : Except Error Scope :=
  match v.file? with
  | none => assignAll .empty v.assignments
  | some path =>
    match readScope s path with
    | .error e => .error e
    | .ok scope => assignAll scope v.assignments

namespace Invocation

/-- The delimiters before single tokens are replaced: those of a file, or one of the two presets. -/
def presetDelimiters (s : Surroundings) (i : Invocation) : Except Error Delimiters :=
  match i.config? with
  | some path =>
    match s.contents path with
    | .error e => .error e
    | .ok text => Delimiters.parseJson text
  | none => .ok (if i.dollar then .dollar else .hash)

/-- The delimiters of an invocation, none of which may be empty. -/
def delimiters (s : Surroundings) (i : Invocation) : Except Error Delimiters :=
  match i.presetDelimiters s with
  | .error e => .error e
  | .ok preset =>
    -- A token that is given by itself counts more than the preset.
    let d : Delimiters :=
      { preset with
        opening := i.opening?.getD preset.opening
        closing := i.closing?.getD preset.closing }
    d.check.map fun _ => d

end Invocation

/-- A line of the table of segments; expressions stand out. -/
def styledRow (s : Segment) : List Styled :=
  (if s.isExpression then [.style ⟨.green, true⟩] else []) ++ [.text (s.row ++ "\n"), .reset]

/-- A text without any style. -/
def plainly (text : String) : List Styled := [.text text]

/-- The segments of a template, as a document or as a table. -/
def showSegments (s : Surroundings) (d : Delimiters) (input : Input) (json : Bool) :
    Except Error (List Styled) :=
  match input.read s with
  | .error e => .error e
  | .ok text =>
    match segment text d with
    -- The division does not know where its text comes from.
    | .error e => .error (e.withSource text)
    | .ok segments =>
      .ok
        (if json then plainly ((Json.array (segments.map Segment.toJson)).indented ++ "\n")
        else segments.flatMap styledRow)

/-- How many pieces a template has, if it can be read. -/
def checkTemplate (s : Surroundings) (d : Delimiters) (input : Input) :
    Except Error (List Styled) :=
  match input.read s with
  | .error e => .error e
  | .ok text =>
    (parseInput Expression.parse text (some d)).map fun t => plainly (t.summary ++ "\n")

/-- Evaluates a template to text.  The template is not read before the variables are. -/
def renderTemplate (s : Surroundings) (d : Delimiters) (input : Input) (vars : Variables) :
    Except Error (List Styled) :=
  match input.read s with
  | .error e => .error e
  | .ok text =>
    -- A fault of the variables is reported before one of the template.
    match vars.read s with
    | .error e => .error e
    | .ok scope =>
      match parseInput Expression.parse text (some d) with
      | .error e => .error e
      | .ok t => (renderText t scope).map plainly

/-- The value of an expression as a line of text. -/
def evaluateExpression (s : Surroundings) (text : String) (vars : Variables) :
    Except Error (List Styled) :=
  match vars.read s with
  | .error e => .error e
  | .ok scope =>
    match parseInput Expression.parse text none with
    | .error e => .error e
    | .ok t => (Evaluable.value t scope).map fun value => plainly (value.display ++ "\n")

/-- The output of a command, or its failure.  The delimiters are looked at first, whether the
command needs them or not. -/
def Invocation.execute (s : Surroundings) (i : Invocation) : Except Error (List Styled) :=
  match i.delimiters s with
  | .error e => .error e
  | .ok d =>
    match i.command with
    | .segments input json => showSegments s d input json
    | .check input => checkTemplate s d input
    | .render input vars => renderTemplate s d input vars
    | .eval expression vars => evaluateExpression s expression vars

/-- A failure with all that is known about it, for a reader who has no view of the template. -/
def report (e : Error) : String :=
  let labels := (e.labels.getD []).map fun label =>
    "  " ++ label.text ++ " (bytes " ++ toString label.start ++ " to "
      ++ toString (label.start + label.length) ++ ")\n"
  e.kind.code ++ "\n\n" ++ e.message ++ "\n" ++ String.join labels
    ++ (match e.help with
      | some help => "help: " ++ help ++ "\n"
      | none => "")

/-- An error in the style that was asked for. -/
def showError (style : DiagnosticStyle) (color : Bool) (e : Error) : String :=
  match style with
  | .plain => Styled.render color (Diagnostic.ofError e).styled
  | .fancy => report e

/-- The name and the version of the program. -/
def versionLine : String := "templex 0.1.0\n"

/-- How the program is called. -/
def usage : String :=
  "Usage: templex [--prefix TOKEN] [--suffix TOKEN] [--dollar | --config FILE]\n" ++
  "               [--diagnostics fancy|plain] COMMAND\n" ++
  "\n" ++
  "Commands:\n" ++
  "  segments [FILE | --text TEXT] [--json]\n" ++
  "  check    [FILE | --text TEXT]\n" ++
  "  render   [FILE | --text TEXT] [--var NAME=VALUE]... [--vars FILE]\n" ++
  "  eval     EXPRESSION [--var NAME=VALUE]... [--vars FILE]\n"

/-- The outcome of a run that is not begun. -/
def Stop.outcome : Stop → Outcome
  | misuse => ⟨2, "", usage⟩
  | help => ⟨0, usage, ""⟩
  | version => ⟨0, versionLine, ""⟩

/-- A whole run, from its arguments to what it leaves behind. -/
def run (arguments : List String) (s : Surroundings) : Outcome :=
  match Invocation.ofArguments arguments with
  | .error stop => stop.outcome
  | .ok i =>
    match i.execute s with
    | .ok output => ⟨0, Styled.render s.color output, ""⟩
    | .error e => ⟨1, "", showError i.style s.color e⟩

/-! ## What a run reads -/

/-- The file and whether standard input is read for a template. -/
def Input.sources : Input → List String × Bool
  | text _ => ([], false)
  | file path => ([path], false)
  | standardInput => ([], true)

/-- The files that an invocation reads, and whether it reads standard input. -/
def Invocation.sources (i : Invocation) : List String × Bool :=
  let (files, input) :=
    match i.command with
    | .segments input _ | .check input => input.sources
    | .render input vars =>
      let (files, standard) := input.sources
      (files ++ vars.file?.toList, standard)
    | .eval _ vars => (vars.file?.toList, false)
  (i.config?.toList ++ files, input)

/-- The files that a run with the given arguments reads, and whether it reads standard input. -/
def sources (arguments : List String) : List String × Bool :=
  match Invocation.ofArguments arguments with
  | .ok i => i.sources
  | .error _ => ([], false)

end Interpolation.CommandLine
