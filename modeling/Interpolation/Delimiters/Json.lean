import Interpolation.Delimiters.Basic
import Interpolation.Json.Reader
import Interpolation.Json.Writer

/-!
# Delimiters as JSON

A configuration is an object of up to three fields.  What a field leaves out has its default;
members of other names are passed over, whatever they hold.  The values alone, in the order of the
fields, are understood as well.

## Main definitions

* `ConfigFault`: why a document is no configuration.
* `Delimiters.ofJson`: the configuration that a document describes.
* `Delimiters.parseJson`: the configuration that a text describes, if neither token is empty.
* `Delimiters.toJson`: the document of a configuration.
-/

namespace Interpolation

/-- The fields of a configuration. -/
inductive ConfigField where
  /-- One of the two tokens. -/
  | token (t : DelimiterToken)
  /-- Whether the text is a template. -/
  | template
deriving DecidableEq

/-- The name of a field in a document. -/
def ConfigField.name : ConfigField → String
  | token t => t.name
  | template => "template"

/-- The fields, in the order in which a document without names gives them. -/
def ConfigField.all : List ConfigField := [.token .opening, .token .closing, .template]

/-- The field of a name, if there is one. -/
def ConfigField.ofName? (name : String) : Option ConfigField :=
  ConfigField.all.find? (·.name = name)

/-- Why a document is no configuration. -/
inductive ConfigFault where
  /-- The text is no document. -/
  | notJson
  /-- The document is neither an object nor an array. -/
  | notFields
  /-- The name of a member has half a surrogate pair alone. -/
  | unreadableName
  /-- A field has a value of the wrong kind. -/
  | unsuitable (field : ConfigField)
  /-- A field is given twice. -/
  | repeated (field : ConfigField)
  /-- There are more values than fields. -/
  | tooMany
deriving DecidableEq

/-- A fault in words. -/
def ConfigFault.message : ConfigFault → String
  | notJson => "the text is not a JSON document"
  | notFields => "expected an object or an array"
  | unreadableName => "the name of a member is not valid text"
  | unsuitable (.token token) => "the field '" ++ token.name ++ "' must be a string"
  | unsuitable .template => "the field 'template' must be true or false"
  | repeated field => "duplicate field '" ++ field.name ++ "'"
  | tooMany => "expected at most three values"

namespace Delimiters

/-- A configuration with one field changed to the value that a document gives. -/
def setField (d : Delimiters) : ConfigField → Json → Except ConfigFault Delimiters
  | .token token, json =>
    match json.toString?, token with
    | some text, .opening => .ok { d with opening := text }
    | some text, .closing => .ok { d with closing := text }
    | none, _ => .error (.unsuitable (.token token))
  | .template, json =>
    match json.toBool? with
    | some template => .ok { d with template := template }
    | none => .error (.unsuitable .template)

/-- A configuration with the values of the members of an object; `given` are the fields that have
been given already. -/
def setMembers (d : Delimiters) (given : List ConfigField) :
    List (JsonText × Json) → Except ConfigFault Delimiters
  | [] => .ok d
  | (name, json) :: members =>
    match name.toString? with
    | none => .error .unreadableName
    | some name =>
      match ConfigField.ofName? name with
      -- A name that is no field is passed over.
      | none => setMembers d given members
      | some field =>
        if field ∈ given then .error (.repeated field)
        else
          match d.setField field json with
          | .error fault => .error fault
          | .ok d => setMembers d (field :: given) members

/-- A configuration with the given values of the first of the given fields. -/
def setValues (d : Delimiters) : List ConfigField → List Json → Except ConfigFault Delimiters
  | _, [] => .ok d
  | [], _ :: _ => .error .tooMany
  | field :: fields, json :: values =>
    match d.setField field json with
    | .error fault => .error fault
    | .ok d => setValues d fields values

/-- The configuration that a document describes: from its members by name, or from its values by
their order. -/
def ofJson : Json → Except ConfigFault Delimiters
  | .object members => setMembers .hash [] members
  | .array values => setValues .hash ConfigField.all values
  | _ => .error .notFields

/-- The configuration that a text describes.  Neither of its tokens may be empty. -/
def parseJson (text : String) : Except Error Delimiters :=
  match Json.parse? text with
  | none => .error (.unspanned (.invalidConfig ConfigFault.notJson.message))
  | some json =>
    match ofJson json with
    | .error fault => .error (.unspanned (.invalidConfig fault.message))
    | .ok d => d.check.map fun _ => d

/-- The document of a configuration, with all its fields. -/
def toJson (d : Delimiters) : Json :=
  .ofMembers
    [(ConfigField.name (.token .opening), .ofString d.opening),
      (ConfigField.name (.token .closing), .ofString d.closing),
      (ConfigField.name .template, .bool d.template)]

end Delimiters

end Interpolation
