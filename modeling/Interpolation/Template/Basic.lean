import Interpolation.Template.Evaluable

/-!
# Templates

A template is static text, an expression, or several pieces of both.  An expression that is the
whole template is evaluated as itself, with a value of any kind, and can be assigned if it is a
place.  Of several pieces the values are joined as text, and nothing can be assigned.

## Main definitions

* `Part`, `Composite`, `Template`: a piece, several pieces, and a template.
* `Template.children`: the pieces of any template, as they are evaluated by themselves.
* `Template.summary`: how many pieces of each kind a template has.
-/

namespace Interpolation

/-- A piece of a template. -/
inductive Part (ε : Type) where
  /-- Static text. -/
  | literal (text : String)
  /-- An expression. -/
  | expression (e : ε)

/-- Several pieces, with the text they were read from. -/
structure Composite (ε : Type) where
  /-- The text of the whole template. -/
  source : String
  /-- The pieces, in the order of the text. -/
  parts : List (Part ε)

/-- A template, in one of the three shapes that behave differently. -/
inductive Template (ε : Type) where
  /-- Static text only. -/
  | literal (text : String)
  /-- One expression and nothing else. -/
  | expression (e : ε)
  /-- Anything else. -/
  | composite (c : Composite ε)

/-- A piece of a template, taken by itself. -/
inductive Child (ε : Type) where
  /-- The expression that is the whole template. -/
  | whole (e : ε)
  /-- One piece, which cannot be assigned. -/
  | part (p : Part ε)

variable {ε : Type}

namespace Part

/-- Whether a piece is an expression. -/
def isExpression : Part ε → Bool
  | literal _ => false
  | expression _ => true

variable [Evaluable ε]

/-- A piece has a value and cannot be written. -/
instance : Evaluable (Part ε) where
  value
    | literal text, _ => .ok (.string text)
    | expression e, scope => Evaluable.value e scope
  source
    | literal text => text
    | expression e => Evaluable.source e

end Part

namespace Composite

variable [Evaluable ε]

/-- The texts of pieces, joined; the first piece that fails, fails them all. -/
def joinTexts (scope : Scope) : List (Part ε) → Except Error String
  | [] => .ok ""
  | part :: parts =>
    match renderText part scope with
    | .error e => .error e
    | .ok text => (joinTexts scope parts).map (text ++ ·)

instance : Evaluable (Composite ε) where
  value c scope := (joinTexts scope c.parts).map .string
  source c := c.source

end Composite

namespace Child

/-- Whether a piece is an expression, the whole template or not. -/
def isExpression : Child ε → Bool
  | whole _ => true
  | part p => p.isExpression

/-- What is the whole template behaves as itself; a piece among others cannot be assigned. -/
instance [Evaluable ε] : Evaluable (Child ε) where
  value
    | whole e => Evaluable.value e
    | part p => Evaluable.value p
  source
    | whole e => Evaluable.source e
    | part p => Evaluable.source p
  isWritable
    | whole e => Evaluable.isWritable e
    | part p => Evaluable.isWritable p
  assign
    | whole e => Evaluable.assign e
    | part p => Evaluable.assign p

end Child

namespace Template

/-- The template of the given pieces of a text: a single piece stands for itself. -/
def ofParts (source : String) : List (Part ε) → Template ε
  | [.literal text] => literal text
  | [.expression e] => expression e
  -- Also no piece at all: that template has the empty text.
  | parts => composite ⟨source, parts⟩

/-- The pieces of a template, each as it is evaluated by itself. -/
def children : Template ε → List (Child ε)
  | literal text => [.part (.literal text)]
  | expression e => [.whole e]
  | composite c => c.parts.map .part

/-- Whether a template has several pieces. -/
def isComposite : Template ε → Bool
  | composite _ => true
  | _ => false

/-- How many pieces are static text and how many are expressions, in one line. -/
def summary (t : Template ε) : String :=
  let expressions := t.children.countP Child.isExpression
  "ok: " ++ toString (t.children.length - expressions) ++ " literal(s), " ++ toString expressions
    ++ " expression(s)"

/-- A template has a value; only one that is a single expression can be written. -/
instance [Evaluable ε] : Evaluable (Template ε) where
  value
    | literal text, _ => .ok (.string text)
    | expression e, scope => Evaluable.value e scope
    | composite c, scope => Evaluable.value c scope
  source
    | literal text => text
    | expression e => Evaluable.source e
    | composite c => Evaluable.source c
  isWritable
    | expression e => Evaluable.isWritable e
    | _ => false
  assign
    | literal text, _, scope => (.error (readOnly text), scope)
    | expression e, new, scope => Evaluable.assign e new scope
    | composite c, _, scope => (.error (readOnly c.source), scope)

end Template

end Interpolation
