import SchemaAtlas.Number.Numeral

/-!
# Expressions

The part of the language that schema declarations are written in: calls, member access, literals,
functions and the statements that return from them. Type assertions leave no trace here, and every
other production is `other`, which all readers skip. Each expression keeps its source text and line.
-/

namespace SchemaAtlas

/-- The source text of an expression and the line on which it starts. -/
structure Extent where
  text : Text
  line : Nat
  deriving DecidableEq, Repr, Inhabited

/-- One `key: value` entry of an object literal, with the comments in front of it. -/
structure Property (ε : Type) where
  extent : Extent
  key : Text
  value : ε
  comments : List Text
  deriving Repr, Inhabited

/-- An expression or statement. A `string` is also a template without substitutions. -/
inductive Expr where
  | identifier (extent : Extent) (name : Text)
  | memberAccess (extent : Extent) (object : Expr) (property : Text)
  | call (extent : Extent) (callee : Expr) (arguments : List Expr)
  | string (extent : Extent) (value : Text)
  | template (extent : Extent) (raw : Text) (substitutions : List Expr)
  | number (extent : Extent) (value : Number)
  | boolean (extent : Extent) (value : Bool)
  | array (extent : Extent) (elements : List Expr)
  | object (extent : Extent) (properties : List (Property Expr))
  | function (extent : Extent) (parameters : List Text) (body : Expr)
  | parenthesized (extent : Extent) (expression : Expr)
  | block (extent : Extent) (statements : List Expr)
  | returned (extent : Extent) (expression : Option Expr)
  | other (extent : Extent) (kind : String)
  deriving Inhabited

abbrev Entry := Property Expr

namespace Expr

def extent : Expr → Extent
  | identifier e .. => e
  | memberAccess e .. => e
  | call e .. => e
  | string e .. => e
  | template e .. => e
  | number e .. => e
  | boolean e .. => e
  | array e .. => e
  | object e .. => e
  | function e .. => e
  | parenthesized e .. => e
  | block e .. => e
  | returned e .. => e
  | other e .. => e

def text (e : Expr) : Text := e.extent.text

def line (e : Expr) : Nat := e.extent.line

def form : Expr → String
  | identifier .. => "Identifier"
  | memberAccess .. => "MemberAccess"
  | call .. => "Call"
  | string .. => "StringLiteral"
  | template .. => "TemplateLiteral"
  | number .. => "NumberLiteral"
  | boolean .. => "BooleanLiteral"
  | array .. => "ArrayLiteral"
  | object .. => "ObjectLiteral"
  | function .. => "FunctionLiteral"
  | parenthesized .. => "Parenthesized"
  | block .. => "Block"
  | returned .. => "ReturnStatement"
  | other .. => "Other"

def unwrap : Expr → Expr
  | parenthesized _ e => e.unwrap
  | e => e

@[simp] theorem unwrap_parenthesized (x : Extent) (e : Expr) :
    (parenthesized x e).unwrap = e.unwrap := rfl

/-- Stripping leaves no parentheses outside. -/
@[simp] theorem unwrap_unwrap (e : Expr) : e.unwrap.unwrap = e.unwrap := by
  induction e using unwrap.induct with
  | case1 x e ih => simpa using ih
  | case2 e h => cases e <;> simp_all [unwrap]

/-- The name that a call to this expression invokes: `f` of `f()` and of `a.b.f()`. -/
def invokedName? : Expr → Option Text
  | identifier _ name => some name
  | memberAccess _ _ property => some property
  | _ => none

def string? : Expr → Option Text
  | string _ value => some value
  | _ => none

def elements? : Expr → Option (List Expr)
  | array _ elements => some elements
  | _ => none

def properties? : Expr → Option (List Entry)
  | object _ properties => some properties
  | _ => none

def number? : Expr → Option Number
  | number _ value => some value
  | _ => none

/-- One call of a chain: the invoked name, where there is one, and the arguments. -/
structure Link where
  name : Option Text
  arguments : List Expr
  deriving Inhabited

/-- The calls of a builder chain from the outermost inward: `integer("id").notNull()` has the links
`notNull` and `integer`. The chain ends at the first callee whose object is no call. -/
def chain : Expr → List Link
  | parenthesized _ e => e.chain
  | call _ (memberAccess _ receiver property) arguments =>
    ⟨some property, arguments⟩ :: receiver.chain
  | call _ callee arguments => [⟨callee.invokedName?, arguments⟩]
  | _ => []

def firstReturned? : List Expr → Option Expr
  | [] => none
  | returned _ e :: _ => e.map unwrap
  | _ :: rest => firstReturned? rest

/-- The expression that a function with this body returns: the body itself, or the expression of the
first return statement of a block. -/
def result? (body : Expr) : Option Expr :=
  match body.unwrap with
  | block _ statements => firstReturned? statements
  | e => some e

/-- The text of a literal or a name; for all else the source text. -/
def literalText : Expr → Text
  | string _ value => value
  | identifier _ name => name
  | e => e.text

/-- The name that a list element stands for: `id`, `users.id` or `"id"`; else the source text
without quotation marks, unless nothing is left of it. -/
def referencedName? (e : Expr) : Option Text :=
  match e.unwrap with
  | identifier _ name => some name
  | memberAccess _ _ property => some property
  | string _ value => some value
  | e =>
    let bare := e.text.filter fun c => c ≠ 0x27 && c ≠ 0x22
    if bare.isEmpty then none else some bare

end Expr

def lastValue? (properties : List Entry) (key : Text) : Option Expr :=
  (properties.reverse.find? (·.key = key)).map (·.value)

end SchemaAtlas
