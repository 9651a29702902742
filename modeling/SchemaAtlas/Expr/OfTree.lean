import SchemaAtlas.Expr.Basic
import SchemaAtlas.Expr.Escape
import SchemaAtlas.Syntax.Tree

/-!
# From concrete trees to expressions

`Expr.ofTree` reads a node of a concrete tree as an expression. The reader is total on all trees: a
node that lacks a part it needs is read as `other`. It descends as far as the call stack that is
left to the run reaches; beyond it the whole expression is given up.
-/

namespace SchemaAtlas

open Syntax (Tree Kind)

/-- The call stack that is left to a reader of trees: the frames, how many of them a node of each
kind needs for itself beside its first, and how many each part that it holds takes up beside one.
The numbers depend on where a run is started and on the machine that runs it. -/
structure Stack where
  frames : Nat
  own : Kind → Nat
  perPart : Kind → Nat

namespace Stack

def levels (depth : Nat) : Stack := ⟨depth, fun _ => 0, fun _ => 0⟩

/-- Enough is left to read a node of a kind. -/
def Holds (stack : Stack) (kind : Kind) : Prop := stack.own kind < stack.frames

instance (stack : Stack) (kind : Kind) : Decidable (stack.Holds kind) :=
  inferInstanceAs (Decidable (_ < _))

def below (stack : Stack) (holder : Kind) : Stack :=
  { stack with frames := stack.frames - (stack.perPart holder + 1) }

theorem below_frames_lt (stack : Stack) {kind holder : Kind} (h : stack.Holds kind) :
    (stack.below holder).frames < stack.frames := by
  simp only [Holds, below] at *
  omega

end Stack

namespace Expr

/-- Why a tree cannot be read as an expression. -/
inductive Obstacle where
  | nestedTooDeeply
  | codePointBeyondWord
  deriving DecidableEq, Repr

def extentOf (source : Bytes) (t : Tree) : Extent := ⟨t.text source, t.line source⟩

/-- A node read as a production outside the language of declarations. -/
def opaqueNode (source : Bytes) (t : Tree) : Expr := .other (extentOf source t) t.kind.label

def stringPart (source : Bytes) (t : Tree) : Except Obstacle Text :=
  match t.kind with
  | .stringFragment => .ok (t.text source)
  | .escapeSequence =>
    match Escape.decode (t.text source) with
    | .ok value => .ok value
    | .error .beyondWord => .error .codePointBeyondWord
  | _ => .ok []

/-- The value of a string node: its parts one after the other, or, if it has none, the text between
the quotation marks. -/
def stringValue (source : Bytes) (t : Tree) : Except Obstacle Text :=
  if t.namedChildren.isEmpty then .ok (t.text source).inner
  else List.flatten <$> t.namedChildren.mapM (stringPart source)

/-- The key of an entry: the value of a string, or the source text. -/
def keyOf (source : Bytes) (key : Tree) : Except Obstacle Text :=
  match key.kind with
  | .string => stringValue source key
  | _ => .ok (key.text source)

def parametersOf (source : Bytes) (t : Tree) : List Text :=
  match t.child? .parameter, t.child? .parameters with
  | some single, _ => [single.text source]
  | none, some list => list.expressions.map fun p => ((p.child? .pattern).getD p).text source
  | none, none => []

/-- An entry of an object node, with the siblings before it, given the reader of its value. Spreads,
methods and comments are no entries. -/
def entryOf (source : Bytes) (read : Tree → Except Obstacle Expr) (before : List Tree)
    (t : Tree) : Except Obstacle (Option Entry) :=
  match t.kind with
  | .pair =>
    match t.child? .key, t.child? .value with
    | some key, some value => do
      let key ← keyOf source key
      let value ← read value
      return some ⟨extentOf source t, key, value, Syntax.leadingComments source before⟩
    | _, _ => .ok none
  | .shorthandProperty =>
    let extent := extentOf source t
    .ok (some ⟨extent, extent.text, .identifier extent extent.text,
      Syntax.leadingComments source before⟩)
  | _ => .ok none

def entriesOf (source : Bytes) (read : Tree → Except Obstacle Expr) (t : Tree) :
    Except Obstacle (List Entry) :=
  (List.filterMap id) <$> (t.placedChildren.filter (·.2.named)).mapM fun (before, child) =>
    entryOf source read before child

section Productions

-- `read` reads the parts of a node; it is told the kind of the node that holds them.
variable (source : Bytes) (read : Kind → Tree → Except Obstacle Expr) (t : Tree)

def ofPart (part : Option Tree) (missing : Expr) (build : Expr → Expr) : Except Obstacle Expr :=
  match part with
  | none => .ok missing
  | some part => build <$> read t.kind part

def ofMember : Except Obstacle Expr :=
  match t.child? .object, t.child? .property with
  | some receiver, some property =>
    (fun e => .memberAccess (extentOf source t) e (property.text source)) <$> read t.kind receiver
  | _, _ => .ok (opaqueNode source t)

/-- The arguments of a call. A template in their place is the only one. -/
def argumentsOf : Except Obstacle (List Expr) :=
  match t.child? .arguments with
  | none => .ok []
  | some list =>
    match list.kind with
    | .arguments => list.expressions.mapM (read .arguments)
    | _ => (fun template => [template]) <$> read t.kind list

def ofCall : Except Obstacle Expr :=
  match t.child? .function with
  | none => .ok (opaqueNode source t)
  | some callee => do
    let arguments ← argumentsOf read t
    return .call (extentOf source t) (← read t.kind callee) arguments

def substitutionsOf : Except Obstacle (List Expr) :=
  List.flatten <$> (t.namedChildren.filter (·.kind == .templateSubstitution)).mapM fun hole =>
    hole.expressions.mapM (read t.kind)

/-- A template; one without substitutions is a string. -/
def templateWith (extent : Extent) : List Expr → Expr
  | [] => .string extent extent.text.inner
  | e :: rest => .template extent extent.text.inner (e :: rest)

def numberOf : Expr :=
  match Number.ofLiteral? (t.text source) with
  | some value => .number (extentOf source t) value
  | none => opaqueNode source t

/-- Read a node by its kind, given the reader of its parts. Type assertions are read as what they
enclose. -/
def ofNode : Except Obstacle Expr :=
  let extent := extentOf source t
  match t.kind with
  | .identifier => .ok (.identifier extent extent.text)
  | .memberExpression => ofMember source read t
  | .callExpression => ofCall source read t
  | .string => .string extent <$> stringValue source t
  | .templateString => templateWith extent <$> substitutionsOf read t
  | .number => .ok (numberOf source t)
  | .true => .ok (.boolean extent true)
  | .false => .ok (.boolean extent false)
  | .array => .array extent <$> t.expressions.mapM (read t.kind)
  | .object => .object extent <$> entriesOf source (read t.kind) t
  | .arrowFunction | .functionExpression | .function =>
    ofPart read t (t.child? .body) (opaqueNode source t) (.function extent (parametersOf source t))
  | .parenthesizedExpression =>
    ofPart read t t.expression? (opaqueNode source t) (.parenthesized extent)
  | .statementBlock => .block extent <$> t.expressions.mapM (read t.kind)
  | .returnStatement =>
    ofPart read t t.expression? (.returned extent none) fun e => .returned extent (some e)
  | .asExpression | .satisfiesExpression | .nonNullExpression =>
    ofPart read t t.expression? (opaqueNode source t) id
  | _ => .ok (opaqueNode source t)

end Productions

def ofTree (source : Bytes) (stack : Stack) (t : Tree) : Except Obstacle Expr :=
  if _ : stack.Holds t.kind then
    ofNode source (fun holder part => ofTree source (stack.below holder) part) t
  else .error .nestedTooDeeply
termination_by stack.frames
decreasing_by exact stack.below_frames_lt ‹_›

end Expr
end SchemaAtlas
