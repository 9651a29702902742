import SchemaAtlas.Expr.OfTree
import SchemaAtlas.Report.Trace

/-!
# Declarations

The variables that a document declares at its top level, in source order, each with its initial
value as an expression and the comments in front of it. A declaration whose value nests too deeply
is dropped and reported.
-/

namespace SchemaAtlas

open Syntax (Tree Kind)

/-- A variable declared at the top level. -/
structure Declaration where
  name : Text
  initializer : Option Expr
  exported : Bool
  line : Nat
  statementComments : List Text := []
  comments : List Text := []
  deriving Inhabited

/-- The declarations of a document, and whether its tree covers syntax errors. -/
structure Document where
  declarations : List Declaration
  hasErrors : Bool := false
  deriving Inhabited

namespace Declaration

/-- Read a declarator, with the siblings before it. A pattern in place of a name declares nothing
here. -/
def ofDeclarator (source : Bytes) (stack : Stack) (exported : Bool) (statementComments : List Text)
    (before : List Tree) (declarator : Tree) : Trace (Option Declaration) :=
  match declarator.child? .name with
  | none => pure none
  | some nameNode =>
    if nameNode.kind ≠ .identifier then pure none
    else
      let name := nameNode.text source
      let line := declarator.line source
      let declared (initializer : Option Expr) : Declaration :=
        ⟨name, initializer, exported, line, statementComments,
          Syntax.leadingComments source before⟩
      match (declarator.child? .value).mapM (Expr.ofTree source stack) with
      | .ok initializer => pure (some (declared initializer))
      | .error .nestedTooDeeply => do
        Trace.emit (.declarationTooDeep name line)
        return none
      | .error .codePointBeyondWord => Trace.halt .codePointBeyondWord

/-- Read the declarators of a declaration node. `before` are the siblings before the statement that
the node belongs to. -/
def ofStatement (source : Bytes) (stack : Stack) (exported : Bool) (before : List Tree)
    (node : Tree) : Trace (List Declaration) := do
  let comments := Syntax.leadingComments source before
  let declarators := node.placedChildren.filter fun (_, child) =>
    child.named && child.kind == .variableDeclarator
  let found ← declarators.mapM fun (before, child) =>
    ofDeclarator source stack exported comments before child
  return found.filterMap id

def isDeclarationNode (t : Tree) : Bool :=
  t.kind == .lexicalDeclaration || t.kind == .variableDeclaration

/-- Read a top-level statement, with the siblings before it. -/
def ofTopLevel (source : Bytes) (stack : Stack) (before : List Tree) (statement : Tree) :
    Trace (List Declaration) :=
  if statement.kind == .exportStatement then
    List.flatten <$> (statement.namedChildren.filter isDeclarationNode).mapM fun node =>
      ofStatement source stack true before node
  else if isDeclarationNode statement then ofStatement source stack false before statement
  else pure []

end Declaration

def Document.ofTree (source : Bytes) (stack : Stack) (root : Tree) (hasErrors : Bool) :
    Trace Document := do
  let statements := root.placedChildren.filter (·.2.named)
  let declarations ← statements.mapM fun (before, statement) =>
    Declaration.ofTopLevel source stack before statement
  return ⟨declarations.flatten, hasErrors⟩

end SchemaAtlas
