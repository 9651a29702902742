import SchemaAtlas.Text.Utf8

/-!
# Concrete syntax trees

A concrete tree covers a source byte by byte: every token is a node, punctuation included, and a
comment is a child of the smallest node that has tokens on both sides of it. A node knows its kind,
the bytes it spans, whether the grammar names it, and the role it plays in its parent. No property
of the offsets is assumed; a node that reaches beyond its source has the text that is left.
-/

namespace SchemaAtlas.Syntax

/-- What a node is. The kinds that matter to the reader of declarations have a constructor each. -/
inductive Kind where
  | program
  | comment
  | exportStatement
  | lexicalDeclaration
  | variableDeclaration
  | variableDeclarator
  | identifier
  | memberExpression
  | callExpression
  | arguments
  | string
  | stringFragment
  | escapeSequence
  | templateString
  | templateSubstitution
  | number
  | true
  | false
  | array
  | object
  | pair
  | shorthandProperty
  | arrowFunction
  | functionExpression
  | function
  | parenthesizedExpression
  | statementBlock
  | returnStatement
  | asExpression
  | satisfiesExpression
  | nonNullExpression
  | other (label : String)
  deriving DecidableEq, Repr, Inhabited

namespace Kind

def label : Kind → String
  | .program => "program"
  | .comment => "comment"
  | .exportStatement => "export_statement"
  | .lexicalDeclaration => "lexical_declaration"
  | .variableDeclaration => "variable_declaration"
  | .variableDeclarator => "variable_declarator"
  | .identifier => "identifier"
  | .memberExpression => "member_expression"
  | .callExpression => "call_expression"
  | .arguments => "arguments"
  | .string => "string"
  | .stringFragment => "string_fragment"
  | .escapeSequence => "escape_sequence"
  | .templateString => "template_string"
  | .templateSubstitution => "template_substitution"
  | .number => "number"
  | .true => "true"
  | .false => "false"
  | .array => "array"
  | .object => "object"
  | .pair => "pair"
  | .shorthandProperty => "shorthand_property_identifier"
  | .arrowFunction => "arrow_function"
  | .functionExpression => "function_expression"
  | .function => "function"
  | .parenthesizedExpression => "parenthesized_expression"
  | .statementBlock => "statement_block"
  | .returnStatement => "return_statement"
  | .asExpression => "as_expression"
  | .satisfiesExpression => "satisfies_expression"
  | .nonNullExpression => "non_null_expression"
  | .other label => label

/-- The kinds that have a constructor of their own. -/
def known : List Kind :=
  [.program, .comment, .exportStatement, .lexicalDeclaration, .variableDeclaration,
    .variableDeclarator, .identifier, .memberExpression, .callExpression, .arguments, .string,
    .stringFragment, .escapeSequence, .templateString, .templateSubstitution, .number, .true,
    .false, .array, .object, .pair, .shorthandProperty, .arrowFunction, .functionExpression,
    .function, .parenthesizedExpression, .statementBlock, .returnStatement, .asExpression,
    .satisfiesExpression, .nonNullExpression]

def ofLabel (label : String) : Kind :=
  (known.find? (·.label == label)).getD (.other label)

end Kind

/-- The role of a node in its parent. -/
inductive Role where
  | name
  | value
  | object
  | property
  | function
  | arguments
  | key
  | body
  | parameter
  | parameters
  | pattern
  | other (label : String)
  deriving DecidableEq, Repr, Inhabited

namespace Role

def label : Role → String
  | .name => "name"
  | .value => "value"
  | .object => "object"
  | .property => "property"
  | .function => "function"
  | .arguments => "arguments"
  | .key => "key"
  | .body => "body"
  | .parameter => "parameter"
  | .parameters => "parameters"
  | .pattern => "pattern"
  | .other label => label

/-- The roles that have a constructor of their own. -/
def known : List Role :=
  [.name, .value, .object, .property, .function, .arguments, .key, .body, .parameter, .parameters,
    .pattern]

def ofLabel (label : String) : Role :=
  (known.find? (·.label == label)).getD (.other label)

end Role

/-- A node with its children in source order. -/
inductive Tree where
  | node (kind : Kind) (start stop : Nat) (named : Bool) (role : Option Role)
      (children : List Tree)
  deriving Inhabited

def rowAt (source : Bytes) (offset : Nat) : Nat := (source.extract 0 offset).count 0x0A

namespace Tree

def kind : Tree → Kind
  | node kind .. => kind

def start : Tree → Nat
  | node _ start .. => start

def stop : Tree → Nat
  | node _ _ stop .. => stop

def named : Tree → Bool
  | node _ _ _ named .. => named

def role : Tree → Option Role
  | node _ _ _ _ role _ => role

/-- All children, in order. -/
def children : Tree → List Tree
  | node _ _ _ _ _ children => children

def withRole (role : Role) : Tree → Tree
  | node kind start stop named _ children => node kind start stop named (some role) children

def isComment (t : Tree) : Bool := t.kind == .comment

def text (source : Bytes) (t : Tree) : Text :=
  Utf8.decodeLossy (source.extract t.start t.stop).toList

def line (source : Bytes) (t : Tree) : Nat := rowAt source t.start + 1

def namedChildren (t : Tree) : List Tree := t.children.filter named

def child? (t : Tree) (role : Role) : Option Tree := t.children.find? (·.role == some role)

/-- The named children that are no comments. -/
def expressions (t : Tree) : List Tree := t.namedChildren.filter (!·.isComment)

def expression? (t : Tree) : Option Tree := t.expressions.head?

end Tree

/-- Each node of a list with the nodes before it, nearest first; `before` stands before the list. -/
def withBefore (before : List Tree) : List Tree → List (List Tree × Tree)
  | [] => []
  | t :: rest => (before, t) :: withBefore (t :: before) rest

def Tree.placedChildren (t : Tree) : List (List Tree × Tree) := withBefore [] t.children

/-- The texts of the comments directly before a node, in source order, from the siblings before it,
nearest first. A comment that starts on the row where the last other sibling ends belongs to that
sibling and is left out. -/
def leadingComments (source : Bytes) (before : List Tree) : List Text :=
  let comments := before.takeWhile Tree.isComment
  let kept := match before.dropWhile Tree.isComment with
    | [] => comments
    | boundary :: _ =>
      comments.filter fun c => rowAt source c.start != rowAt source boundary.stop
  (kept.map (·.text source)).reverse

end SchemaAtlas.Syntax
