import SchemaAtlas.Syntax.Parser

/-!
# The grammar of schema sources

A grammar for the part of TypeScript that schemas are written in. The productions are given one
level at a time: a production refers to those of the level below for everything that stands inside
it, and the levels are counted down. On the last level an expression is passed over, which no reader
of expressions can notice, because it descends less far.
-/

namespace SchemaAtlas.Syntax

open SchemaAtlas.Syntax.Parser

namespace Grammar

/-- The productions that others refer to. `expression` is told whether a line end may end it. -/
structure Productions where
  expression : Bool → Parser Piece
  type : Parser Piece
  statement : Parser Piece
  pattern : Parser Piece

def named (label : String) : Kind := .ofLabel label

/-! ## Lists -/

def itemOrComma (item : Parser Piece) : Parser (List Piece) := do
  if ← seesMark "," then return [← mark ","] else return [← item]

/-- Items with commas between them; an item may be missing. -/
def commaList (item : Parser Piece) : Parser (List Piece) := many (itemOrComma item)

def spread (sub : Productions) : Parser Piece := do
  return .assemble (named "spread_element") [← mark "...", ← sub.expression false]

def element (sub : Productions) : Parser Piece := do
  if ← seesMark "..." then spread sub else sub.expression false

/-- An expression, or several with commas between them. -/
def sequence (sub : Productions) : Parser Piece := do
  let pieces ← commaList (sub.expression false)
  match pieces with
  | [] => refuse
  | [single] => return single
  | _ => return .assemble (named "sequence_expression") pieces

def argumentList (sub : Productions) : Parser Piece := do
  return (Piece.assemble .arguments (← group "(" (commaList (element sub)))).withRole .arguments

/-! ## Types -/

def predefinedTypes : List String :=
  ["any", "string", "number", "boolean", "void", "unknown", "never", "object", "symbol", "bigint"]

def typeWordKind (w : Text) : Kind :=
  if predefinedTypes.any fun (p : String) => (p : Text) = w then named "predefined_type"
  else named "type_identifier"

def seesOneOf (words : List String) : Parser Bool := do
  match (← ahead).head? with
  | some (.word _ w _ _) => return words.any fun (p : String) => (p : Text) = w
  | _ => return false

/-- The arguments of a type or of a call, in angle brackets. -/
def typeArguments (sub : Productions) : Parser Piece := do
  let opening ← mark "<"
  let inside ← commaList sub.type
  return .assemble (named "type_arguments") (opening :: inside ++ [← mark ">"])

/-- A word that names a type, with the names behind points and the arguments that follow. -/
def typeReference (sub : Productions) : Parser Piece := do
  match (← ahead).head? with
  | some (.word _ w _ _) =>
    let first ← wordAs (typeWordKind w) true
    let qualified ← loop (fun (p : Piece) => do
      let point ← mark "."
      let name ← wordAs (named "type_identifier") true
      return .assemble (named "nested_type_identifier") [p, point, name]) first
    if (← seesMark "<") && !(← afterNewline) then
      return .assemble (named "generic_type") [qualified, ← typeArguments sub]
    else return qualified
  | _ => refuse

def simpleType (sub : Productions) : Parser Piece := do
  if ← seesOneOf ["typeof", "keyof", "readonly", "unique", "infer"] then
    let word ← wordAs (named "keyof") false
    return .assemble (named "type_query") [word, ← sub.type]
  else if ← seesGroup "(" then
    let inside ← opaqueGroup "(" (named "parenthesized_type")
    if ← seesMark "=>" then
      return .assemble (named "function_type") [inside, ← mark "=>", ← sub.type]
    else return inside
  else if ← seesGroup "\x7b" then opaqueGroup "\x7b" (named "object_type")
  else if ← seesGroup "[" then opaqueGroup "[" (named "tuple_type")
  else if ← seesGroup "`" then opaqueGroup "`" (named "template_literal_type")
  else if ← seesMark "-" then
    return .assemble (named "literal_type") [← mark "-", ← finished]
  else
    (do return .assemble (named "literal_type") [← finished]) <|> typeReference sub

def arrayType (sub : Productions) : Parser Piece := do
  loop (fun (p : Piece) => do
    if ← afterNewline then refuse
    else
      let brackets ← opaqueGroup "[" (named "[")
      return .assemble (named "array_type") [p, brackets]) (← simpleType sub)

/-- A type: one, or several joined by bars or ampersands. -/
def typeExpression (sub : Productions) : Parser Piece := do
  let leading ← pieces? (mark "|")
  let first ← arrayType sub
  let all ← loop (fun (p : Piece) => do
    let bar ← mark "|" <|> mark "&"
    return .assemble (named "union_type") [p, bar, ← arrayType sub]) first
  match leading with
  | [] => return all
  | _ => return .assemble (named "union_type") (leading ++ [all])

def declaredType (sub : Productions) : Parser Piece := do
  let declared := Piece.assemble (named "type_annotation") [← mark ":", ← sub.type]
  return declared.withRole (.other "type")

/-! ## Patterns and parameters -/

/-- A pattern that takes an object or an array apart, or a name. -/
def bindingPattern (sub : Productions) : Parser Piece := do
  if ← seesMark "..." then
    return .assemble (named "rest_pattern") [← mark "...", ← sub.pattern]
  else if ← seesGroup "\x7b" then
    match (← ahead).head? with
    | some (.group _ o items _ closing) =>
      let inside := items.filterMap fun
        | .word _ _ start stop =>
          some (Tree.node (named "shorthand_property_identifier_pattern") start stop true none [])
        | .mark _ m start stop => some (Tree.node (named m) start stop false none [])
        | _ => none
      let whole ← opaqueGroup "\x7b" (named "object_pattern")
      return { whole with
        tree := .node (named "object_pattern") o.start closing.stop true none
          (o :: inside ++ [closing]) }
    | _ => refuse
  else if ← seesGroup "[" then opaqueGroup "[" (named "array_pattern")
  else if ← seesWord "this" then wordAs (named "this") true
  else wordAs .identifier true

def defaultValue (sub : Productions) : Parser (List Piece) := do
  return [← mark "=", (← sub.expression false).withRole .value]

def parameter (sub : Productions) : Parser Piece := do
  let pattern := (← sub.pattern).withRole .pattern
  let question ← pieces? (mark "?")
  let declared ← pieces? (declaredType sub)
  let value ← (defaultValue sub <|> pure [])
  let kind := if question.isEmpty then named "required_parameter" else named "optional_parameter"
  return .assemble kind (pattern :: question ++ declared ++ value)

/-- The parameters of a function, in parentheses. -/
def parameters (sub : Productions) : Parser Piece := do
  let pieces ← group "(" (commaList (parameter sub))
  return (Piece.assemble (named "formal_parameters") pieces).withRole .parameters

/-! ## Functions -/

def block (sub : Productions) : Parser Piece := do
  return .assemble .statementBlock (← group "\x7b" (many (do return [← sub.statement])))

def arrowBody (sub : Productions) (ends : Bool) : Parser Piece := do
  let body ← if ← seesGroup "\x7b" then block sub else sub.expression ends
  return body.withRole .body

def arrowFunction (sub : Productions) (ends : Bool) : Parser Piece := do
  let async ← pieces? (do
    let word ← keyword "async"
    if (← seesMark "=>") || (← afterNewline) then refuse else return word)
  let head ←
    if ← seesGroup "(" then
      let list ← parameters sub
      let result ← pieces? (declaredType sub)
      pure (list :: result)
    else pure [(← wordAs .identifier true).withRole .parameter]
  let arrow ← mark "=>"
  return .assemble .arrowFunction (async ++ head ++ [arrow, ← arrowBody sub ends])

def functionRest (sub : Productions) : Parser (List Piece) := do
  let list ← parameters sub
  let result ← pieces? (declaredType sub)
  return list :: result ++ [(← block sub).withRole .body]

def keywordFunction (sub : Productions) (kind : Kind) : Parser Piece := do
  let async ← pieces? (keyword "async")
  let word ← keyword "function"
  let name ← pieces? (do return (← wordAs .identifier true).withRole .name)
  return .assemble kind (async ++ [word] ++ name ++ (← functionRest sub))

/-! ## Objects -/

def propertyKey (sub : Productions) : Parser Piece := do
  if ← seesGroup "[" then
    return .assemble (named "computed_property_name")
      (← group "[" (do return [← sub.expression false]))
  else finished <|> wordAs (named "property_identifier") true

/-- A method, with the words before its key. -/
def method (sub : Productions) : Parser Piece := do
  let words ← many (do
    if ← seesOneOf ["async", "get", "set", "static"] then
      let word ← wordAs (named "get") false
      if (← seesMark ":") || (← seesMark ",") || (← seesGroup "(") || (← atEnd) then refuse
      else return [word]
    else return [← mark "*"])
  let key := (← propertyKey sub).withRole .name
  return .assemble (named "method_definition") (words ++ [key] ++ (← functionRest sub))

def pair (sub : Productions) : Parser Piece := do
  let key := (← propertyKey sub).withRole .key
  let colon ← mark ":"
  return .assemble .pair [key, colon, (← sub.expression false).withRole .value]

/-- A name that is both key and value, perhaps with a value to fall back on. -/
def shorthand (sub : Productions) : Parser Piece := do
  let name ← wordAs .shorthandProperty true
  if ← seesMark "=" then
    return .assemble (named "object_assignment_pattern")
      (name :: (← defaultValue sub))
  else if (← atEnd) || (← seesMark ",") then return name
  else refuse

def objectEntry (sub : Productions) : Parser Piece := do
  if ← seesMark "..." then spread sub else pair sub <|> method sub <|> shorthand sub

def objectLiteral (sub : Productions) : Parser Piece := do
  return .assemble .object (← group "\x7b" (commaList (objectEntry sub)))

/-! ## Expressions -/

/-- The words that no name can be. -/
def reserved : List String := [
  "break", "case", "catch", "class", "const", "continue", "debugger", "default", "delete", "do",
  "else", "enum", "export", "extends", "finally", "for", "if", "in", "instanceof", "new", "return",
  "switch", "throw", "try", "typeof", "var", "void", "while", "with"]

def constants : List String := ["this", "super", "null", "undefined", "true", "false", "import"]

/-- A name, or a word of its own kind. -/
def wordExpression : Parser Piece := do
  match (← ahead).head? with
  | some (.word _ w _ _) =>
    if reserved.any fun (r : String) => (r : Text) = w then refuse
    else if constants.any fun (r : String) => (r : Text) = w then
      wordAs (named (wordLabel w)) true
    else wordAs .identifier true
  | _ => refuse

/-- A template: texts and escapes, and expressions between marks. -/
def template (sub : Productions) : Parser Piece := do
  let substitution : Parser Piece := do
    return .assemble .templateSubstitution
      (← group "$\x7b" (do return [← sequence sub]))
  return .assemble .templateString
    (← group "`" (many (do return [← (finished <|> substitution)])))

def parenthesized (sub : Productions) : Parser Piece := do
  return .assemble .parenthesizedExpression (← group "(" (do
    let inside ← sequence sub
    let declared ← pieces? (declaredType sub)
    return inside :: declared))

def arrayLiteral (sub : Productions) : Parser Piece := do
  return .assemble .array (← group "[" (commaList (element sub)))

/-- An expression that begins no other way. -/
def primary (sub : Productions) : Parser Piece := do
  if ← seesGroup "(" then parenthesized sub
  else if ← seesGroup "[" then arrayLiteral sub
  else if ← seesGroup "\x7b" then objectLiteral sub
  else if ← seesGroup "`" then template sub
  else if ← seesWord "function" then keywordFunction sub .functionExpression
  else
    (do
      if ← seesWord "async" then keywordFunction sub .functionExpression else refuse)
    <|> wordExpression <|> finished

def memberName : Parser Piece := finished <|> wordAs (named "property_identifier") true

def member (p point name : Piece) : Piece :=
  .assemble .memberExpression [p.withRole .object, point, name.withRole .property]

def call (p : Piece) (between : List Piece) (arguments : Piece) : Piece :=
  .assemble .callExpression (p.withRole .function :: between ++ [arguments.withRole .arguments])

def subscript (sub : Productions) (p : Piece) (between : List Piece) : Parser Piece := do
  let brackets ← group "[" (do return [(← sequence sub).withRole (.other "index")])
  return .assemble (named "subscript_expression") (p.withRole .object :: between ++ brackets)

def optionalChain (sub : Productions) (p : Piece) : Parser Piece := do
  let point ← mark "?."
  let chain := { point with
    tree := .node (named "optional_chain") point.tree.start point.tree.stop true none [] }
  if ← seesGroup "(" then return call p [point] (← argumentList sub)
  else if ← seesGroup "[" then subscript sub p [chain]
  else return member p chain (← memberName)

/-- One step of an expression from left to right: a member, an index, or an assertion that a value
is there. -/
def memberStep (sub : Productions) (ends : Bool) (p : Piece) : Parser Piece := do
  if ← seesMark "." then
    let point ← mark "."
    return member p point (← memberName)
  else if ← seesGroup "[" then subscript sub p []
  else if (← seesMark "!") && !(ends && (← afterNewline)) then
    return .assemble .nonNullExpression [p, ← mark "!"]
  else refuse

/-- A call with arguments, perhaps with type arguments, or with a template. -/
def callStep (sub : Productions) (p : Piece) : Parser Piece := do
  let types ← pieces? (do
    let types ← typeArguments sub
    if ← seesGroup "(" then return types.withRole (.other "type_arguments") else refuse)
  if ← seesGroup "(" then return call p types (← argumentList sub)
  else if ← seesGroup "`" then return call p [] (← template sub)
  else refuse

def updateStep (ends : Bool) (p : Piece) : Parser Piece := do
  if ends && (← afterNewline) then refuse
  else return .assemble (named "update_expression") [p, ← (mark "++" <|> mark "--")]

def postfixSteps (sub : Productions) (ends : Bool) (p : Piece) : Parser Piece :=
  let step (p : Piece) : Parser Piece :=
    optionalChain sub p <|> memberStep sub ends p <|> callStep sub p <|> updateStep ends p
  loop step p

/-- A new object: a constructor without calls, and its arguments. -/
def newExpression (sub : Productions) : Parser Piece := do
  let word ← keyword "new"
  let constructor ← loop (memberStep sub false) (← primary sub)
  let types ← pieces? (typeArguments sub)
  let arguments ← pieces? (argumentList sub)
  return .assemble (named "new_expression")
    (word :: constructor.withRole (.other "constructor") :: types ++ arguments)

def leftHandSide (sub : Productions) (ends : Bool) : Parser Piece := do
  let first ← if ← seesWord "new" then newExpression sub else primary sub
  postfixSteps sub ends first

def unaryMarks : List String := ["!", "-", "+", "~"]

def oneMark : List String → Parser Piece
  | [] => refuse
  | m :: rest => mark m <|> oneMark rest

/-- An operator before an expression, and the kind of what it makes. -/
def unaryOperator : Parser (Kind × Piece) := do
  if ← seesOneOf ["typeof", "void", "delete"] then
    return (named "unary_expression", ← wordAs (named "typeof") false)
  else if ← seesWord "await" then return (named "await_expression", ← keyword "await")
  else
    (do return (named "unary_expression", ← oneMark unaryMarks))
    <|> (do return (named "update_expression", ← oneMark ["++", "--"]))

def unary (sub : Productions) (ends : Bool) : Parser Piece := do
  let operators ← loop (fun found => do return found ++ [← unaryOperator]) []
  let argument ← leftHandSide sub ends
  return operators.foldr (fun (kind, operator) p => .assemble kind [operator, p]) argument

def strength? (operator : String) : Option Nat :=
  if ["??", "||"].contains operator then some 1
  else if operator == "&&" then some 2
  else if operator == "|" then some 3
  else if operator == "^" then some 4
  else if operator == "&" then some 5
  else if ["==", "!=", "===", "!=="].contains operator then some 6
  else if ["<", ">", "<=", ">=", "in", "instanceof", "as", "satisfies"].contains operator then
    some 7
  else if ["<<", ">>", ">>>"].contains operator then some 8
  else if ["+", "-"].contains operator then some 9
  else if ["*", "/", "%"].contains operator then some 10
  else if operator == "**" then some 11
  else none

/-- The label of the operator ahead, if there is one. -/
def operatorAhead : Parser (Option String) := do
  match (← ahead).head? with
  | some (.mark _ m _ _) => return some m
  | some (.word _ w _ _) => return some (wordLabel w)
  | _ => return none

/-- An operand that waits for an operator of less strength, with the operator behind it. -/
structure Waiting where
  operand : Piece
  operator : Piece
  strength : Nat

def combine (strength : Nat) : List Waiting → Piece → List Waiting × Piece
  | [], p => ([], p)
  | w :: rest, p =>
    if strength ≤ w.strength then
      combine strength rest (.assemble (named "binary_expression") [w.operand, w.operator, p])
    else (w :: rest, p)

/-- The type of an assertion: a type, or the word for the narrowest one. -/
def assertedType (sub : Productions) : Parser Piece := keyword "const" <|> sub.type

/-- One operator and what follows it; waiting operands stand before `p`. -/
def operatorStep (sub : Productions) (ends : Bool) (state : List Waiting × Piece) :
    Parser (List Waiting × Piece) := do
  match ← operatorAhead with
  | none => refuse
  | some label =>
    match strength? label with
    | none => refuse
    | some strength =>
      let (waiting, p) := combine strength state.1 state.2
      if label == "as" || label == "satisfies" then
        if ends && (← afterNewline) then refuse
        else
          let kind : Kind := if label == "as" then .asExpression else .satisfiesExpression
          let word ← keyword label
          return (waiting, .assemble kind [p, word, ← assertedType sub])
      else
        let operator ← mark label <|> keyword label
        return (⟨p, operator, strength⟩ :: waiting, ← unary sub ends)

def binary (sub : Productions) (ends : Bool) : Parser Piece := do
  let (waiting, p) ← loop (operatorStep sub ends) ([], ← unary sub ends)
  return (combine 0 waiting p).2

def assignmentMarks : List String := [
  "=", "+=", "-=", "*=", "/=", "%=", "&=", "|=", "^=", "**=", "<<=", ">>=", ">>>=", "&&=", "||=",
  "??="]

/-- An assignment to an expression, or the expression itself. -/
def assignment (sub : Productions) (ends : Bool) (target : Piece) : Parser Piece :=
  (do
    let equals ← oneMark assignmentMarks
    return .assemble (named "assignment_expression") [target, equals, ← sub.expression ends])
  <|> pure target

/-- A condition, what holds if it is met, and the marks behind both. -/
def clause (sub : Productions) (condition : Piece) : Parser (List Piece) := do
  return [condition, ← mark "?", ← sub.expression false, ← mark ":"]

/-- Choices between expressions, each the last part of the one before, or none; the last expression
may be an assignment. -/
def conditional (sub : Productions) (ends : Bool) : Parser Piece := do
  let (clauses, last) ← loop (fun (clauses, condition) => do
    let found ← clause sub condition
    return (found :: clauses, ← arrowFunction sub ends <|> binary sub ends))
    (([] : List (List Piece)), ← binary sub ends)
  return clauses.foldl (fun p found => .assemble (named "ternary_expression") (found ++ [p]))
    (← assignment sub ends last)

def expression (sub : Productions) (ends : Bool) : Parser Piece :=
  arrowFunction sub ends <|> conditional sub ends

/-! ## Statements -/

/-- The semicolon behind a statement, where one is written. -/
def semicolon : Parser (List Piece) := pieces? (mark ";")

def declarator (sub : Productions) : Parser Piece := do
  let name := (← sub.pattern).withRole .name
  let definite ← pieces? (mark "!")
  let declared ← pieces? (declaredType sub)
  let value ← (do
    return [← mark "=", (← sub.expression true).withRole .value]) <|> pure []
  return .assemble .variableDeclarator (name :: definite ++ declared ++ value)

def variableDeclarations (sub : Productions) : Parser Piece := do
  let isVar ← seesWord "var"
  let word ← keyword "const" <|> keyword "let" <|> keyword "var"
  let kind : Kind := if isVar then .variableDeclaration else .lexicalDeclaration
  let first ← declarator sub
  let rest ← many (do return [← mark ",", ← declarator sub])
  return .assemble kind (word :: first :: rest ++ (← semicolon))

def specifiers (kind specifier : Kind) : Parser Piece := do
  let entry : Parser Piece := do
    let word : Parser Piece := wordAs .identifier true <|> finished
    return .assemble specifier ((← word) :: (← many (do return [← word])))
  return .assemble kind (← group "\x7b" (commaList entry))

def importClause : Parser (List Piece) := do
  let part : Parser Piece := do
    if ← seesGroup "\x7b" then specifiers (named "named_imports") (named "import_specifier")
    else if ← seesMark "*" then
      return .assemble (named "namespace_import")
        [← mark "*", ← keyword "as", ← wordAs .identifier true]
    else wordAs .identifier true
  match ← many (do if ← seesWord "from" then refuse else itemOrComma part) with
  | [] => return []
  | pieces => return [.assemble (named "import_clause") pieces, ← keyword "from"]

def importStatement : Parser Piece := do
  let word ← keyword "import"
  let clause ← importClause
  let source ← finished
  return .assemble (named "import_statement") (word :: clause ++ [source] ++ (← semicolon))

/-- An export of names, of a value or of a declaration. Where a line ends behind its word, the word
is a statement of its own, unless an equals sign or a star follows. -/
def exportStatement (sub : Productions) : Parser Piece := do
  let word ← keyword "export"
  let source : Parser (List Piece) := do return [← keyword "from", ← finished]
  if ← seesMark "=" then
    return .assemble .exportStatement
      ([word, ← mark "=", ← sub.expression true] ++ (← semicolon))
  else if !(← seesMark "*") && (← afterNewline) then
    return .assemble (named "expression_statement") [word]
  else if ← seesWord "default" then
    let default ← keyword "default"
    let value ← (keywordFunction sub (named "function_declaration") <|> sub.expression true)
    return .assemble .exportStatement (word :: default :: value :: (← semicolon))
  else if ← seesGroup "\x7b" then
    let clause ← specifiers (named "export_clause") (named "export_specifier")
    let source ← source <|> pure []
    return .assemble .exportStatement (word :: clause :: source ++ (← semicolon))
  else if ← seesMark "*" then
    let star ← mark "*"
    let name ← (do return [← keyword "as", ← wordAs .identifier true]) <|> pure []
    return .assemble .exportStatement (word :: star :: name ++ (← source) ++ (← semicolon))
  else
    let declared ← variableDeclarations sub <|> keywordFunction sub (named "function_declaration")
    return .assemble .exportStatement [word, declared.withRole (.other "declaration")]

/-- A return, with the expression on its line. -/
def returnStatement (sub : Productions) : Parser Piece := do
  let word ← keyword "return"
  let value ← if ← afterBrokenLine then pure [] else pieces? (do
    if ← seesMark ";" then refuse else sub.expression true)
  return .assemble .returnStatement (word :: value ++ (← semicolon))

def ifStatement (sub : Productions) : Parser Piece := do
  let word ← keyword "if"
  let condition ← parenthesized sub
  let consequence ← sub.statement
  let alternative ← pieces? (do
    return .assemble (named "else_clause") [← keyword "else", ← sub.statement])
  return .assemble (named "if_statement") ([word, condition, consequence] ++ alternative)

def statement (sub : Productions) : Parser Piece := do
  if ← seesMark ";" then return .assemble (named "empty_statement") [← mark ";"]
  else if ← seesGroup "\x7b" then block sub
  else if ← seesWord "export" then exportStatement sub
  else if ← seesWord "return" then returnStatement sub
  else if ← seesWord "if" then ifStatement sub
  else
    importStatement <|> variableDeclarations sub <|> keywordFunction sub (named "function_declaration")
    <|> (do
      let e ← sub.expression true
      return .assemble (named "expression_statement") (e :: (← semicolon)))

/-! ## Levels -/

def isDivider : Lexeme → Bool
  | .mark _ m _ _ => m == "," || m == ";"
  | _ => false

def passOver : Parser Piece := fun items =>
  match items.takeWhile (!isDivider ·) with
  | [] => none
  | first :: rest =>
    let stop := (rest.getLastD first).stop
    let tree := Tree.node (named "passed_over") first.start stop true none []
    some ({ comments := first.gap.comments, tree := tree }, items.dropWhile (!isDivider ·))

def productions : Nat → Productions
  | 0 => ⟨fun _ => passOver, passOver, passOver, passOver⟩
  | level + 1 =>
    let sub := productions level
    ⟨expression sub, typeExpression sub, statement sub, bindingPattern sub⟩

/-- The number of levels; more than the depth to which expressions are read. -/
def levels : Nat := 600

/-- One statement at the top level; the line for a shell is a node already. -/
def topLevel : Parser Piece := do
  match (← ahead).head? with
  | some (.node _ tree) =>
    if tree.kind == named "hash_bang_line" then finished else statement (productions levels)
  | _ => statement (productions levels)

end Grammar

/-- The tree of a source whose statements are `pieces`; what no statement takes is an error. -/
def programTree (source : Bytes) (pieces : List Piece) (left : List Lexeme) (last : Gap) :
    Tree × Bool :=
  let trouble := match left with
    | [] => []
    | l :: _ => l.gap.comments ++ [Tree.node (.other "ERROR") l.start source.size true none []]
  (.node .program 0 source.size true none (pieces.flatMap Piece.nodes ++ trouble ++ last.comments),
    !left.isEmpty)

/-- Read a source: its tree, and whether the tree covers errors. -/
def read (source : Bytes) : Tree × Bool :=
  match lexemes? source with
  | none =>
    let trouble := Tree.node (.other "ERROR") 0 source.size true none []
    (.node .program 0 source.size true none [trouble], true)
  | some (items, last) =>
    match many (do return [← Grammar.topLevel]) items with
    | some (pieces, left) => programTree source pieces left last
    | none => programTree source [] items last

end SchemaAtlas.Syntax
