import SchemaAtlas.Syntax.Lexeme

/-!
# Reading lexemes

A parser takes lexemes from the front of a list and gives a piece: a node and the comments before
it. Pieces are assembled into a node of their own, which takes the comments between them as children
and leaves those before the first to whatever it becomes a part of.
-/

namespace SchemaAtlas.Syntax

/-- A node and the comments before it. -/
structure Piece where
  comments : List Tree := []
  tree : Tree
  deriving Inhabited

namespace Piece

def withRole (p : Piece) (role : Role) : Piece := { p with tree := p.tree.withRole role }

def nodes (p : Piece) : List Tree := p.comments ++ [p.tree]

def assemble (kind : Kind) : List Piece → Piece
  | [] => { tree := .node kind 0 0 true none [] }
  | first :: rest =>
    let stop := (rest.getLastD first).tree.stop
    let children := first.tree :: rest.flatMap nodes
    { comments := first.comments, tree := .node kind first.tree.start stop true none children }

end Piece

def wordLabel (t : Text) : String := String.ofList (t.map fun c => Char.ofNat c.val)

/-- A reader of lexemes. -/
abbrev Parser := StateT (List Lexeme) Option

namespace Parser

variable {α : Type}

def ahead : Parser (List Lexeme) := get

def refuse : Parser α := fun _ => none

def next : Parser Lexeme := fun
  | [] => none
  | l :: rest => some (l, rest)

def atEnd : Parser Bool := return (← ahead).isEmpty

def seesMark (text : String) : Parser Bool := do
  match (← ahead).head? with
  | some (.mark _ m _ _) => return m == text
  | _ => return false

def seesWord (text : String) : Parser Bool := do
  match (← ahead).head? with
  | some (.word _ w _ _) => return w == (text : Text)
  | _ => return false

/-- Whether a line ends before the next lexeme, outside of comments. -/
def afterNewline : Parser Bool := do
  match (← ahead).head? with
  | some l => return l.gap.newline
  | none => return false

/-- Whether a line ends before the next lexeme, if only inside of a comment. -/
def afterBrokenLine : Parser Bool := do
  match (← ahead).head? with
  | some l => return l.gap.newline || l.gap.brokenComment
  | none => return false

def seesGroup (opening : String) : Parser Bool := do
  match (← ahead).head? with
  | some (.group _ o ..) => return o.kind == Kind.ofLabel opening
  | _ => return false

def mark (text : String) : Parser Piece := do
  match ← next with
  | .mark gap m start stop =>
    if m == text then
      return { comments := gap.comments, tree := .node (.ofLabel m) start stop false none [] }
    else refuse
  | _ => refuse

def wordAs (kind : Kind) (named : Bool) : Parser Piece := do
  match ← next with
  | .word gap _ start stop =>
    return { comments := gap.comments, tree := .node kind start stop named none [] }
  | _ => refuse

def keyword (text : String) : Parser Piece := do
  if ← seesWord text then wordAs (.ofLabel text) false else refuse

def finished : Parser Piece := do
  match ← next with
  | .node gap tree => return { comments := gap.comments, tree := tree }
  | _ => refuse

def within (p : Parser α) (items : List Lexeme) : Parser α :=
  match p items with
  | some (a, []) => pure a
  | _ => refuse

/-- A group: its opening, what a parser makes of its content, and its closing. -/
def group (opening : String) (content : Parser (List Piece)) : Parser (List Piece) := do
  match ← next with
  | .group gap o items closingGap closing =>
    if o.kind == Kind.ofLabel opening then
      let pieces ← within content items
      return { comments := gap.comments, tree := o } :: pieces
        ++ [{ comments := closingGap.comments, tree := closing }]
    else refuse
  | _ => refuse

def opaqueGroup (opening : String) (kind : Kind) : Parser Piece := do
  match ← next with
  | .group gap o _ _ closing =>
    if o.kind == Kind.ofLabel opening then
      let tree := Tree.node kind o.start closing.stop true none [o, closing]
      return { comments := gap.comments, tree := tree }
    else refuse
  | _ => refuse

/-- What a parser reads, or nothing where it refuses. -/
def optional (p : Parser α) : Parser (Option α) := (some <$> p) <|> pure none

/-- A piece, if a parser reads one. -/
def pieces? (p : Parser Piece) : Parser (List Piece) := Option.toList <$> optional p

/-- Go on from a value as long as a parser takes something. -/
def iterate (step : α → Parser α) (a : α) (items : List Lexeme) : α × List Lexeme :=
  match step a items with
  | none => (a, items)
  | some (b, rest) =>
    if _h : rest.length < items.length then iterate step b rest else (a, items)
termination_by items.length

/-- Go on from a value as long as a parser takes something. -/
def loop (step : α → Parser α) (a : α) : Parser α := fun items => some (iterate step a items)

def many (p : Parser (List Piece)) : Parser (List Piece) :=
  loop (fun found => (found ++ ·) <$> p) []

end Parser
end SchemaAtlas.Syntax
