import SchemaAtlas.Markup.Scalar

/-!
# Tokens

A markup text is cut into tokens, which make its layout explicit: where a line starts further to the
right than the block around it, a block is opened, and where one starts further to the left, blocks
are closed. Whether a scalar is the key of a mapping is known only at the colon behind it; so every
scalar is remembered as a candidate until its line ends, and the colon puts the opening of the key
in front of it.
-/

namespace SchemaAtlas.Markup

open Scanner

/-- What a line that starts with a percent sign says about the document behind it. -/
inductive Directive where
  | version (major : Nat)
  | tagHandle (handle start : Text)
  | unknown
  deriving DecidableEq, Repr

/-- A token of a markup text. -/
inductive Token where
  | directive (content : Directive)
  | documentStart
  | documentEnd
  | sequenceOpen
  | mappingOpen
  | blockClose
  | flowSequenceOpen
  | flowSequenceClose
  | flowMappingOpen
  | flowMappingClose
  | entry
  | comma
  | key
  | value
  | alias (name : Text)
  | anchor (name : Text)
  | tag (handle : Option Text) (suffix : Text)
  | scalar (text : Text) (plain : Bool)
  deriving DecidableEq, Repr, Inhabited

/-! ## Names -/

/-- Whether a code point may stand in a name: ASCII letters, digits, the hyphen and the underscore
may. -/
def isNamePart (c : CodePoint) : Bool :=
  let n := c.val
  (0x30 ≤ n && n ≤ 0x39) || (0x41 ≤ n && n ≤ 0x5A) || (0x61 ≤ n && n ≤ 0x7A)
    || c.is '-' || c.is '_'

def isTagPart (c : CodePoint) : Bool := isNamePart c || (";/?:@&=+$,.!~*'()[]" : Text).contains c

def takeSome (p : CodePoint → Bool) : Scanner Text := do
  let taken ← takeWhile p
  if taken.isEmpty then refuse else return taken

def anchorName : Scanner Text := do
  skip
  let name ← takeSome isNamePart
  let next ← peek
  if endsWord next || next.any ("?:,]\x7d%@`" : Text).contains then return name else refuse

/-- The short form of the start of a type name: exclamation marks around a name. -/
def tagHandle : Scanner Text := do
  if !(← sees '!') then refuse
  skip
  let name ← takeWhile isNamePart
  if ← sees '!' then
    skip
    return ("!" : Text) ++ name ++ ("!" : Text)
  else if name.isEmpty then return "!"
  else refuse

/-- Whether a line goes on without spacing up to a second exclamation mark. -/
def hasHandle (t : Text) : Bool :=
  (t.find? fun c => c.is '!' || c = space || isBreak c).any (·.is '!')

def tagName : Scanner Token := do
  let next ← peek 1
  let found ←
    if next.any (·.is '<') then do
      skip 2
      let name ← takeSome isTagPart
      if !(← sees '>') then refuse
      skip
      pure (Token.tag none name)
    else if endsWord next then do
      skip
      pure (Token.tag none "!")
    else if hasHandle ((← get).rest.drop 1) then
      pure (Token.tag (some (← tagHandle)) (← takeSome isTagPart))
    else do
      skip
      pure (Token.tag (some "!") (← takeSome isTagPart))
  if endsWord (← peek) && !(← sees '\t') then return found else refuse

/-! ## Directives -/

def decimal : Scanner Nat := do
  let digits ← takeSome fun c => 0x30 ≤ c.val && c.val ≤ 0x39
  return digits.foldl (fun n c => n * 10 + (c.val - 0x30)) 0

/-- A directive; the cursor is at its percent sign. -/
def directive : Scanner Directive := do
  skip
  let name ← takeSome isNamePart
  if !endsWord (← peek) || (← sees '\t') then refuse
  let found ←
    if name = "YAML" then do
      let _ ← takeWhile (· = space)
      let major ← decimal
      if !(← sees '.') then refuse
      skip
      let _ ← decimal
      pure (Directive.version major)
    else if name = "TAG" then do
      let _ ← takeWhile (· = space)
      let handle ← tagHandle
      let _ ← takeSome (· = space)
      pure (Directive.tagHandle handle (← takeSome isTagPart))
    else do
      let _ ← takeWhile (!isBreak ·)
      pure Directive.unknown
  if !endsWord (← peek) || (← sees '\t') then refuse
  restOfLine
  return found

/-! ## The state of a scan -/

/-- Something that is a key if a colon follows on its line: the number of tokens before it, its
place, and whether nothing but a key may stand there. -/
structure Candidate where
  position : Nat
  needed : Bool
  index : Nat
  line : Nat
  column : Nat
  deriving Repr

/-- The greatest distance between the start of a key and its colon. -/
def keyLimit : Nat := 1024

/-- The tokens so far, last first; the columns of the open blocks, innermost first; the candidate of
the innermost bracket, and those of the brackets around it; and whether a key may start here. -/
structure Layout where
  tokens : List Token := []
  blocks : List Nat := []
  candidate : Option Candidate := none
  outer : List (Option Candidate) := []
  keyAllowed : Bool := true

namespace Layout

def inFlow (l : Layout) : Bool := !l.outer.isEmpty

def push (l : Layout) (token : Token) : Layout := { l with tokens := token :: l.tokens }

def insert (l : Layout) (position : Nat) (token : Token) : Layout :=
  let later := l.tokens.length - position
  { l with tokens := l.tokens.take later ++ token :: l.tokens.drop later }

def allowKey (l : Layout) (allowed : Bool) : Layout := { l with keyAllowed := allowed }

/-- The first column that is to the right of the innermost block. -/
def margin (l : Layout) : Nat :=
  match l.blocks with
  | [] => 0
  | column :: _ => column + 1

/-- Close the blocks that start to the right of `limit - 1`; inside of brackets, none. -/
def unwind (l : Layout) (limit : Nat) : Layout :=
  if l.inFlow then l
  else
    let closed := l.blocks.takeWhile (limit ≤ ·)
    { l with
      blocks := l.blocks.drop closed.length
      tokens := closed.map (fun _ => Token.blockClose) ++ l.tokens }

/-- Open a block in a column, unless the innermost one starts there or further right; `opening` goes
behind the first `position` tokens. -/
def openBlock (l : Layout) (column position : Nat) (opening : Token) : Layout :=
  if l.inFlow then l
  else if l.blocks.head?.all (· < column) then
    { l with blocks := column :: l.blocks }.insert position opening
  else l

def isStale (c : Cursor) (k : Candidate) : Bool := k.line ≠ c.line || keyLimit < c.index - k.index

/-- Forget the candidates that cannot be keys any more; none of them may be needed. -/
def dropStale (l : Layout) (c : Cursor) : Option Layout :=
  let all := l.candidate :: l.outer
  if all.any (fun found => found.any fun k => k.needed && isStale c k) then none
  else
    let keep (found : Option Candidate) := found.filter (!isStale c ·)
    some { l with candidate := keep l.candidate, outer := l.outer.map keep }

/-- Forget the candidate of the innermost bracket, which may not be needed. -/
def forget (l : Layout) : Option Layout :=
  if l.candidate.any (·.needed) then none else some { l with candidate := none }

def remember (l : Layout) (c : Cursor) : Option Layout :=
  if l.keyAllowed then do
    let l ← l.forget
    let needed := !l.inFlow && l.blocks.head? = some c.column
    return { l with candidate := some ⟨l.tokens.length, needed, c.index, c.line, c.column⟩ }
  else some l

end Layout

/-! ## Tokens -/

abbrev LayoutStep := Layout → Scanner Layout

namespace LayoutStep

/-- Pass over spaces, comments and line ends; behind a line end a key may start. -/
def toNextToken : LayoutStep := fun l => do
  if (← get).index == 0 && (← seesAny (· = byteOrderMark)) then skip
  loop (fun l => do
    let _ ← takeWhile (· = space)
    if ← sees '#' then
      let _ ← takeWhile (!isBreak ·)
    if ← seesAny isBreak then
      let _ ← lineBreak
      return .more (if l.inFlow then l else l.allowKey true)
    else return .done l) l

def marked (token : Token) (n : Nat) : LayoutStep := fun l => do
  skip n
  return l.push token

def betweenDocuments (read : Scanner Token) : LayoutStep := fun l => do
  let l ← (l.unwind 0).forget
  return (l.push (← read)).allowKey false

/-- An opening bracket, which may start a key. -/
def openFlow (token : Token) : LayoutStep := fun l => do
  let l ← l.remember (← get)
  let l := { l with candidate := none, outer := l.candidate :: l.outer }
  marked token 1 (l.allowKey true)

def closeFlow (token : Token) : LayoutStep := fun l => do
  let l ← l.forget
  match l.outer with
  | [] => refuse
  | candidate :: outer =>
    marked token 1 ({ l with candidate := candidate, outer := outer }.allowKey false)

def comma : LayoutStep := fun l => do marked .comma 1 ((← l.forget).allowKey true)

def entry : LayoutStep := fun l => do
  if !l.inFlow && !l.keyAllowed then refuse
  let l := l.openBlock (← get).column l.tokens.length .sequenceOpen
  marked .entry 1 ((← l.forget).allowKey true)

def explicitKey : LayoutStep := fun l => do
  if !l.inFlow && !l.keyAllowed then refuse
  let l := l.openBlock (← get).column l.tokens.length .mappingOpen
  marked .key 1 ((← l.forget).allowKey (!l.inFlow))

/-- The colon of a value; a candidate becomes its key. -/
def value : LayoutStep := fun l => do
  match l.candidate with
  | some k =>
    let l := { l with candidate := none }.insert k.position .key
    let l := l.openBlock k.column k.position .mappingOpen
    marked .value 1 (l.allowKey false)
  | none =>
    if !l.inFlow && !l.keyAllowed then refuse
    let l := l.openBlock (← get).column l.tokens.length .mappingOpen
    marked .value 1 (l.allowKey (!l.inFlow))

def possibleKey (read : Scanner Token) : LayoutStep := fun l => do
  let l ← l.remember (← get)
  return (l.push (← read)).allowKey false

/-- A block scalar, which is no key. -/
def block (fold : Bool) : LayoutStep := fun l => do
  let l ← (l.allowKey true).forget
  return l.push (.scalar (← blockScalar fold l.margin) false)

/-- A plain scalar; a key may start behind it if a line ends there. -/
def plain : LayoutStep := fun l => do
  let l ← l.remember (← get)
  let found ← plainScalar l.inFlow l.margin
  return (l.push (.scalar found.text true)).allowKey found.gap.broken

/-- The code points that start no plain scalar. -/
def plainBreakers : Text := "-?:,[]\x7b\x7d#&*!|>'\"%@`"

def startsPlain (inFlow : Bool) (first : CodePoint) (second : Option CodePoint) : Bool :=
  if endsWord (some first) then false
  else if plainBreakers.contains first then
    !endsWord second && (first.is '-' || (!inFlow && (first.is '?' || first.is ':')))
  else true

def token (first : CodePoint) : LayoutStep := fun l => do
  let c ← get
  let second ← peek 1
  if first.is '%' && c.column == 0 then betweenDocuments (.directive <$> directive) l
  else if c.column == 0 && startsDocumentMark '-' c.rest then
    betweenDocuments (do skip 3; return .documentStart) l
  else if c.column == 0 && startsDocumentMark '.' c.rest then
    betweenDocuments (do skip 3; return .documentEnd) l
  else if first.is '[' then openFlow .flowSequenceOpen l
  else if first.is '\x7b' then openFlow .flowMappingOpen l
  else if first.is ']' then closeFlow .flowSequenceClose l
  else if first.is '\x7d' then closeFlow .flowMappingClose l
  else if first.is ',' then comma l
  else if first.is '-' && endsWord second then entry l
  else if first.is '?' && (l.inFlow || endsWord second) then explicitKey l
  else if first.is ':' && (l.inFlow || endsWord second) then value l
  else if first.is '*' then possibleKey (.alias <$> anchorName) l
  else if first.is '&' then possibleKey (.anchor <$> anchorName) l
  else if first.is '!' then possibleKey tagName l
  else if first.is '|' && !l.inFlow then block false l
  else if first.is '>' && !l.inFlow then block true l
  else if first.is '\'' then possibleKey (do return .scalar (← quotedScalar false) false) l
  else if first.is '"' then possibleKey (do return .scalar (← quotedScalar true) false) l
  else if startsPlain l.inFlow first second then plain l
  else refuse

end LayoutStep

def wholeLayout : Scanner Layout :=
  loop (fun l => do
    let l ← (← LayoutStep.toNextToken l).dropStale (← get)
    let l := l.unwind ((← get).column + 1)
    match ← peek with
    | some first => return .more (← LayoutStep.token first l)
    | none => return .done (← (l.unwind 0).forget)) {}

def isAllowed (c : CodePoint) : Bool :=
  let n := c.val
  n == 0x09 || n == 0x0A || n == 0x0D || (0x20 ≤ n && n ≤ 0x7E) || n == 0x85
    || (0xA0 ≤ n && n ≤ 0xD7FF) || (0xE000 ≤ n && n ≤ 0xFFFD) || 0x10000 ≤ n

def Token.ofText? (t : Text) : Option (List Token) := do
  if t.all isAllowed then
    let (l, _) ← wholeLayout { rest := t }
    return l.tokens.reverse
  else none

end SchemaAtlas.Markup
