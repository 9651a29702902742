import SchemaAtlas.Syntax.Tree

/-!
# Lexemes

A source is cut into words, marks and finished nodes, and everything between a bracket and its
partner is one group, so a reader of lexemes never looks for the end of anything. A template is a
group too: its texts and escapes are nodes, its substitutions groups. Each lexeme carries the
comments before it, and whether a line ends before it.
-/

namespace SchemaAtlas.Syntax

open CodePoint (is)

/-- What is left of a source: its code points, and the offset of each; the last offset is the one
behind the last code point. -/
structure Input where
  points : Text
  offsets : List Nat
  deriving Inhabited

namespace Input

def offsetsFrom (offset : Nat) : List Utf8.Step → List Nat
  | [] => [offset]
  | next :: rest => offset :: offsetsFrom (offset + next.size) rest

def ofSource (source : Bytes) : Input where
  points := Utf8.decodeLossy source.toList
  offsets := offsetsFrom 0 (Utf8.steps 0 source.toList)

/-- Pass over the first `n` code points. -/
def drop (i : Input) (n : Nat) : Input := ⟨i.points.drop n, i.offsets.drop n⟩

def start (i : Input) : Nat := i.offsets.headD 0

/-- The offset behind the first `n` code points. -/
def stopOf (i : Input) (n : Nat) : Nat := i.offsets.getD n 0

end Input

/-- What stands between two lexemes: comments, whether a line ends outside of them, and whether one
ends inside of them. -/
structure Gap where
  comments : List Tree := []
  newline : Bool := false
  brokenComment : Bool := false
  deriving Inhabited

/-- A piece of a source. -/
inductive Lexeme where
  | word (gap : Gap) (text : Text) (start stop : Nat)
  | mark (gap : Gap) (text : String) (start stop : Nat)
  | node (gap : Gap) (tree : Tree)
  | group (gap : Gap) (opening : Tree) (items : List Lexeme) (closingGap : Gap) (closing : Tree)
  deriving Inhabited

namespace Lexeme

def gap : Lexeme → Gap
  | word gap .. => gap
  | mark gap .. => gap
  | node gap _ => gap
  | group gap .. => gap

def start : Lexeme → Nat
  | word _ _ start _ => start
  | mark _ _ start _ => start
  | node _ tree => tree.start
  | group _ opening .. => opening.start

def stop : Lexeme → Nat
  | word _ _ _ stop => stop
  | mark _ _ _ stop => stop
  | node _ tree => tree.stop
  | group _ _ _ _ closing => closing.stop

end Lexeme

/-! ## Classes of code points -/

def quotationMark : CodePoint := 0x22

def apostrophe : CodePoint := 0x27

def grave : CodePoint := 0x60

def backslash : CodePoint := 0x5C

def isLineEnd (c : CodePoint) : Bool :=
  c = lineFeed || c = carriageReturn || c = 0x2028 || c = 0x2029

def isSeparator (c : CodePoint) : Bool :=
  let n := c.val
  (0x09 ≤ n && n ≤ 0x0D) || n == 0x20 || n == 0xA0 || n == 0x1680
    || (0x2000 ≤ n && n ≤ 0x200B) || n == 0x2028 || n == 0x2029 || n == 0x202F || n == 0x205F
    || n == 0x2060 || n == 0x3000 || n == 0xFEFF

def isDigit (c : CodePoint) : Bool := 0x30 ≤ c.val && c.val ≤ 0x39

def isOctal (c : CodePoint) : Bool := 0x30 ≤ c.val && c.val ≤ 0x37

def isHex (c : CodePoint) : Bool :=
  isDigit c || (0x41 ≤ c.val && c.val ≤ 0x46) || (0x61 ≤ c.val && c.val ≤ 0x66)

/-- The ASCII code points that no word holds. -/
def wordBreakers : Text := ":;\"'@#.,|^&<=>+-*/\\%?!~()[]\x7b\x7d`"

def isWordPart (c : CodePoint) : Bool :=
  0x20 ≤ c.val && !isSeparator c && !wordBreakers.contains c

def isWordStart (c : CodePoint) : Bool := isWordPart c && !isDigit c

/-- The marks of more than one code point, and those of one, each before all that it starts with. -/
def marks : List String := [
  ">>>=", "...", "===", "!==", "**=", "<<=", ">>=", ">>>", "&&=", "||=", "??=", "=>", "==", "!=",
  "<=", ">=", "&&", "||", "??", "?.", "++", "--", "+=", "-=", "*=", "/=", "%=", "&=", "|=", "^=",
  "<<", ">>", "**", ".", ",", ";", ":", "?", "!", "~", "+", "-", "*", "/", "%", "&", "|", "^", "<",
  ">", "=", "@"]

/-! ## Lengths of lexemes, in code points -/

def escapeLength? : Text → Option Nat
  | [] => none
  | c :: rest =>
    if is c 'x' then
      if 2 ≤ (rest.take 2).countP isHex then some 3 else none
    else if is c 'u' then
      match rest with
      | [] => none
      | d :: more =>
        if is d '\x7b' then
          let digits := more.takeWhile isHex
          match more.drop digits.length with
          | e :: _ => if is e '\x7d' && !digits.isEmpty then some (digits.length + 3) else none
          | [] => none
        else if 4 ≤ (rest.take 4).countP isHex then some 5 else none
    else if isOctal c then some (1 + ((rest.take 2).takeWhile isOctal).length)
    else if c = carriageReturn || is c '?' then
      match rest with
      | d :: _ => if isLineEnd d && d ≠ carriageReturn then some 2 else some 1
      | [] => some 1
    else some 1

def isDigitOrUnderscore (c : CodePoint) : Bool := isDigit c || is c '_'

def exponentLength : Text → Nat
  | e :: rest =>
    if is e 'e' || is e 'E' then
      let (signLength, digits) := match rest with
        | s :: more => if is s '+' || is s '-' then (1, more) else (0, rest)
        | [] => (0, [])
      match (digits.takeWhile isDigitOrUnderscore).length with
      | 0 => 0
      | n => 1 + signLength + n
    else 0
  | [] => 0

def fractionLength : Text → Nat
  | p :: rest => if is p '.' then 1 + (rest.takeWhile isDigitOrUnderscore).length else 0
  | [] => 0

def isBaseMark (c : CodePoint) : Bool :=
  is c 'x' || is c 'X' || is c 'o' || is c 'O' || is c 'b' || is c 'B'

def decimalLength (t : Text) : Nat :=
  let whole := (t.takeWhile isDigitOrUnderscore).length
  let fraction := fractionLength (t.drop whole)
  let exponent := exponentLength (t.drop (whole + fraction))
  let length := whole + fraction + exponent
  match t.drop length with
  | n :: _ => if is n 'n' then length + 1 else length
  | [] => length

def numeralLength : Text → Nat
  | first :: mark :: rest =>
    if is first '0' && isBaseMark mark then 2 + (rest.takeWhile isWordPart).length
    else decimalLength (first :: mark :: rest)
  | t => decimalLength t

/-- The length of a word in front of a text; escapes in it count with all their code points. -/
def wordLength (pending : Nat) : Text → Nat
  | [] => 0
  | c :: rest => match pending with
    | pending + 1 => 1 + wordLength pending rest
    | 0 =>
      if isWordPart c then 1 + wordLength 0 rest
      else if c = backslash then
        match escapeLength? rest with
        | some n => 1 + wordLength n rest
        | none => 0
      else 0

def blockCommentLength? : Text → Option Nat
  | [] => none
  | [_] => none
  | c :: d :: rest =>
    if is c '*' && is d '/' then some 2
    else (blockCommentLength? (d :: rest)).map (· + 1)

/-! ## Scanning -/

/-- An open bracket with what stands before it and the lexemes between its own opening and the one
before, in reverse. -/
structure Frame where
  gap : Gap
  opening : Tree
  before : List Lexeme
  deriving Inhabited

/-- The state of a scan: the open brackets, innermost first, and in reverse the lexemes of the
innermost group and the comments since the last of them. -/
structure Scan where
  frames : List Frame := []
  items : List Lexeme := []
  comments : List Tree := []
  newline : Bool := false
  brokenComment : Bool := false
  deriving Inhabited

namespace Scan

/-- What stands before the next lexeme. -/
def pendingGap (s : Scan) : Gap := ⟨s.comments.reverse, s.newline, s.brokenComment⟩

def push (s : Scan) (make : Gap → Lexeme) : Scan where
  frames := s.frames
  items := make s.pendingGap :: s.items

def openGroup (s : Scan) (opening : Tree) : Scan where
  frames := ⟨s.pendingGap, opening, s.items⟩ :: s.frames

/-- Close the innermost group, if its opening has this label. -/
def closeGroup? (s : Scan) (opening : String) (closing : Tree) : Option Scan :=
  match s.frames with
  | [] => none
  | frame :: frames =>
    if frame.opening.kind == Kind.ofLabel opening then
      some {
        frames := frames
        items := .group frame.gap frame.opening s.items.reverse s.pendingGap closing
          :: frame.before }
    else none

def inTemplate (s : Scan) : Bool :=
  match s.frames with
  | [] => false
  | frame :: _ => frame.opening.kind == .other "`"

end Scan

/-- A node without children over the first `n` code points. -/
def leafNode (kind : Kind) (named : Bool) (n : Nat) (i : Input) : Tree :=
  .node kind i.start (i.stopOf n) named none []

/-- An anonymous node over the first `n` code points, labelled by their text. -/
def token (label : String) (n : Nat) (i : Input) : Tree :=
  leafNode (.ofLabel label) false n i

def isPlain (quote c : CodePoint) : Bool :=
  c ≠ quote && c ≠ backslash && c ≠ lineFeed && c ≠ carriageReturn

/-- The parts of a string up to its closing quote, and the input from there on; a part is a run of
plain code points or an escape. -/
def stringParts? (quote : CodePoint) : Nat → Input → Option (List Tree × Input)
  | 0, _ => none
  | fuel + 1, i =>
    match i.points with
    | [] => none
    | c :: rest =>
      if c = quote then some ([], i)
      else if c = backslash then do
        let n ← escapeLength? rest
        let (parts, left) ← stringParts? quote fuel (i.drop (n + 1))
        return (leafNode .escapeSequence true (n + 1) i :: parts, left)
      else if isPlain quote c then do
        let n := (i.points.takeWhile (isPlain quote)).length
        let (parts, left) ← stringParts? quote fuel (i.drop n)
        return (leafNode .stringFragment true n i :: parts, left)
      else none

def quoteLabel (quote : CodePoint) : String := if quote = quotationMark then "\"" else "'"

/-- The string in front of an input that starts with a quote, and the input behind it. -/
def string? (quote : CodePoint) (i : Input) : Option (Tree × Input) := do
  let (parts, left) ← stringParts? quote i.points.length (i.drop 1)
  let label := quoteLabel quote
  let closing := token label 1 left
  let children := token label 1 i :: parts ++ [closing]
  return (.node .string i.start closing.stop true none children, left.drop 1)

def templateStep (s : Scan) (i : Input) : Option (Scan × Input) :=
  match i.points with
  | [] => none
  | c :: rest =>
    if c = grave then do
      return (← s.closeGroup? "`" (token "`" 1 i), i.drop 1)
    else if c = backslash then do
      let n ← escapeLength? rest
      return (s.push (.node · (leafNode .escapeSequence true (n + 1) i)), i.drop (n + 1))
    else if is c '$' && rest.head? = some 0x7B then
      some (s.openGroup (token "$\x7b" 2 i), i.drop 2)
    else
      let isText (c : CodePoint) : Bool := c ≠ grave && c ≠ backslash && !is c '$'
      let n := max 1 (i.points.takeWhile isText).length
      some (s.push (.node · (leafNode .stringFragment true n i)), i.drop n)

def endsLineComment (c : CodePoint) : Bool := c = lineFeed || c = carriageReturn

def commentLength? : Text → Option Nat
  | c :: d :: rest =>
    if is c '/' && is d '/' then some (2 + (rest.takeWhile (!endsLineComment ·)).length)
    else if is c '/' && is d '*' then (blockCommentLength? rest).map (2 + ·)
    else none
  | _ => none

def Scan.comment (s : Scan) (n : Nat) (i : Input) : Scan :=
  { s with
    comments := leafNode .comment true n i :: s.comments
    brokenComment := s.brokenComment || (i.points.take n).any isLineEnd }

/-- Scan a bracket, if one stands here. -/
def bracket? (s : Scan) (c : CodePoint) (i : Input) : Option (Option Scan) :=
  if is c '(' then some (s.openGroup (token "(" 1 i))
  else if is c '[' then some (s.openGroup (token "[" 1 i))
  else if is c '\x7b' then some (s.openGroup (token "\x7b" 1 i))
  else if c = grave then some (s.openGroup (token "`" 1 i))
  else if is c ')' then some (s.closeGroup? "(" (token ")" 1 i))
  else if is c ']' then some (s.closeGroup? "[" (token "]" 1 i))
  else if is c '\x7d' then
    let closing := token "\x7d" 1 i
    some ((s.closeGroup? "\x7b" closing).or (s.closeGroup? "$\x7b" closing))
  else none

/-- Whether a numeral starts here. -/
def startsNumeral : Text → Bool
  | [] => false
  | [c] => isDigit c
  | c :: d :: _ => isDigit c || (is c '.' && isDigit d)

/-- The mark in front of a text; a question mark before a fraction stands alone. -/
def mark? (t : Text) : Option String :=
  if (Text.ofString "?.").isPrefixOf t && (t.drop 2).head?.any isDigit then some "?"
  else marks.find? fun (m : String) => (Text.ofString m).isPrefixOf t

def plainStep (s : Scan) (i : Input) : Option (Scan × Input) :=
  match i.points with
  | [] => none
  | c :: rest =>
    if isSeparator c then some ({ s with newline := s.newline || isLineEnd c }, i.drop 1)
    else if let some n := commentLength? i.points then some (s.comment n i, i.drop n)
    else if let some found := bracket? s c i then found.map (·, i.drop 1)
    else if c = quotationMark || c = apostrophe then do
      let (tree, left) ← string? c i
      return (s.push (.node · tree), left)
    else if startsNumeral i.points then
      let n := numeralLength i.points
      some (s.push (.node · (leafNode .number true n i)), i.drop n)
    else if isWordStart c || c = backslash then
      match wordLength 0 i.points with
      | 0 => none
      | n => some (s.push (.word · (i.points.take n) i.start (i.stopOf n)), i.drop n)
    else if is c '#' then
      let n := 1 + wordLength 0 rest
      let kind := Kind.other "private_property_identifier"
      some (s.push (.node · (leafNode kind true n i)), i.drop n)
    else
      (mark? i.points).map fun m =>
        (s.push (.mark · m i.start (i.stopOf m.length)), i.drop m.length)

/-- Scan to the end. Every step passes at least one code point, so as many steps are enough. -/
def scan : Nat → Scan → Input → Option Scan
  | 0, s, i => if i.points.isEmpty && s.frames.isEmpty then some s else none
  | fuel + 1, s, i =>
    if i.points.isEmpty then if s.frames.isEmpty then some s else none
    else match if s.inTemplate then templateStep s i else plainStep s i with
      | some (s, rest) => scan fuel s rest
      | none => none

/-- The line that starts a script for a shell, if there is one, and the input behind it. -/
def scriptLine (i : Input) : Option Tree × Input :=
  match i.points with
  | c :: d :: rest =>
    if is c '#' && is d '!' then
      let n := 2 + (rest.takeWhile (!isLineEnd ·)).length
      (some (leafNode (.other "hash_bang_line") true n i), i.drop n)
    else (none, i)
  | _ => (none, i)

/-- The lexemes of a source and what stands behind the last of them; none if a bracket has no
partner or something is no lexeme. -/
def lexemes? (source : Bytes) : Option (List Lexeme × Gap) := do
  let (script, rest) := scriptLine (Input.ofSource source)
  let start : Scan := { items := (script.map (Lexeme.node {})).toList }
  let s ← scan rest.points.length start rest
  return (s.items.reverse, s.pendingGap)

end SchemaAtlas.Syntax
