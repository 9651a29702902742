import SchemaAtlas.Text.Basic

/-!
# Cursors

A cursor is a place in a text that knows its line and column, because in a markup text the layout
carries meaning. Readers move a cursor forward and may refuse. Repetition ends because every round
but the last has to make progress.
-/

namespace SchemaAtlas.Markup

/-- What a round of a repetition decides: to go on with a value, or to stop with it. -/
inductive Round (α : Type) where
  | more (value : α)
  | done (value : α)

/-- Repeat rounds until one is the last; `size` says how much is left of a state, and a round that
wants more without lessening it is refused. -/
def repeatRounds {σ α : Type} (size : σ → Nat) (round : α → StateT σ Option (Round α)) (a : α)
    (s : σ) : Option (α × σ) :=
  match round a s with
  | none => none
  | some (.done b, t) => some (b, t)
  | some (.more b, t) => if _h : size t < size s then repeatRounds size round b t else none
termination_by size s

/-! ## Classes of code points -/

def nextLine : CodePoint := 0x85

def lineSeparator : CodePoint := 0x2028

def paragraphSeparator : CodePoint := 0x2029

/-- The mark that may stand before a whole text. -/
def byteOrderMark : CodePoint := 0xFEFF

def isBreak (c : CodePoint) : Bool :=
  c = lineFeed || c = nextLine || c = lineSeparator || c = paragraphSeparator

def isSpacing (c : CodePoint) : Bool := c = space || c = 0x09

/-- Whether a word ends here: at the end of the text, at spacing, or at the end of a line. -/
def endsWord : Option CodePoint → Bool
  | none => true
  | some c => isSpacing c || isBreak c

/-- Whether a line ends here. -/
def endsLine : Option CodePoint → Bool
  | none => true
  | some c => isBreak c

def startsDocumentMark (mark : Char) (t : Text) : Bool :=
  (t.take 3).length == 3 && (t.take 3).all (·.is mark) && endsWord t[3]?

/-! ## Cursors -/

/-- A place in a text: what is left of it, the number of code points before it, and its line and
column. -/
structure Cursor where
  rest : Text
  index : Nat := 0
  line : Nat := 0
  column : Nat := 0
  deriving Inhabited

namespace Cursor

def next (c : Cursor) : Cursor :=
  match c.rest with
  | [] => c
  | p :: rest =>
    if isBreak p then ⟨rest, c.index + 1, c.line + 1, 0⟩
    else ⟨rest, c.index + 1, c.line, if p = byteOrderMark then c.column else c.column + 1⟩

def skip (c : Cursor) : Nat → Cursor
  | 0 => c
  | n + 1 => c.next.skip n

end Cursor

/-- A reader of a text. -/
abbrev Scanner := StateT Cursor Option

namespace Scanner

variable {α : Type}

def refuse : Scanner α := fun _ => none

def peek (n : Nat := 0) : Scanner (Option CodePoint) := return (← get).rest[n]?

def sees (character : Char) : Scanner Bool := return (← peek).any (·.is character)

def seesAny (p : CodePoint → Bool) : Scanner Bool := return (← peek).any p

def skip (n : Nat := 1) : Scanner Unit := modify (·.skip n)

def takeWhile (p : CodePoint → Bool) : Scanner Text := fun c =>
  let taken := c.rest.takeWhile p
  some (taken, c.skip taken.length)

/-- Repeat rounds until one is the last. -/
def loop (round : α → Scanner (Round α)) (a : α) : Scanner α :=
  fun c => repeatRounds (·.rest.length) round a c

/-- Take the end of a line, if there is one: separators stay as they are, everything else becomes a
line feed. -/
def lineBreak : Scanner Text := do
  match ← peek with
  | some c =>
    if isBreak c then
      skip
      return [if c = nextLine then lineFeed else c]
    else return []
  | none => return []

/-- Whether a mark between documents stands here. -/
def seesDocumentMark : Scanner Bool := do
  let t := (← get).rest
  return startsDocumentMark '-' t || startsDocumentMark '.' t

/-- Pass over spaces and a comment, up to the end of the line. -/
def restOfLine : Scanner Unit := do
  let _ ← takeWhile (· = space)
  if ← sees '#' then
    let _ ← takeWhile (!isBreak ·)
  if !endsLine (← peek) then refuse
  let _ ← lineBreak

end Scanner
end SchemaAtlas.Markup
