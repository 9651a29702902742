import SchemaAtlas.Markup.Cursor

/-!
# Scalars

The four ways to write a text: plain, in apostrophes, in quotation marks, and as a block. All fold
lines: a single line end between two words becomes a space, and of several line ends the first is
dropped; only a literal block keeps each of them.
-/

namespace SchemaAtlas.Markup

open Scanner

/-- What a line end becomes, with the line ends of the empty lines behind it. -/
def folded (first : Text) (more : List Text) : Text :=
  if first ≠ [lineFeed] then first ++ more.flatten
  else if more.isEmpty then [space]
  else more.flatten

/-! ## Plain scalars -/

def isFlowMark (c : CodePoint) : Bool := (",[]\x7b\x7d" : Text).contains c

def plainLength (inFlow : Bool) : Text → Nat
  | [] => 0
  | c :: rest =>
    if endsWord (some c) || (inFlow && (isFlowMark c || c.is '?'))
      || (c.is ':' && (endsWord rest.head? || (inFlow && rest.head?.any isFlowMark))) then 0
    else 1 + plainLength inFlow rest

/-- What stands between two words: the text it stands for, empty if the scalar ends here, and
whether a line ends in it. -/
structure WordGap where
  text : Text := []
  broken : Bool := false

/-- The line ends of empty lines, unless a mark between documents follows. -/
def emptyLines : Scanner (Option (List Text)) := do
  if ← seesDocumentMark then return none
  else loop (fun
    | none => return .done none
    | some found => do
      if ← sees ' ' then
        skip
        return .more (some found)
      else if ← seesAny isBreak then
        let one ← lineBreak
        if ← seesDocumentMark then return .done none else return .more (some (found ++ [one]))
      else return .done (some found)) (some [])

def wordGap : Scanner WordGap := do
  let blanks ← takeWhile (· = space)
  if ← seesAny isBreak then
    let first ← lineBreak
    match ← emptyLines with
    | none => return ⟨[], true⟩
    | some more => return ⟨folded first more, true⟩
  else return ⟨blanks, false⟩

/-- A plain scalar that has been read so far: its text, and the gap behind it. -/
structure PlainScalar where
  text : Text := []
  gap : WordGap := {}

/-- A plain scalar, of which every line starts at least at column `margin`. -/
def plainScalar (inFlow : Bool) (margin : Nat) : Scanner PlainScalar :=
  loop (fun found => do
    match plainLength inFlow (← get).rest with
    | 0 => return .done found
    | n =>
      let word := (← get).rest.take n
      skip n
      let gap ← wordGap
      let found := ⟨found.text ++ found.gap.text ++ word, gap⟩
      if gap.text.isEmpty || (← sees '#') || (!inFlow && (← get).column < margin) then
        return .done found
      else return .more found) {}

/-! ## Quoted scalars -/

def escapes : List (Char × CodePoint) := [
  ('0', 0x00), ('a', 0x07), ('b', 0x08), ('t', 0x09), ('\t', 0x09), ('n', 0x0A), ('v', 0x0B),
  ('f', 0x0C), ('r', 0x0D), ('e', 0x1B), (' ', 0x20), ('"', 0x22), ('\\', 0x5C), ('/', 0x2F),
  ('N', nextLine), ('_', 0xA0), ('L', lineSeparator), ('P', paragraphSeparator)]

/-- The escapes that are followed by hexadecimal digits, and by how many. -/
def numberedEscapes : List (Char × Nat) := [('x', 2), ('u', 4), ('U', 8)]

def hexValue? (c : CodePoint) : Option Nat :=
  let n := c.val
  if 0x30 ≤ n ∧ n ≤ 0x39 then some (n - 0x30)
  else if 0x41 ≤ n ∧ n ≤ 0x46 then some (n - 0x41 + 10)
  else if 0x61 ≤ n ∧ n ≤ 0x66 then some (n - 0x61 + 10)
  else none

def hexPoint (n : Nat) : Scanner CodePoint := do
  let digits := (← get).rest.take n
  match digits.mapM hexValue? with
  | some values =>
    let value := values.foldl (fun v d => v * 16 + d) 0
    if h : values.length = n ∧ value < 0x110000 then
      skip n
      return ⟨value, h.2⟩
    else refuse
  | none => refuse

/-- The line ends of empty lines inside of quotes, where no mark between documents may stand. -/
def quotedLines : Scanner (List Text) :=
  loop (fun found => do
    if ← seesDocumentMark then refuse
    else
      let _ ← takeWhile isSpacing
      if ← seesAny isBreak then return .more (found ++ [← lineBreak])
      else return .done found) []

/-- What an escape stands for; the cursor is behind the backslash. -/
def escape : Scanner Text := do
  match ← peek with
  | none => refuse
  | some c =>
    if isBreak c then
      let _ ← lineBreak
      return (← quotedLines).flatten
    else match escapes.find? (c.is ·.1), numberedEscapes.find? (c.is ·.1) with
      | some (_, p), _ =>
        skip
        return [p]
      | none, some (_, n) =>
        skip
        return [← hexPoint n]
      | none, none => refuse

def isQuotedPlain (c : CodePoint) : Bool :=
  !(endsWord (some c) || c.is '\'' || c.is '"' || c.is '\\')

def quotedWord (double : Bool) : Scanner Text :=
  loop (fun found => do
    let found := found ++ (← takeWhile isQuotedPlain)
    match ← peek with
    | none => return .done found
    | some c =>
      if !double && c.is '\'' && (← peek 1).any (·.is '\'') then
        skip 2
        return .more (found ++ [c])
      else if (c.is '\'' && double) || (!double && (c.is '"' || c.is '\\')) then
        skip
        return .more (found ++ [c])
      else if double && c.is '\\' then
        skip
        return .more (found ++ (← escape))
      else return .done found) []

def quotedGap : Scanner Text := do
  let blanks ← takeWhile isSpacing
  match ← peek with
  | none => refuse
  | some c =>
    if isBreak c then
      let first ← lineBreak
      return folded first (← quotedLines)
    else return blanks

/-- A scalar in quotation marks or in apostrophes; the cursor is at the opening quote. -/
def quotedScalar (double : Bool) : Scanner Text := do
  skip
  let first ← quotedWord double
  let text ← loop (fun found => do
    if ← sees (if double then '"' else '\'') then return .done found
    else
      let gap ← quotedGap
      return .more (found ++ gap ++ (← quotedWord double))) first
  skip
  return text

/-! ## Block scalars -/

/-- What becomes of the line ends behind a block: one is kept, none, or all. -/
inductive Chomping where
  | clip
  | strip
  | keep
  deriving DecidableEq, Repr

/-- The sign for what becomes of the last line ends. -/
def chomping? : Scanner (Option Chomping) := do
  if ← sees '+' then
    skip
    return some .keep
  else if ← sees '-' then
    skip
    return some .strip
  else return none

/-- A number of columns, from one to nine. -/
def indentation? : Scanner (Option Nat) := do
  match ← peek with
  | some c =>
    if 0x31 ≤ c.val ∧ c.val ≤ 0x39 then
      skip
      return some (c.val - 0x30)
    else return none
  | none => return none

/-- The signs at the head of a block, in either order. -/
def blockHeader : Scanner (Chomping × Option Nat) := do
  let early ← chomping?
  let columns ← indentation?
  let late ← if early.isNone && columns.isSome then chomping? else pure none
  if !endsWord (← peek) then refuse
  restOfLine
  return ((early.or late).getD .clip, columns)

def spacesUpTo (column : Nat) : Scanner Unit := do
  let found := ((← get).rest.takeWhile (· = space)).length
  skip (min found (column - (← get).column))

def blockLines (column : Nat) : Scanner (List Text) := do
  spacesUpTo column
  loop (fun found => do
    if ← seesAny isBreak then
      let one ← lineBreak
      spacesUpTo column
      return .more (found ++ [one])
    else return .done found) []

/-- The line ends of the empty lines before a block, and the greatest column that spaces reach. -/
def leadingLines : Scanner (List Text × Nat) :=
  loop (fun (found, reached) => do
    if ← sees ' ' then
      skip
      return .more (found, max reached (← get).column)
    else if ← seesAny isBreak then return .more (found ++ [← lineBreak], reached)
    else return .done (found, reached)) ([], 0)

/-- A block that has been read so far: its text, the end of its last line, and the line ends of the
empty lines behind that. -/
structure Block where
  text : Text := []
  last : Text := []
  after : List Text := []

/-- Add a line to a block; two lines are folded if neither starts with spacing. -/
def blockRound (fold : Bool) (column : Nat) (b : Block) : Scanner (Round Block) := do
  if (← get).column != column || (← peek).isNone then return .done b
  else
    let spaced ← seesAny isSpacing
    let line ← takeWhile (!isBreak ·)
    let last ← lineBreak
    let after ← blockLines column
    let text := b.text ++ b.after.flatten ++ line
    if (← get).column == column && (← peek).isSome then
      let between :=
        if fold && last = [lineFeed] && !spaced && !(← seesAny isSpacing) then
          if after.isEmpty then [space] else []
        else last
      return .more ⟨text ++ between, [], after⟩
    else return .done ⟨text, last, after⟩

/-- A block scalar, of which every line starts at least at column `margin`; the cursor is at its
mark. -/
def blockScalar (fold : Bool) (margin : Nat) : Scanner Text := do
  skip
  let (chomping, columns) ← blockHeader
  let margin := max margin 1
  let (before, column) ← match columns with
    | some n => do
      let column := margin + n - 1
      pure (← blockLines column, column)
    | none => do
      let (before, reached) ← leadingLines
      pure (before, max margin reached)
  let b ← loop (blockRound fold column) { after := before }
  match chomping with
  | .strip => return b.text
  | .clip => return b.text ++ b.last
  | .keep => return b.text ++ b.last ++ b.after.flatten

end SchemaAtlas.Markup
