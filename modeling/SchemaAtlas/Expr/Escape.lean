import SchemaAtlas.Number.Numeral

/-!
# Escape sequences

What an escape sequence of a string literal stands for. Each escape is decoded on its own, so the
two halves of a pair of surrogates stay two code points.
-/

namespace SchemaAtlas.Escape

def control? (c : CodePoint) : Option CodePoint :=
  if c = 0x6E then some 0x0A
  else if c = 0x74 then some 0x09
  else if c = 0x72 then some 0x0D
  else if c = 0x62 then some 0x08
  else if c = 0x66 then some 0x0C
  else if c = 0x76 then some 0x0B
  else if c = 0x30 then some 0x00
  else none

def isBrace (c : CodePoint) : Bool := c = 0x7B || c = 0x7D

/-- The bound of the numbers that are tried as code points: a signed word of 32 bits. -/
def wordBound : Int := Nat.pow 2 31

/-- A numeric escape names a number that does not even fit a word. -/
inductive Problem where
  | beyondWord
  deriving DecidableEq, Repr

/-- The value of an escape whose body is a mark and hexadecimal digits, possibly in braces. A body
without digits or beyond the last code point stands for itself. -/
def numeric (body : Text) : Except Problem Text :=
  match Numeral.hexadecimal? (Text.trim isBrace (body.drop 1)) with
  | none => .ok body
  | some n =>
    if n < -wordBound ∨ wordBound ≤ n then .error .beyondWord
    else if n < 0 then .ok body
    else if h : n.toNat < 0x110000 then .ok [⟨n.toNat, h⟩]
    else .ok body

/-- The value of an escape sequence, backslash included. A line break after the backslash continues
the line; every other code point stands for itself. -/
def decode (sequence : Text) : Except Problem Text :=
  match sequence.drop 1 with
  | [] => .ok []
  | c :: rest =>
    match rest, control? c with
    | [], some value => .ok [value]
    | _, _ =>
      if c = 0x75 ∨ c = 0x78 then numeric (c :: rest)
      else if c = lineFeed ∨ c = carriageReturn then .ok []
      else .ok (c :: rest)

end SchemaAtlas.Escape
