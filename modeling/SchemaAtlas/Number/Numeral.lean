import SchemaAtlas.Number.Binary64

/-!
# Numerals

How a text denotes a number. An integer numeral in a given base may have blanks around it, a sign,
a base mark and single underscores between digits; a decimal numeral may have a fraction and an
exponent. Decimal digits of every script count.
-/

namespace SchemaAtlas

namespace CodePoint

/-- The zeros of the scripts other than ASCII that have decimal digits; nine digits follow each. -/
def scriptZeros : List Nat := [
  0x660, 0x6F0, 0x7C0, 0x966, 0x9E6, 0xA66, 0xAE6, 0xB66, 0xBE6, 0xC66, 0xCE6, 0xD66, 0xDE6,
  0xE50, 0xED0, 0xF20, 0x1040, 0x1090, 0x17E0, 0x1810, 0x1946, 0x19D0, 0x1A80, 0x1A90, 0x1B50,
  0x1BB0, 0x1C40, 0x1C50, 0xA620, 0xA8D0, 0xA900, 0xA9D0, 0xA9F0, 0xAA50, 0xABF0, 0xFF10,
  0x104A0, 0x10D30, 0x11066, 0x110F0, 0x11136, 0x111D0, 0x112F0, 0x11450, 0x114D0, 0x11650,
  0x116C0, 0x11730, 0x118E0, 0x11950, 0x11C50, 0x11D50, 0x11DA0, 0x16A60, 0x16AC0, 0x16B50,
  0x1D7CE, 0x1D7D8, 0x1D7E2, 0x1D7EC, 0x1D7F6, 0x1E140, 0x1E2F0, 0x1E950, 0x1FBF0]

def decimalValue? (c : CodePoint) : Option Nat :=
  let n := c.val
  if 0x30 ≤ n ∧ n ≤ 0x39 then some (n - 0x30)
  else if n < 0x80 then none
  else (scriptZeros.find? fun first => first ≤ n && n ≤ first + 9).map (n - ·)

def digitValue? (c : CodePoint) : Option Nat :=
  let n := c.val
  if 0x61 ≤ n ∧ n ≤ 0x7A then some (n - 0x61 + 10)
  else if 0x41 ≤ n ∧ n ≤ 0x5A then some (n - 0x41 + 10)
  else c.decimalValue?

end CodePoint

namespace Numeral

def underscore : CodePoint := 0x5F

/-- The number with the given digits, most significant first. -/
def ofDigits (base : Nat) (digits : List Nat) : Nat := digits.foldl (fun n d => n * base + d) 0

def digits? (base : Nat) (t : Text) : Option (List Nat) :=
  t.mapM fun c => c.digitValue?.filter (· < base)

def dropUnderscores (afterDigit : Bool) : Text → Option Text
  | [] => if afterDigit then some [] else none
  | c :: rest =>
    if c = underscore then
      if afterDigit then dropUnderscores false rest else none
    else (c :: ·) <$> dropUnderscores true rest

/-- A sign in front of a numeral: whether it is negative, and the rest. -/
def sign : Text → Bool × Text
  | [] => (false, [])
  | c :: rest =>
    if c = 0x2D then (true, rest) else if c = 0x2B then (false, rest) else (false, c :: rest)

def baseOfMark? (c : CodePoint) : Option Nat :=
  if c = 0x78 ∨ c = 0x58 then some 16
  else if c = 0x6F ∨ c = 0x4F then some 8
  else if c = 0x62 ∨ c = 0x42 then some 2
  else none

/-- A base mark in front of a numeral, and the rest. -/
def baseMark? : Text → Option (Nat × Text)
  | first :: mark :: rest => if first = 0x30 then (baseOfMark? mark).map (·, rest) else none
  | _ => none

def signed (negative : Bool) (n : Nat) : Int := if negative then -(n : Int) else n

/-- The digits after a base mark; an underscore may stand between the two. -/
def markedDigits? (base : Nat) (t : Text) : Option Nat := do
  let t ← dropUnderscores true t
  if t.isEmpty then none
  else ofDigits base <$> digits? base t

/-- A hexadecimal numeral, with or without its base mark. -/
def hexadecimal? (t : Text) : Option Int := do
  let (negative, t) := sign t.strip
  match baseMark? t with
  | some (16, rest) => signed negative <$> markedDigits? 16 rest
  | _ =>
    let t ← dropUnderscores false t
    signed negative <$> (ofDigits 16 <$> digits? 16 t)

/-- The greatest number of digits of a decimal integer that is read or written. -/
def digitLimit : Nat := 4300

/-- A numeral whose base follows from its mark: hexadecimal, octal or binary, and decimal without
one. A decimal numeral has no zero in front and stays within the digit limit. -/
def integer? (t : Text) : Option Int := do
  let (negative, t) := sign t.strip
  match baseMark? t with
  | some (base, rest) => signed negative <$> markedDigits? base rest
  | none =>
    let t ← dropUnderscores false t
    let digits ← digits? 10 t
    if digitLimit < digits.length then none
    else if digits.head? = some 0 ∧ digits.any (· != 0) then none
    else some (signed negative (ofDigits 10 digits))

/-- The longest run of decimal digits in front of a text, and the rest. -/
def decimalRun : Text → List Nat × Text
  | [] => ([], [])
  | c :: rest => match c.decimalValue? with
    | some d => let (ds, rest) := decimalRun rest
      (d :: ds, rest)
    | none => ([], c :: rest)

/-- The exponent of a decimal numeral, which has to end the text. -/
def exponent? : Text → Option Int
  | [] => some 0
  | c :: rest =>
    if c = 0x65 ∨ c = 0x45 then
      let (negative, rest) := sign rest
      match decimalRun rest with
      | (d :: ds, []) => some (signed negative (ofDigits 10 (d :: ds)))
      | _ => none
    else none

def decimal? (negative : Bool) (t : Text) : Option Binary64 := do
  let (whole, rest) := decimalRun t
  let (fraction, rest) := match rest with
    | c :: after => if c = 0x2E then decimalRun after else ([], c :: after)
    | [] => ([], [])
  if whole.isEmpty && fraction.isEmpty then none
  else
    let e ← exponent? rest
    return .ofDecimal negative (ofDigits 10 (whole ++ fraction)) (e - fraction.length)

/-- The ASCII letters in lower case. -/
def asciiLower (t : Text) : Text :=
  t.map fun c => if 0x41 ≤ c.val ∧ c.val ≤ 0x5A then CodePoint.ofNatD (c.val + 0x20) c else c

/-- A decimal numeral, or the name of an infinity or of the number that is none. -/
def float? (t : Text) : Option Binary64 := do
  let (negative, t) := sign t.strip
  let name := asciiLower t
  if name = "inf" ∨ name = "infinity" then some (.infinite negative)
  else if name = "nan" then some .notANumber
  else decimal? negative t

end Numeral

/-- A number: an integer of any size, or a floating-point number. -/
inductive Number where
  | integer (value : Int)
  | float (value : Binary64)
  deriving DecidableEq, Repr, Inhabited

namespace Number

/-- The number that a numeric literal denotes: underscores and the marks of a big integer are
dropped, and a text that is no integer numeral is read as a decimal one. -/
def ofLiteral? (t : Text) : Option Number :=
  let digits := Text.dropEndWhile (· = 0x6E) (t.filter (· ≠ Numeral.underscore))
  match Numeral.integer? digits with
  | some n => some (.integer n)
  | none => .float <$> Numeral.float? digits

/-- The decimal digits of an integer, with its sign. -/
def integerText (n : Int) : Text := Text.ofString (toString n)

/-- The canonical spelling of a number: an integral value has neither point nor exponent. It is
missing for an integer beyond the digit limit. -/
def canonical? : Number → Option Text
  | .integer n => if n.natAbs < Nat.pow 10 Numeral.digitLimit then some (integerText n) else none
  | .float x => some ((x.toInt?.map integerText).getD x.toText)

def exact : Number → Text
  | .integer n => integerText n
  | .float x => x.toText

end Number
end SchemaAtlas
