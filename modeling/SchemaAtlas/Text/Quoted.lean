import SchemaAtlas.Text.Printable

/-!
# Quoted texts

A text is quoted with apostrophes, or with quotation marks if it holds an apostrophe and no
quotation mark. The mark itself, the backslash and everything without a visible form are escaped.
-/

namespace SchemaAtlas.Text

/-- The lower-case hexadecimal digits of a number, with zeros in front up to `width`. -/
def hex (width n : Nat) : Text :=
  let digits := (Nat.toDigits 16 n).map CodePoint.ofChar
  List.replicate (width - digits.length) 0x30 ++ digits

def quotedPoint (mark c : CodePoint) : Text :=
  if c = mark || c = 0x5C then [0x5C, c]
  else if c = 0x09 then "\\t"
  else if c = lineFeed then "\\n"
  else if c = carriageReturn then "\\r"
  else if c.isPrintable then [c]
  else if c.val < 0x100 then "\\x" ++ hex 2 c.val
  else if c.val < 0x10000 then "\\u" ++ hex 4 c.val
  else "\\U" ++ hex 8 c.val

def quoteMark (t : Text) : CodePoint :=
  if t.contains 0x27 && !t.contains 0x22 then 0x22 else 0x27

def quoted (t : Text) : Text :=
  let mark := quoteMark t
  mark :: t.replace (quotedPoint mark) ++ [mark]

end SchemaAtlas.Text
