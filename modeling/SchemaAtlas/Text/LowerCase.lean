import SchemaAtlas.Text.Basic
import SchemaAtlas.Text.CaseTable

/-!
# Lower case

Lower case is taken letter by letter, with two exceptions: U+0130 becomes `i` and a combining dot,
and a capital sigma becomes a final sigma where it ends a word.
-/

namespace SchemaAtlas
open Text.CaseTable

namespace CodePoint

/-- The lower-case form of a letter whose form depends on nothing else. -/
def lower (c : CodePoint) : CodePoint :=
  match lowerRuns.find? fun (first, last, step, _) =>
    first ≤ c.val && c.val ≤ last && (c.val - first) % step == 0 with
  | some (first, _, _, target) => ofNatD (target + (c.val - first)) c
  | none => c

/-- Whether a letter has a case and is not passed over. -/
def isCased (c : CodePoint) : Bool := inRanges casedRanges c.val

/-- Whether a code point is passed over when the case of a neighbourhood is sought. -/
def isCaseIgnorable (c : CodePoint) : Bool := inRanges ignorableRanges c.val

end CodePoint

namespace Text

/-- Whether the first code point that is not passed over has a case. -/
def startsCased (t : Text) : Bool :=
  ((t.dropWhile CodePoint.isCaseIgnorable).head?.map CodePoint.isCased).getD false

/-- The lower-case form of one code point, given what stands before it (nearest first) and after
it. -/
def lowerAt (before : Text) (c : CodePoint) (after : Text) : Text :=
  if c = 0x130 then [0x69, 0x307]
  else if c = 0x3A3 then
    if startsCased before && !startsCased after then [0x3C2] else [0x3C3]
  else [c.lower]

/-- The lower-case form of a text that follows `before` (nearest first). -/
def lowerAfter (before : Text) : Text → Text
  | [] => []
  | c :: rest => lowerAt before c rest ++ lowerAfter (c :: before) rest

def lower (t : Text) : Text := lowerAfter [] t

end Text
end SchemaAtlas
