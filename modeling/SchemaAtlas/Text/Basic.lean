/-!
# Texts

A text is a list of code points. Lone surrogates are allowed, because an escape in a string
literal may denote one; a text read from a document never holds any. Everything below compares
code points exactly: no normalisation, no locale.
-/

namespace SchemaAtlas

abbrev CodePoint := Fin 0x110000

/-- Code points have numerals. -/
instance (priority := high) instNeZero : @NeZero Nat Zero.ofOfNat0 0x110000 :=
  Nat.instNeZeroSucc

/-- A list of code points. -/
abbrev Text := List CodePoint

namespace CodePoint

theorem toNat_lt (c : Char) : c.toNat < 0x110000 := by
  have h := c.valid
  simp only [UInt32.isValidChar, Nat.isValidChar] at h
  change c.val.toNat < 0x110000
  omega

def ofChar (c : Char) : CodePoint := ⟨c.toNat, toNat_lt c⟩

@[simp] theorem ofChar_inj {a b : Char} : ofChar a = ofChar b ↔ a = b := by
  simp [ofChar, Char.toNat_inj]

def is (c : CodePoint) (character : Char) : Bool := c.val == character.toNat

/-- The code point with a given number, or `default` for a number beyond the last one. -/
def ofNatD (n : Nat) (default : CodePoint) : CodePoint :=
  if h : n < 0x110000 then ⟨n, h⟩ else default

/-- A code point reserved for one half of a UTF-16 pair. -/
def isSurrogate (c : CodePoint) : Bool := 0xD800 ≤ c.val && c.val < 0xE000

/-- The blank code points: white space, line and paragraph separators, and the four
information separators. -/
def isBlank (c : CodePoint) : Bool :=
  let n := c.val
  (0x09 ≤ n && n ≤ 0x0D) || (0x1C ≤ n && n ≤ 0x20) || n == 0x85 || n == 0xA0 || n == 0x1680
    || (0x2000 ≤ n && n ≤ 0x200A) || n == 0x2028 || n == 0x2029 || n == 0x202F || n == 0x205F
    || n == 0x3000

end CodePoint

def lineFeed : CodePoint := 0x0A

def carriageReturn : CodePoint := 0x0D

def space : CodePoint := 0x20

namespace Text

def ofString (s : String) : Text := s.toList.map CodePoint.ofChar

instance : Coe String Text := ⟨ofString⟩

@[simp] theorem ofString_inj {a b : String} : ofString a = ofString b ↔ a = b := by
  refine ⟨fun h => ?_, fun h => h ▸ rfl⟩
  have : a.toList = b.toList := List.map_inj_right (by simp) |>.1 h
  exact String.toList_inj.1 this

def ofNat (n : Nat) : Text := ofString (toString n)

def dropEndWhile (p : CodePoint → Bool) (t : Text) : Text := (t.reverse.dropWhile p).reverse

def trim (p : CodePoint → Bool) (t : Text) : Text := dropEndWhile p (t.dropWhile p)

def strip (t : Text) : Text := trim CodePoint.isBlank t

/-- Whether the text holds nothing but blanks. -/
def isBlank (t : Text) : Bool := t.all CodePoint.isBlank

def occursIn (part : Text) : Text → Bool
  | [] => part.isEmpty
  | c :: rest => part.isPrefixOf (c :: rest) || occursIn part rest

def endsWith (t tail : Text) : Bool := tail.isSuffixOf t

def dropEnd (t : Text) (n : Nat) : Text := t.take (t.length - n)

/-- The text without its first and its last code point. -/
def inner (t : Text) : Text := (t.drop 1).dropLast

/-- The pieces between the separators, in order; there is always at least one. -/
def splitOn (separator : CodePoint) : Text → List Text
  | [] => [[]]
  | c :: rest =>
    if c = separator then [] :: splitOn separator rest
    else match splitOn separator rest with
      | [] => [[c]]
      | piece :: pieces => (c :: piece) :: pieces

def lines (t : Text) : List Text := splitOn lineFeed t

/-- The texts one after the other, with `separator` between neighbours. -/
def join (separator : Text) : List Text → Text
  | [] => []
  | [t] => t
  | t :: rest => t ++ separator ++ join separator rest

/-- Erase the marks from left to right: at each place the first mark of the list that fits goes.
`pending` counts the code points of the current mark that are still to be dropped. -/
def eraseMarks (marks : List Text) (pending : Nat) : Text → Text
  | [] => []
  | c :: rest => match pending with
    | pending + 1 => eraseMarks marks pending rest
    | 0 => match marks.find? (·.isPrefixOf (c :: rest)) with
      | some mark => eraseMarks marks (mark.length - 1) rest
      | none => c :: eraseMarks marks 0 rest

def erase (marks : List Text) (t : Text) : Text := eraseMarks marks 0 t

def replace (f : CodePoint → Text) (t : Text) : Text := t.flatMap f

def le : Text → Text → Bool
  | [], _ => true
  | _ :: _, [] => false
  | a :: s, b :: t => a < b || (a = b && le s t)

end Text
end SchemaAtlas
