import SchemaAtlas.Proofs.Expr.Production
import SchemaAtlas.Proofs.Number.Digits
import SchemaAtlas.Proofs.Text.Utf8

/-!
# Strings as they are spelled

A string may be spelled in many ways: a character stands literally, or behind a backslash, or by its
number in hexadecimal digits, and lines may be continued between any two of them. A node whose parts
spell a string in one of these ways is read as that string, as an expression and as the key of an
entry.
-/

namespace SchemaAtlas

open Numeral (Writes)

namespace Text

/-- An opening and a closing mark are trimmed from a text. -/
theorem trim_enclosed {p : CodePoint → Bool} {t : Text} {first last : CodePoint}
    (hfirst : p first = true) (hlast : p last = true) (ht : t.Within fun c => p c = false)
    (hne : t ≠ []) : trim p (first :: t ++ [last]) = t := by
  have hstart : (t ++ [last]).dropWhile p = t ++ [last] := by
    refine dropWhile_eq_self fun c hc => ht c ?_
    rw [List.head?_append_of_ne_nil _ hne] at hc
    exact List.mem_of_mem_head? hc
  rw [trim, List.cons_append, List.dropWhile_cons_of_pos hfirst, hstart, dropEndWhile_concat hlast,
    dropEndWhile_eq_self fun c hc => ht c (List.mem_of_getLast? hc)]

end Text

namespace Escape

def backslash : CodePoint := 0x5C

def controls : List (CodePoint × CodePoint) :=
  [(0x6E, 0x0A), (0x74, 0x09), (0x72, 0x0D), (0x62, 0x08), (0x66, 0x0C), (0x76, 0x0B), (0x30, 0x00)]

/-- Whether a code point behind a backslash may not stand for itself: the letters of other escapes,
the octal digits and the line terminators. -/
def isReserved (c : CodePoint) : Bool :=
  [0x78, 0x75, 0x6E, 0x74, 0x72, 0x62, 0x66, 0x76, 0x0A, 0x0D, 0x2028, 0x2029].contains c ||
    (0x30 ≤ c.val && c.val ≤ 0x37)

/-- The escape sequences that spell a character. -/
inductive Spells : CodePoint → Text → Prop where
  | control {letter c : CodePoint} : (letter, c) ∈ controls → Spells c [backslash, letter]
  | byte {c : CodePoint} {digits : Text} : Writes 16 c.val digits → digits.length = 2 →
      Spells c (backslash :: 0x78 :: digits)
  | unit {c : CodePoint} {digits : Text} : Writes 16 c.val digits → digits.length = 4 →
      Spells c (backslash :: 0x75 :: digits)
  | point {c : CodePoint} {digits : Text} : Writes 16 c.val digits →
      Spells c (backslash :: 0x75 :: 0x7B :: digits ++ [0x7D])
  | itself {c : CodePoint} : isReserved c = false → Spells c [backslash, c]

/-- A body with the hexadecimal digits of a character, with or without braces around them, is read
as that character. -/
theorem numeric_of_writes {mark c : CodePoint} {body digits : Text}
    (hbody : Text.trim isBrace body = digits) (h : Writes 16 c.val digits) :
    numeric (mark :: body) = .ok [c] := by
  have hlast := c.isLt
  have hword : ¬ ((c.val : Int) < -wordBound ∨ wordBound ≤ (c.val : Int)) := by
    have hbound : wordBound = 0x80000000 := rfl
    omega
  have hsign : ¬ (c.val : Int) < 0 := by omega
  rw [numeric, List.drop_succ_cons, List.drop_zero, hbody, Numeral.hexadecimal?_of_writes h]
  simp only [if_neg hword, if_neg hsign, Int.toNat_natCast]
  exact dif_pos c.isLt

/-- The letter `u` or `x` with something behind it makes a numeric escape. -/
theorem decode_eq_numeric {mark : CodePoint} {body : Text} (hmark : mark = 0x75 ∨ mark = 0x78)
    (hbody : body ≠ []) : decode (backslash :: mark :: body) = numeric (mark :: body) := by
  obtain ⟨first, rest, rfl⟩ := List.exists_cons_of_ne_nil hbody
  simp only [decode, List.drop_succ_cons, List.drop_zero, if_pos hmark]

theorem not_brace_of_writes {n : Nat} {digits : Text} (h : Writes 16 n digits) :
    digits.Within fun c => isBrace c = false := by
  intro c hc
  have hopen : c ≠ 0x7B := (h.words c hc).ne (by decide)
  have hclose : c ≠ 0x7D := (h.words c hc).ne (by decide)
  simp [isBrace, hopen, hclose]

/-- Every spelling of a character is decoded to it. -/
theorem decode_of_spells {c : CodePoint} {sequence : Text} (h : Spells c sequence) :
    decode sequence = .ok [c] := by
  cases h with
  | control hmem =>
    simp only [controls, List.mem_cons, Prod.mk.injEq, List.not_mem_nil, or_false] at hmem
    rcases hmem with ⟨rfl, rfl⟩ | ⟨rfl, rfl⟩ | ⟨rfl, rfl⟩ | ⟨rfl, rfl⟩ | ⟨rfl, rfl⟩ | ⟨rfl, rfl⟩ |
      ⟨rfl, rfl⟩ <;> rfl
  | byte hdigits _ =>
    rw [decode_eq_numeric (.inr rfl) hdigits.ne_nil]
    exact numeric_of_writes (Text.trim_eq_self (not_brace_of_writes hdigits)) hdigits
  | unit hdigits _ =>
    rw [decode_eq_numeric (.inl rfl) hdigits.ne_nil]
    exact numeric_of_writes (Text.trim_eq_self (not_brace_of_writes hdigits)) hdigits
  | point hdigits =>
    have htrim := Text.trim_enclosed (rfl : isBrace 0x7B = true) (rfl : isBrace 0x7D = true)
      (not_brace_of_writes hdigits) hdigits.ne_nil
    exact (decode_eq_numeric (.inl rfl) (List.cons_ne_nil _ _)).trans
      (numeric_of_writes htrim hdigits)
  | itself hnot =>
    simp only [isReserved, Bool.or_eq_false_iff, List.contains_eq_mem, decide_eq_false_iff_not,
      List.mem_cons, List.not_mem_nil, or_false, not_or, Bool.and_eq_false_iff] at hnot
    obtain ⟨⟨hx, hu, hn, ht, hr, hb, hf, hv, hlineFeed, hreturn, -⟩, hoctal⟩ := hnot
    have hzero : c ≠ 0x30 := by
      rintro rfl
      simp at hoctal
    have hcontrol : control? c = none := by
      simp only [control?, if_neg hn, if_neg ht, if_neg hr, if_neg hb, if_neg hf, if_neg hv,
        if_neg hzero]
    simp only [decode, List.drop_succ_cons, List.drop_zero, hcontrol, lineFeed, carriageReturn, hu,
      hx, hlineFeed, hreturn, or_self, if_false]

end Escape

namespace Expr

open Syntax (Tree Kind)

def isPlain (quote c : CodePoint) : Bool :=
  c != quote && c != Escape.backslash && c != lineFeed && c != carriageReturn

/-- The parts between the quotation marks of a literal that spell a string, each with the kind of
its node. Lines are continued behind a backslash. -/
inductive SpellsString (quote : CodePoint) : Text → List (Kind × Text) → Prop where
  | nil : SpellsString quote [] []
  | fragment {raw s : Text} {parts : List (Kind × Text)} : raw ≠ [] →
      raw.all (isPlain quote) = true →
      SpellsString quote s parts → SpellsString quote (raw ++ s) ((.stringFragment, raw) :: parts)
  | escape {c : CodePoint} {s sequence : Text} {parts : List (Kind × Text)} :
      Escape.Spells c sequence → SpellsString quote s parts →
      SpellsString quote (c :: s) ((.escapeSequence, sequence) :: parts)
  | continuation {s lineBreak : Text} {parts : List (Kind × Text)} :
      lineBreak ∈ [[lineFeed], [carriageReturn, lineFeed]] → SpellsString quote s parts →
      SpellsString quote s ((.escapeSequence, Escape.backslash :: lineBreak) :: parts)

/-- A node covers a string literal, and its named children cover the parts of it. -/
structure IsLiteral (source : Bytes) (quote : CodePoint) (parts : List (Kind × Text)) (t : Tree) :
    Prop where
  kind : t.kind = .string
  covers : t.Covers source (quote :: parts.flatMap (·.2) ++ [quote])
  parts : List.Forall₂ (fun child part => child.kind = part.1 ∧ child.Covers source part.2)
    t.namedChildren parts

section Reading

variable {source : Bytes} {quote : CodePoint} {s : Text} {parts : List (Kind × Text)} {t : Tree}

theorem stringPart_fragment {raw : Text} (hkind : t.kind = .stringFragment)
    (ht : t.Covers source raw) : stringPart source t = .ok raw := by
  rw [stringPart, hkind, ht.text_eq]

theorem stringPart_escape {sequence value : Text} (hkind : t.kind = .escapeSequence)
    (ht : t.Covers source sequence) (hvalue : Escape.decode sequence = .ok value) :
    stringPart source t = .ok value := by
  simp only [stringPart, hkind, ht.text_eq, hvalue]

/-- Parts that spell a string are read, one by one, as pieces of that string. -/
theorem mapM_stringPart_of_spells (hs : SpellsString quote s parts) {children : List Tree}
    (hchildren : List.Forall₂ (fun child part => child.kind = part.1 ∧ child.Covers source part.2)
      children parts) :
    ∃ values, children.mapM (stringPart source) = .ok values ∧ values.flatten = s := by
  induction hs generalizing children with
  | nil =>
    cases hchildren
    exact ⟨[], rfl, rfl⟩
  | @fragment raw s parts _ _ _ ih =>
    cases hchildren with
    | cons hchild hchildren =>
      obtain ⟨values, hread, rfl⟩ := ih hchildren
      refine ⟨raw :: values, ?_, rfl⟩
      rw [List.mapM_cons, stringPart_fragment hchild.1 hchild.2, hread]
      rfl
  | @escape c s sequence parts hsequence _ ih =>
    cases hchildren with
    | cons hchild hchildren =>
      obtain ⟨values, hread, rfl⟩ := ih hchildren
      have hvalue := Escape.decode_of_spells hsequence
      refine ⟨[c] :: values, ?_, rfl⟩
      rw [List.mapM_cons, stringPart_escape hchild.1 hchild.2 hvalue, hread]
      rfl
  | @continuation s lineBreak parts hbreak _ ih =>
    cases hchildren with
    | cons hchild hchildren =>
      obtain ⟨values, hread, rfl⟩ := ih hchildren
      have hvalue : Escape.decode (Escape.backslash :: lineBreak) = .ok [] := by
        simp only [List.mem_cons, List.not_mem_nil, or_false] at hbreak
        rcases hbreak with rfl | rfl <;> rfl
      refine ⟨[] :: values, ?_, rfl⟩
      rw [List.mapM_cons, stringPart_escape hchild.1 hchild.2 hvalue, hread]
      rfl

/-- The value of a literal is the string that it spells. A literal without parts is read from the
text between its quotation marks instead. -/
theorem stringValue_of_spells (hs : SpellsString quote s parts)
    (ht : IsLiteral source quote parts t) : stringValue source t = .ok s := by
  obtain ⟨values, hread, rfl⟩ := mapM_stringPart_of_spells hs ht.parts
  rw [stringValue, hread]
  split
  next hempty =>
    have hnil : t.namedChildren = [] := List.isEmpty_iff.mp hempty
    have hparts := ht.parts
    rw [hnil] at hread hparts
    cases hparts
    cases hread
    rw [ht.covers.text_eq]
    rfl
  next => rfl

/-- A string literal, whatever way its characters are spelled, is read as the string it spells, and
so is the key of an entry. -/
theorem ofTree_of_spellsString (hs : SpellsString quote s parts)
    (ht : IsLiteral source quote parts t) :
    (∀ stack : Stack, stack.Holds t.kind →
      ofTree source stack t = .ok (.string (extentOf source t) s)) ∧
    ∀ (read : Tree → Except Obstacle Expr) (before : List Tree) (pair value : Tree) (e : Expr),
      pair.kind = .pair → pair.child? .key = some t → pair.child? .value = some value →
      read value = .ok e → entryOf source read before pair =
        .ok (some ⟨extentOf source pair, s, e, Syntax.leadingComments source before⟩) := by
  have hvalue := stringValue_of_spells hs ht
  refine ⟨fun stack hholds => ?_, fun read before pair value e hpair hkey hval hread => ?_⟩
  · rw [ofTree_of_holds hholds, ofNode, ht.kind]
    simp only [hvalue]
    rfl
  · simp only [entryOf, hpair, hkey, hval, keyOf, ht.kind, hvalue, hread]
    rfl

end Reading

namespace Greeting

/-- An entry whose key spells each character in another way. -/
def source : Bytes :=
  Utf8.encodePoints "'aé\\n\\x41\\u0042\\u\x7b01F600\x7d\\q\\\nz':x"

def value : Text := "aé\nAB😀qz"

def parts : List (Kind × Text) :=
  [(.stringFragment, "aé"), (.escapeSequence, "\\n"), (.escapeSequence, "\\x41"),
    (.escapeSequence, "\\u0042"), (.escapeSequence, "\\u\x7b01F600\x7d"),
    (.escapeSequence, "\\q"), (.escapeSequence, "\\\n"), (.stringFragment, "z")]

def leaf (kind : Kind) (named : Bool) (start stop : Nat) : Tree :=
  .node kind start stop named none []

def key : Tree :=
  .node .string 0 32 true (some .key)
    [leaf (.other "'") false 0 1, leaf .stringFragment true 1 4, leaf .escapeSequence true 4 6,
      leaf .escapeSequence true 6 10, leaf .escapeSequence true 10 16,
      leaf .escapeSequence true 16 26, leaf .escapeSequence true 26 28,
      leaf .escapeSequence true 28 30, leaf .stringFragment true 30 31,
      leaf (.other "'") false 31 32]

def name : Tree := .node .identifier 33 34 true (some .value) []

def pair : Tree := .node .pair 0 34 true none [key, leaf (.other ":") false 32 33, name]

theorem spellsString_value : SpellsString 0x27 value parts := by
  have hdigits : Writes 16 0x41 "41" ∧ Writes 16 0x42 "0042" ∧ Writes 16 0x1F600 "01F600" :=
    ⟨⟨0, by simp [Numeral.digitsOf]; decide⟩, ⟨2, by simp [Numeral.digitsOf]; decide⟩,
      ⟨1, by simp [Numeral.digitsOf]; decide⟩⟩
  have hbyte : Escape.Spells 0x41 "\\x41" := .byte hdigits.1 rfl
  have hunit : Escape.Spells 0x42 "\\u0042" := .unit hdigits.2.1 rfl
  have hpoint : Escape.Spells 0x1F600 "\\u\x7b01F600\x7d" :=
    @Escape.Spells.point 0x1F600 "01F600" hdigits.2.2
  have hlast : SpellsString 0x27 "z" [(.stringFragment, "z")] :=
    .fragment (by decide : ("z" : Text) ≠ []) (by decide) .nil
  exact .fragment (by decide : ("aé" : Text) ≠ []) (by decide) (.escape (.control (by decide))
    (.escape hbyte (.escape hunit (.escape hpoint (.escape (.itself (by decide))
      (.continuation (by decide) hlast))))))

/-- The key of the sample is such a literal. -/
theorem isLiteral_key : IsLiteral source 0x27 parts key := by
  have hcovers {t : Tree} {text : Text} (hbytes : source.extract t.start t.stop =
      Utf8.encodePoints text) (hscalars : (text.all fun c => !c.isSurrogate) = true) :
      t.Covers source text :=
    ⟨hbytes, fun c hc => by simpa using List.all_eq_true.mp hscalars c hc⟩
  refine ⟨rfl, hcovers (by decide) (by decide), ?_⟩
  iterate 8 refine .cons ⟨rfl, hcovers (by decide) (by decide)⟩ ?_
  exact .nil

end Greeting

open Greeting in
theorem ofTree_greeting :
    ofTree source (.levels 1) key = .ok (.string (extentOf source key) value) ∧
    entryOf source (ofTree source (.levels 1)) [] pair =
      .ok (some ⟨extentOf source pair, value, .identifier ⟨"x", 2⟩ "x", []⟩) := by
  obtain ⟨hexpression, hentry⟩ := ofTree_of_spellsString spellsString_value isLiteral_key
  have hholds (kind : Kind) : (Stack.levels 1).Holds kind := Nat.zero_lt_one
  have hname : ofTree source (.levels 1) name = .ok (.identifier ⟨"x", 2⟩ "x") := by
    rw [ofTree_of_holds (hholds _)]
    rfl
  exact ⟨hexpression _ (hholds _), hentry _ [] pair name _ rfl rfl rfl hname⟩

end Expr
end SchemaAtlas
