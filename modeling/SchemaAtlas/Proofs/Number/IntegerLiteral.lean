import SchemaAtlas.Proofs.Number.Digits

/-!
# Integer literals

A natural number is spelled as a literal by its decimal digits, or in another base behind a mark,
with underscores between digits and with the mark of a big integer behind them. Every such literal
denotes the number exactly, and a number has one canonical spelling: its plain decimal digits.
-/

namespace SchemaAtlas

open CodePoint (IsDigit IsWord)
open Numeral (underscore digitsOf Writes)

namespace Numeral

variable {base n : Nat}

theorem digitsOf_of_lt (h : n < base) : digitsOf base n = [n] := by
  rw [digitsOf]
  split
  next hn => rw [hn]
  next hn => rw [Nat.digits_of_lt base n hn h, List.reverse_singleton]

/-- The last digit is what a division by the base leaves. -/
theorem digitsOf_of_le (hbase : 1 < base) (h : base ≤ n) :
    digitsOf base n = digitsOf base (n / base) ++ [n % base] := by
  have hdiv : n / base ≠ 0 := by
    have := Nat.div_pos h (by omega)
    omega
  rw [digitsOf, if_neg (by omega), digitsOf, if_neg hdiv, Nat.digits_def' hbase (by omega),
    List.reverse_cons]

/-- A number is printed as its decimal digits. -/
theorem forall₂_ofNat (n : Nat) : List.Forall₂ IsDigit (Text.ofNat n) (digitsOf 10 n) := by
  have hdigit : ∀ d < 10, IsDigit (CodePoint.ofChar (Nat.digitChar d)) d := by decide
  rw [Text.ofNat, Text.ofString, Nat.toString_eq_repr, Nat.toList_repr]
  induction n using Nat.strongRecOn with
  | ind n ih =>
    rw [Nat.toDigits_eq_if (by decide)]
    split
    next hn =>
      rw [digitsOf_of_lt hn]
      exact .cons (hdigit n hn) .nil
    next hn =>
      rw [digitsOf_of_le (by decide) (by omega), List.map_append]
      exact List.rel_append (ih (n / 10) (by omega)) (.cons (hdigit _ (by omega)) .nil)

theorem length_digitsOf_le {k : Nat} (hbase : 1 < base) (hk : 0 < k) (h : n < base ^ k) :
    (digitsOf base n).length ≤ k := by
  rw [digitsOf]
  split
  · exact hk
  · rw [List.length_reverse]
    exact (Nat.digits_length_le_iff hbase n).mpr h

/-- No zero stands in front of other digits. -/
theorem head?_digitsOf (base n : Nat) :
    ¬ ((digitsOf base n).head? = some 0 ∧ (digitsOf base n).any (· != 0) = true) := by
  rw [digitsOf]
  split
  next hn => simp
  next hn =>
    have hne : Nat.digits base n ≠ [] := Nat.digits_ne_nil_iff_ne_zero.mpr hn
    rintro ⟨hhead, -⟩
    rw [List.head?_reverse, List.getLast?_eq_getLast_of_ne_nil hne, Option.some.injEq] at hhead
    exact Nat.getLast_digit_ne_zero base hn hhead

/-- Digits with any number of underscores between two of them. -/
inductive Separated : Text → Text → Prop where
  | last (c : CodePoint) : Separated [c] [c]
  | next (c : CodePoint) (underscores : Nat) {digits body : Text} : Separated digits body →
      Separated (c :: digits) (c :: (List.replicate underscores underscore ++ body))

theorem Separated.ne_nil {digits body : Text} (h : Separated digits body) : digits ≠ [] := by
  cases h <;> exact List.cons_ne_nil _ _

/-- Without its underscores the body of a literal is its digits. -/
theorem Separated.filter_eq {digits body : Text} (h : Separated digits body)
    (hwords : digits.Within IsWord) : body.filter (· ≠ underscore) = digits := by
  have hkeep {c : CodePoint} {rest : Text} (hc : c.IsWord) :
      (c :: rest).filter (· ≠ underscore) = c :: rest.filter (· ≠ underscore) :=
    List.filter_cons_of_pos (decide_eq_true (hc.ne (by decide)))
  induction h with
  | last c => exact hkeep (hwords c List.mem_cons_self)
  | next c underscores _ ih =>
    obtain ⟨hc, hdigits⟩ := Text.within_cons.mp hwords
    have hdropped : (List.replicate underscores underscore).filter (· ≠ underscore) = [] :=
      List.filter_replicate_of_neg (by decide)
    rw [hkeep hc, List.filter_append, hdropped, List.nil_append, ih hdigits]

def baseMarks : List (CodePoint × Nat) :=
  [(0x78, 16), (0x58, 16), (0x6F, 8), (0x4F, 8), (0x62, 2), (0x42, 2)]

theorem of_mem_baseMarks {mark : CodePoint} (h : (mark, base) ∈ baseMarks) :
    mark.IsWord ∧ baseOfMark? mark = some base ∧ 1 < base ∧ base ≤ 16 := by
  simp only [baseMarks, List.mem_cons, Prod.mk.injEq, List.not_mem_nil, or_false] at h
  rcases h with ⟨rfl, rfl⟩ | ⟨rfl, rfl⟩ | ⟨rfl, rfl⟩ | ⟨rfl, rfl⟩ | ⟨rfl, rfl⟩ | ⟨rfl, rfl⟩
  all_goals decide

/-- The digits behind a base mark are read in that base. -/
theorem integer?_marked {mark : CodePoint} {digits : Text} (hmark : (mark, base) ∈ baseMarks)
    (h : Writes base n digits) : integer? (0x30 :: mark :: digits) = some (n : Int) := by
  obtain ⟨hword, hbaseOfMark, hbase, -⟩ := of_mem_baseMarks hmark
  have hwords : Text.Within IsWord (0x30 :: mark :: digits) :=
    Text.within_cons.mpr ⟨by decide, Text.within_cons.mpr ⟨hword, h.words⟩⟩
  have hdigits : markedDigits? base digits = some n := by
    rw [markedDigits?, dropUnderscores_of_words h.words (.inl rfl)]
    simp only [Option.bind_eq_bind, Option.bind_some, List.isEmpty_iff, if_neg h.ne_nil]
    exact h.digits? hbase
  rw [integer?, Text.strip_of_words hwords, sign_of_words hwords]
  simp only [baseMark?, hbaseOfMark, if_true, Option.map_some, hdigits]
  rfl

/-- Decimal digits within the limit are read as they stand. -/
theorem integer?_decimal {digits : Text} (h : List.Forall₂ IsDigit digits (digitsOf 10 n))
    (hn : n < 10 ^ digitLimit) : integer? digits = some (n : Int) := by
  have hwords := words_of_forall₂ h
  have hne : digits ≠ [] := by
    rintro rfl
    exact digitsOf_ne_nil 10 n (List.forall₂_nil_left_iff.mp h)
  have hmark : baseMark? digits = none := by
    by_contra hsome
    obtain ⟨⟨base, rest⟩, heq⟩ := Option.ne_none_iff_exists'.mp hsome
    obtain ⟨d, hd, hle, -⟩ := exists_digit_of_baseMark? h heq
    exact absurd (digitsOf_lt (by decide) d hd) (by omega)
  have hdigits := digits?_of_forall₂ h (digitsOf_lt (by decide))
  have hlength : ¬ digitLimit < (digitsOf 10 n).length :=
    Nat.not_lt.mpr (length_digitsOf_le (by decide) (by decide) hn)
  have hvalue : ofDigits 10 (digitsOf 10 n) = n := ofDigits_digitsOf 10 n 0
  rw [integer?, Text.strip_of_words hwords, sign_of_words hwords]
  simp only [hmark, dropUnderscores_of_words hwords (.inr hne), hdigits, Option.bind_eq_bind,
    Option.bind_some, if_neg hlength, if_neg (head?_digitsOf 10 n), hvalue]
  rfl

end Numeral

namespace Number

open Numeral (baseMarks Separated digitLimit)

variable {n : Nat}

/-- What may stand behind the digits of a literal: nothing, or the mark of a big integer. -/
def suffixes : List Text := [[], [0x6E]]

/-- The literals that spell a natural number: decimal without zeros in front, or in another base
behind its mark and any number of zeros. -/
inductive SpellsInteger (n : Nat) : Text → Prop where
  | decimal {digits body suffix : Text} : List.Forall₂ IsDigit digits (digitsOf 10 n) →
      Separated digits body → suffix ∈ suffixes → SpellsInteger n (body ++ suffix)
  | marked {mark : CodePoint} {base : Nat} {digits body suffix : Text} :
      (mark, base) ∈ baseMarks → Writes base n digits → Separated digits body →
      suffix ∈ suffixes → SpellsInteger n (0x30 :: mark :: body ++ suffix)

/-- What is left of a literal without its underscores and its suffix. -/
theorem cleaned_eq {front digits body suffix : Text} {ds : List Nat}
    (hfront : front.Within IsWord) (hdigits : List.Forall₂ IsDigit digits ds)
    (hds : ∀ d ∈ ds, d < 16) (hbody : Separated digits body)
    (hsuffix : suffix ∈ suffixes) :
    Text.dropEndWhile (· = 0x6E) ((front ++ body ++ suffix).filter (· ≠ underscore)) =
      front ++ digits := by
  have hkept : front.filter (· ≠ underscore) = front :=
    List.filter_eq_self.mpr fun c hc => decide_eq_true ((hfront c hc).ne (by decide))
  have hlast : (front ++ digits).dropEndWhile (· = 0x6E) = front ++ digits := by
    refine Text.dropEndWhile_eq_self fun c hc => decide_eq_false ?_
    rw [List.getLast?_append_of_ne_nil _ hbody.ne_nil] at hc
    obtain ⟨d, hd, hdigit⟩ := exists_left_of_forall₂ hdigits.flip (List.mem_of_getLast? hc)
    have hlt := hds d hd
    have hc : c.IsDigit d := hdigit
    rw [IsDigit] at hc
    rintro rfl
    simp at hc
    omega
  rw [List.filter_append, List.filter_append, hkept,
    hbody.filter_eq (Numeral.words_of_forall₂ hdigits)]
  simp only [suffixes, List.mem_cons, List.not_mem_nil, or_false] at hsuffix
  rcases hsuffix with rfl | rfl
  · rw [List.filter_nil, List.append_nil, hlast]
  · rw [List.filter_cons_of_pos (by decide), List.filter_nil, Text.dropEndWhile_concat (by decide),
      hlast]

/-- Every literal of a number within the digit limit denotes exactly that number. -/
theorem ofLiteral?_of_spells {t : Text} (h : SpellsInteger n t) (hn : n < 10 ^ digitLimit) :
    ofLiteral? t = some (.integer n) := by
  have hread {cleaned : Text} (hcleaned : Text.dropEndWhile (· = 0x6E) (t.filter (· ≠ underscore)) =
      cleaned) (hinteger : Numeral.integer? cleaned = some (n : Int)) :
      ofLiteral? t = some (.integer n) := by
    simp only [ofLiteral?, hcleaned, hinteger]
  cases h with
  | @decimal digits body suffix hdigits hbody hsuffix =>
    have hds : ∀ d ∈ digitsOf 10 n, d < 16 := fun d hd =>
      Nat.lt_trans (Numeral.digitsOf_lt (by decide) d hd) (by decide)
    exact hread (cleaned_eq Text.within_nil hdigits hds hbody hsuffix)
      (Numeral.integer?_decimal hdigits hn)
  | @marked mark base digits body suffix hmark hdigits hbody hsuffix =>
    obtain ⟨hword, -, hbase, hle⟩ := Numeral.of_mem_baseMarks hmark
    obtain ⟨ds, hds, hlt, -⟩ := hdigits.exists_digits hbase
    have hfront : Text.Within IsWord [0x30, mark] :=
      Text.within_cons.mpr ⟨by decide, Text.within_singleton.mpr hword⟩
    exact hread (cleaned_eq hfront hds (fun d hd => Nat.lt_of_lt_of_le (hlt d hd) hle) hbody
      hsuffix) (Numeral.integer?_marked hmark hdigits)

/-- The canonical spelling of a number is its plain decimal digits. -/
theorem canonical?_integer (hn : n < 10 ^ digitLimit) :
    canonical? (.integer n) = some (Text.ofNat n) := by
  -- stated for every exponent, so that the power is not evaluated
  have hpow (k : Nat) : 10 ^ k = Nat.pow 10 k := rfl
  have hlimit : (n : Int).natAbs < Nat.pow 10 digitLimit := by
    rw [Int.natAbs_natCast, ← hpow]
    exact hn
  rw [canonical?, if_pos hlimit]
  rfl

end Number
end SchemaAtlas
