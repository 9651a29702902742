import Mathlib.Data.Nat.Digits.Lemmas
import SchemaAtlas.Proofs.Text.CodePoints
import SchemaAtlas.Proofs.Text.Trimmed

/-!
# Numbers written in a base

A number is written most significant digit first, letters of either case counting on from ten, and
any number of zeros may stand in front. Such a text holds nothing that the readers of numerals drop,
so they read it digit by digit and come to the number.
-/

namespace SchemaAtlas

namespace CodePoint

/-- A code point writes a digit. From ten on it is a letter of either case. -/
def IsDigit (c : CodePoint) (d : Nat) : Prop :=
  d < 10 ∧ c.val = 0x30 + d ∨
    10 ≤ d ∧ d < 36 ∧ (c.val = 0x61 + (d - 10) ∨ c.val = 0x41 + (d - 10))

/-- An ASCII letter or digit. -/
def IsWord (c : CodePoint) : Prop :=
  0x30 ≤ c.val ∧ c.val ≤ 0x39 ∨ 0x41 ≤ c.val ∧ c.val ≤ 0x5A ∨ 0x61 ≤ c.val ∧ c.val ≤ 0x7A

instance (c : CodePoint) (d : Nat) : Decidable (c.IsDigit d) :=
  inferInstanceAs (Decidable (d < 10 ∧ c.val = 0x30 + d ∨
    10 ≤ d ∧ d < 36 ∧ (c.val = 0x61 + (d - 10) ∨ c.val = 0x41 + (d - 10))))

instance (c : CodePoint) : Decidable c.IsWord :=
  inferInstanceAs (Decidable (0x30 ≤ c.val ∧ c.val ≤ 0x39 ∨ 0x41 ≤ c.val ∧ c.val ≤ 0x5A ∨
    0x61 ≤ c.val ∧ c.val ≤ 0x7A))

variable {c : CodePoint} {d : Nat}

theorem IsDigit.isWord (h : c.IsDigit d) : c.IsWord := by
  rw [IsDigit] at h
  rw [IsWord]
  omega

/-- A digit has its value in either case. -/
theorem IsDigit.digitValue? (h : c.IsDigit d) : c.digitValue? = some d := by
  unfold CodePoint.digitValue?
  rcases h with ⟨hd, hc⟩ | ⟨hlow, hhigh, hc | hc⟩
  · rw [if_neg (by omega), if_neg (by omega), decimalValue?, if_pos (by omega), hc,
      Nat.add_sub_cancel_left]
  · rw [if_pos (by omega), hc]
    exact congrArg some (by omega)
  · rw [if_neg (by omega), if_pos (by omega), hc]
    exact congrArg some (by omega)

theorem IsWord.not_blank (h : c.IsWord) : c.isBlank = false := by
  rw [IsWord] at h
  simp only [isBlank, Bool.or_eq_false_iff, Bool.and_eq_false_iff, decide_eq_false_iff_not,
    beq_eq_false_iff_ne]
  omega

theorem IsWord.ne (h : c.IsWord) {other : CodePoint} (hother : ¬ other.IsWord) : c ≠ other :=
  fun heq => hother (heq ▸ h)

end CodePoint

open CodePoint (IsDigit IsWord)

namespace Text

variable {t : Text}

theorem strip_of_words (h : t.Within IsWord) : t.strip = t :=
  trim_eq_self fun c hc => (h c hc).not_blank

end Text

namespace Numeral

variable {base n : Nat} {t : Text}

theorem sign_of_words (h : t.Within IsWord) : sign t = (false, t) := by
  cases t with
  | nil => rfl
  | cons c t =>
    have hc := h c List.mem_cons_self
    rw [sign, if_neg (hc.ne (by decide)), if_neg (hc.ne (by decide))]

/-- A text of letters and digits holds no underscores to drop. -/
theorem dropUnderscores_of_words (h : t.Within IsWord) {afterDigit : Bool}
    (hdigit : afterDigit = true ∨ t ≠ []) : dropUnderscores afterDigit t = some t := by
  induction t generalizing afterDigit with
  | nil =>
    rw [hdigit.resolve_right fun hne => hne rfl]
    rfl
  | cons c t ih =>
    obtain ⟨hc, ht⟩ := Text.within_cons.mp h
    rw [dropUnderscores, if_neg (hc.ne (by decide)), ih ht (.inl rfl)]
    rfl

/-- The digits of a number in a base, most significant first. Zero has one. -/
def digitsOf (base n : Nat) : List Nat := if n = 0 then [0] else (Nat.digits base n).reverse

def Writes (base n : Nat) (t : Text) : Prop :=
  ∃ zeros, List.Forall₂ IsDigit t (List.replicate zeros 0 ++ digitsOf base n)

theorem digitsOf_ne_nil (base n : Nat) : digitsOf base n ≠ [] := by
  rw [digitsOf]
  split
  next => exact List.cons_ne_nil 0 []
  next hn =>
    rw [ne_eq, List.reverse_eq_nil_iff, Nat.digits_eq_nil_iff_eq_zero]
    exact hn

theorem digitsOf_lt (hbase : 1 < base) : ∀ d ∈ digitsOf base n, d < base := by
  intro d hd
  rw [digitsOf] at hd
  split at hd
  · rw [List.mem_singleton.mp hd]
    omega
  · exact Nat.digits_lt_base hbase (List.mem_reverse.mp hd)

/-- The leading digit counts most, so it is the last one in the order of significance. -/
theorem ofDigits_eq (base : Nat) (ds : List Nat) :
    ofDigits base ds = Nat.ofDigits base ds.reverse := by
  rw [ofDigits]
  induction ds using List.reverseRecOn with
  | nil => rfl
  | append_singleton ds d ih =>
    rw [List.foldl_append, List.foldl_cons, List.foldl_nil, ih, List.reverse_append,
      List.reverse_singleton, List.singleton_append, Nat.ofDigits_cons]
    ring

theorem ofDigits_digitsOf (base n zeros : Nat) :
    ofDigits base (List.replicate zeros 0 ++ digitsOf base n) = n := by
  rw [ofDigits_eq, List.reverse_append, List.reverse_replicate, Nat.ofDigits_append_replicate_zero,
    digitsOf]
  split
  next hn => rw [hn]; rfl
  next => rw [List.reverse_reverse, Nat.ofDigits_digits]

/-- Code points that write digits of the base are read as these. -/
theorem digits?_of_forall₂ {ds : List Nat} (h : List.Forall₂ IsDigit t ds)
    (hds : ∀ d ∈ ds, d < base) : digits? base t = some ds := by
  rw [digits?]
  induction h with
  | nil => rfl
  | @cons c d t ds hc _ ih =>
    have hd := hds d List.mem_cons_self
    rw [List.mapM_cons, hc.digitValue?, ih fun d hd => hds d (List.mem_cons_of_mem _ hd)]
    simp [Option.filter, hd]

theorem words_of_forall₂ {ds : List Nat} (h : List.Forall₂ IsDigit t ds) : t.Within IsWord := by
  intro c hc
  obtain ⟨d, -, hd⟩ := exists_left_of_forall₂ h.flip hc
  exact IsDigit.isWord hd

namespace Writes

theorem words (h : Writes base n t) : t.Within IsWord := words_of_forall₂ h.choose_spec

theorem ne_nil (h : Writes base n t) : t ≠ [] := by
  rintro rfl
  obtain ⟨zeros, hdigits⟩ := h
  exact digitsOf_ne_nil base n
    (List.append_eq_nil_iff.mp (List.forall₂_nil_left_iff.mp hdigits)).2

/-- The digits of the text are digits of the base and come to the number. -/
theorem exists_digits (h : Writes base n t) (hbase : 1 < base) :
    ∃ ds, List.Forall₂ IsDigit t ds ∧ (∀ d ∈ ds, d < base) ∧ ofDigits base ds = n := by
  obtain ⟨zeros, hdigits⟩ := h
  refine ⟨_, hdigits, fun d hd => ?_, ofDigits_digitsOf base n zeros⟩
  rcases List.mem_append.mp hd with hd | hd
  · rw [(List.mem_replicate.mp hd).2]
    omega
  · exact digitsOf_lt hbase d hd

/-- What was written is read back, whatever zeros stand in front. -/
theorem digits? (h : Writes base n t) (hbase : 1 < base) :
    ofDigits base <$> Numeral.digits? base t = some n := by
  obtain ⟨ds, hdigits, hds, hvalue⟩ := h.exists_digits hbase
  rw [digits?_of_forall₂ hdigits hds]
  exact congrArg some hvalue

end Writes

/-- The letter that marks a base is no digit of that base, nor a decimal digit. -/
theorem le_of_baseOfMark? {c : CodePoint} {d : Nat} (h : c.IsDigit d)
    (hmark : baseOfMark? c = some base) : 10 ≤ d ∧ base ≤ d := by
  rw [IsDigit] at h
  rw [baseOfMark?] at hmark
  split_ifs at hmark with hc hc hc
  all_goals
    cases hmark
    rcases hc with rfl | rfl <;> simp at h <;> omega

/-- Digits that start with a base mark hold one that is too great for the base. -/
theorem exists_digit_of_baseMark? {ds : List Nat} {rest : Text} (h : List.Forall₂ IsDigit t ds)
    (hmark : baseMark? t = some (base, rest)) : ∃ d ∈ ds, 10 ≤ d ∧ base ≤ d := by
  unfold baseMark? at hmark
  split at hmark
  next first mark others =>
    obtain ⟨d, hd, hdigit⟩ := exists_left_of_forall₂ h.flip (y := mark) (by simp)
    split at hmark
    · obtain ⟨base', hbase, hpair⟩ := Option.map_eq_some_iff.mp hmark
      exact ⟨d, hd, le_of_baseOfMark? hdigit ((Prod.mk.inj hpair).1 ▸ hbase)⟩
    · cases hmark
  next => cases hmark

/-- A number that was written in hexadecimal digits is read back. -/
theorem hexadecimal?_of_writes {n : Nat} {t : Text} (h : Writes 16 n t) :
    hexadecimal? t = some (n : Int) := by
  rw [hexadecimal?, Text.strip_of_words h.words, sign_of_words h.words]
  simp only
  split
  next rest heq =>
    obtain ⟨ds, hdigits, hds, -⟩ := h.exists_digits (by decide)
    obtain ⟨d, hd, -, hle⟩ := exists_digit_of_baseMark? hdigits heq
    exact absurd (hds d hd) (by omega)
  next =>
    simp only [dropUnderscores_of_words h.words (.inr h.ne_nil), Option.bind_eq_bind,
      Option.bind_some, h.digits? (by decide)]
    rfl

end Numeral
end SchemaAtlas
