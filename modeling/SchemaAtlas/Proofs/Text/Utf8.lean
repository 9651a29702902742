import SchemaAtlas.Proofs.Text.CodePoints
import SchemaAtlas.Syntax.Tree

/-!
# Reading back what was written as UTF-8

The bytes of a text without surrogates are read as that text again: the first byte of each code
point announces how many belong to it, and none of them is faulty. So a node over the bytes of a
text has that text.
-/

namespace SchemaAtlas

namespace Utf8

theorem toNat_toUInt8 {n : Nat} (h : n < 0x100) : n.toUInt8.toNat = n :=
  (UInt8.toNat_ofNat' (n := n)).trans (Nat.mod_eq_of_lt h)

theorem isTail_of_toNat {b : UInt8} (hlow : 0x80 ≤ b.toNat) (hhigh : b.toNat < 0xC0) :
    isTail b = true := by
  simp [isTail, UInt8.le_iff_toNat_le, UInt8.lt_iff_toNat_lt, hlow, hhigh]

theorem maySecond_of_toNat {first second : UInt8} (hlow : 0x80 ≤ second.toNat)
    (hhigh : second.toNat < 0xC0) (he0 : first.toNat = 0xE0 → 0xA0 ≤ second.toNat)
    (hed : first.toNat = 0xED → second.toNat < 0xA0)
    (hf0 : first.toNat = 0xF0 → 0x90 ≤ second.toNat)
    (hf4 : first.toNat = 0xF4 → second.toNat < 0x90) : maySecond first second = true := by
  have hbyte (b : UInt8) : (first == b) = decide (first.toNat = b.toNat) := by
    rw [Bool.eq_iff_iff, beq_iff_eq, decide_eq_true_iff, UInt8.toNat_inj]
  simp [maySecond, isTail_of_toNat hlow hhigh, hbyte, UInt8.le_iff_toNat_le,
    UInt8.lt_iff_toNat_lt]
  omega

theorem point_of_val {n : Nat} {c : CodePoint} (h : n = c.val) : point n = c := by
  subst h
  exact dif_pos c.isLt

section Steps

variable {first b c d : UInt8} (rest : List UInt8)

theorem step_one (h : first.toNat < 0x80) : step first rest = .scalar (point first.toNat) 1 := by
  simp only [step, if_pos h]

/-- A first byte in this range announces more of them. -/
theorem lead_of_toNat {n : Nat} (hlow : 0xC2 ≤ n) (hhigh : n < 0xF5) :
    (decide (n < 0xC2) || decide (0xF5 ≤ n)) = false := by
  rw [Bool.or_eq_false_iff, decide_eq_false_iff_not, decide_eq_false_iff_not]
  omega

theorem step_two (hlow : 0xC2 ≤ first.toNat) (hhigh : first.toNat < 0xE0)
    (hb : isTail b = true) :
    step first (b :: rest) = .scalar (point (first.toNat % 0x20 * 0x40 + payload b)) 2 := by
  have hstart : ¬ first.toNat < 0x80 := by omega
  have hlead := lead_of_toNat hlow (by omega)
  simp only [step, if_neg hstart, hlead, Bool.false_eq_true, if_false, if_pos hhigh, if_pos hb]

theorem step_three (hlow : 0xE0 ≤ first.toNat) (hhigh : first.toNat < 0xF0)
    (hb : maySecond first b = true) (hc : isTail c = true) :
    step first (b :: c :: rest) =
      .scalar (point (first.toNat % 0x10 * 0x1000 + payload b * 0x40 + payload c)) 3 := by
  have hstart : ¬ first.toNat < 0x80 := by omega
  have hlead := lead_of_toNat (by omega : 0xC2 ≤ first.toNat) (by omega)
  have htwo : ¬ first.toNat < 0xE0 := by omega
  simp only [step, if_neg hstart, hlead, Bool.false_eq_true, if_false, if_neg htwo, if_pos hhigh,
    hb, Bool.not_true, if_pos hc]

theorem step_four (hlow : 0xF0 ≤ first.toNat) (hhigh : first.toNat < 0xF5)
    (hb : maySecond first b = true) (hc : isTail c = true) (hd : isTail d = true) :
    step first (b :: c :: d :: rest) =
      .scalar (point (first.toNat % 8 * 0x40000 + payload b * 0x1000 + payload c * 0x40
        + payload d)) 4 := by
  have hstart : ¬ first.toNat < 0x80 := by omega
  have hlead := lead_of_toNat (by omega : 0xC2 ≤ first.toNat) hhigh
  have htwo : ¬ first.toNat < 0xE0 := by omega
  have hthree : ¬ first.toNat < 0xF0 := by omega
  simp only [step, if_neg hstart, hlead, Bool.false_eq_true, if_false, if_neg htwo, if_neg hthree,
    hb, hc, Bool.not_true, if_pos hd]

end Steps

/-- The bytes of a scalar value are taken in one step. -/
theorem step_encodePoint {c : CodePoint} (hc : c.isSurrogate = false) (rest : List UInt8) :
    ∃ first tail, encodePoint c = first :: tail ∧
      step first (tail ++ rest) = .scalar c (tail.length + 1) := by
  have hscalar := CodePoint.isSurrogate_eq_false_iff.mp hc
  have hlast := c.isLt
  have hpoint {n : Nat} (size : Nat) (h : n = c.val) :
      Step.scalar (point n) size = .scalar c size := by rw [point_of_val h]
  unfold encodePoint
  dsimp only
  split
  next hn =>
    have hfirst := toNat_toUInt8 (by omega : c.val < 0x100)
    refine ⟨_, _, rfl, ?_⟩
    rw [List.nil_append, step_one _ (by omega), hfirst]
    exact hpoint 1 rfl
  split
  next hone hn =>
    have hfirst := toNat_toUInt8 (by omega : 0xC0 + c.val / 0x40 < 0x100)
    have hsecond := toNat_toUInt8 (by omega : 0x80 + c.val % 0x40 < 0x100)
    refine ⟨_, _, rfl, ?_⟩
    rw [List.cons_append, step_two _ (by omega) (by omega) (isTail_of_toNat (by omega) (by omega)),
      payload, hfirst, hsecond]
    exact hpoint 2 (by omega)
  split
  next htwo hn =>
    have hfirst := toNat_toUInt8 (by omega : 0xE0 + c.val / 0x1000 < 0x100)
    have hsecond := toNat_toUInt8 (by omega : 0x80 + c.val / 0x40 % 0x40 < 0x100)
    have hthird := toNat_toUInt8 (by omega : 0x80 + c.val % 0x40 < 0x100)
    refine ⟨_, _, rfl, ?_⟩
    rw [List.cons_append, List.cons_append, step_three _ (by omega) (by omega)
      (maySecond_of_toNat (by omega) (by omega) (by omega) (by omega) (by omega) (by omega))
      (isTail_of_toNat (by omega) (by omega)), payload, payload, hfirst, hsecond, hthird]
    exact hpoint 3 (by omega)
  next hthree =>
    have hfirst := toNat_toUInt8 (by omega : 0xF0 + c.val / 0x40000 < 0x100)
    have hsecond := toNat_toUInt8 (by omega : 0x80 + c.val / 0x1000 % 0x40 < 0x100)
    have hthird := toNat_toUInt8 (by omega : 0x80 + c.val / 0x40 % 0x40 < 0x100)
    have hfourth := toNat_toUInt8 (by omega : 0x80 + c.val % 0x40 < 0x100)
    refine ⟨_, _, rfl, ?_⟩
    rw [List.cons_append, List.cons_append, List.cons_append, step_four _ (by omega) (by omega)
      (maySecond_of_toNat (by omega) (by omega) (by omega) (by omega) (by omega) (by omega))
      (isTail_of_toNat (by omega) (by omega)) (isTail_of_toNat (by omega) (by omega)), payload,
      payload, payload, hfirst, hsecond, hthird, hfourth]
    exact hpoint 4 (by omega)

/-- The bytes that belong to a step are passed over. -/
theorem steps_append (passed rest : List UInt8) :
    steps passed.length (passed ++ rest) = steps 0 rest := by
  induction passed with
  | nil => rfl
  | cons b passed ih => exact ih

/-- A text without surrogates is read back from its bytes. -/
theorem decodeLossy_encodePoints {t : Text} (h : t.Within fun c => c.isSurrogate = false) :
    decodeLossy (encodePoints t).toList = t := by
  rw [decodeLossy, encodePoints]
  induction t with
  | nil => rfl
  | cons c t ih =>
    obtain ⟨hc, ht⟩ := Text.within_cons.mp h
    obtain ⟨first, tail, hbytes, hstep⟩ := step_encodePoint hc (t.flatMap encodePoint)
    rw [List.flatMap_cons, hbytes, List.cons_append]
    simp only [steps, hstep, Step.size, Nat.add_sub_cancel, steps_append, List.map_cons]
    exact congrArg (c :: ·) (ih ht)

end Utf8

namespace Syntax.Tree

/-- A node covers a text without surrogates: its bytes are those of the text. -/
structure Covers (source : Bytes) (t : Tree) (text : Text) : Prop where
  bytes : source.extract t.start t.stop = Utf8.encodePoints text
  scalars : text.Within fun c => c.isSurrogate = false

theorem Covers.text_eq {source : Bytes} {t : Tree} {text : Text} (h : t.Covers source text) :
    t.text source = text := by
  rw [Tree.text, h.bytes, Utf8.decodeLossy_encodePoints h.scalars]

end Syntax.Tree

end SchemaAtlas
