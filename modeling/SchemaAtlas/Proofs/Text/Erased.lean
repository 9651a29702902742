import Mathlib.Data.List.Find
import SchemaAtlas.Proofs.Text.CodePoints

/-!
# Marks that are erased

Marks are erased from left to right: where one fits, the first one of the list that does goes as a
whole, and every other code point stays. No mark reaches across a code point that it does not hold.
-/

namespace SchemaAtlas.Text

variable {s t mark : Text} {marks : List Text} {c : CodePoint}

/-- A mark does not reach across a code point that it does not hold. -/
theorem isPrefixOf_append_cons (h : c ∉ mark) (s t : Text) :
    mark.isPrefixOf (s ++ c :: t) = mark.isPrefixOf s := by
  induction mark generalizing s with
  | nil => cases s <;> rfl
  | cons m mark ih =>
    rw [List.mem_cons, not_or] at h
    cases s with
    | nil => simp [List.isPrefixOf, Ne.symm h.1]
    | cons d s => simp [List.isPrefixOf_cons_cons, ih h.2]

/-- Marks that are not empty and do not hold a code point. -/
def Avoid (marks : List Text) (c : CodePoint) : Prop := ∀ mark ∈ marks, mark ≠ [] ∧ c ∉ mark

theorem Avoid.find?_append_cons (h : Avoid marks c) (s t : Text) :
    marks.find? (·.isPrefixOf (s ++ c :: t)) = marks.find? (·.isPrefixOf s) :=
  List.find?_congr fun mark hmark => isPrefixOf_append_cons (h mark hmark).2 s t

theorem Avoid.find?_nil (h : Avoid marks c) : marks.find? (·.isPrefixOf []) = none := by
  rw [List.find?_eq_none]
  intro mark hmark hprefix
  exact (h mark hmark).1 (List.prefix_nil.mp (List.isPrefixOf_iff_prefix.mp hprefix))

/-- Marks are erased on either side of a code point that none of them holds, which stays. -/
theorem eraseMarks_append_cons (h : Avoid marks c) {pending : Nat} (s t : Text)
    (hpending : pending ≤ s.length) :
    eraseMarks marks pending (s ++ c :: t) =
      eraseMarks marks pending s ++ c :: eraseMarks marks 0 t := by
  induction s generalizing pending with
  | nil =>
    rw [List.length_nil, Nat.le_zero] at hpending
    have hnone := h.find?_append_cons [] t
    rw [h.find?_nil, List.nil_append] at hnone
    simp [eraseMarks, hpending, hnone]
  | cons d s ih =>
    cases pending with
    | succ pending =>
      rw [List.length_cons] at hpending
      rw [List.cons_append, eraseMarks, eraseMarks, ih (by omega)]
    | zero =>
      have hfind := h.find?_append_cons (d :: s) t
      rw [List.cons_append] at hfind ⊢
      rw [eraseMarks, eraseMarks, hfind]
      cases hmark : marks.find? (·.isPrefixOf (d :: s)) with
      | none =>
        simp only
        rw [ih (Nat.zero_le _), List.cons_append]
      | some mark =>
        have hprefix : mark.isPrefixOf (d :: s) = true := by simpa using List.find?_some hmark
        have hlength := (List.isPrefixOf_iff_prefix.mp hprefix).length_le
        rw [List.length_cons] at hlength
        exact ih (by omega)

theorem erase_append_cons (h : Avoid marks c) (s t : Text) :
    erase marks (s ++ c :: t) = erase marks s ++ c :: erase marks t :=
  eraseMarks_append_cons h s t (Nat.zero_le _)

/-- A text whose code points no mark holds stays in front of what is left behind it. -/
theorem erase_append_left (h : ∀ c ∈ s, Avoid marks c) (t : Text) :
    erase marks (s ++ t) = s ++ erase marks t := by
  induction s with
  | nil => rfl
  | cons c s ih =>
    obtain ⟨hc, hs⟩ := List.forall_mem_cons.mp h
    have hstep := erase_append_cons hc [] (s ++ t)
    rw [List.nil_append] at hstep
    rw [List.cons_append, hstep, ih hs]
    rfl

/-- Erasing marks stops at what holds none. -/
theorem erase_append_right (h : ∀ c ∈ s, Avoid marks c) (t : Text) :
    erase marks (t ++ s) = erase marks t ++ s := by
  cases s with
  | nil => simp
  | cons c s =>
    obtain ⟨hc, hs⟩ := List.forall_mem_cons.mp h
    have hrest := erase_append_left hs []
    rw [List.append_nil] at hrest
    rw [erase_append_cons hc, hrest]
    simp [erase, eraseMarks]

theorem eraseMarks_append (marks : List Text) (s t : Text) :
    eraseMarks marks s.length (s ++ t) = erase marks t := by
  induction s with
  | nil => rfl
  | cons c s ih => exact ih

/-- The first mark that fits goes as a whole. -/
theorem erase_mark (hne : mark ≠ [])
    (h : marks.find? (·.isPrefixOf (mark ++ t)) = some mark) :
    erase marks (mark ++ t) = erase marks t := by
  cases mark with
  | nil => exact absurd rfl hne
  | cons c mark =>
    rw [List.cons_append] at h ⊢
    rw [erase, eraseMarks, h]
    exact eraseMarks_append marks mark t

/-- A code point at which no mark fits stays. -/
theorem erase_cons (h : marks.find? (·.isPrefixOf (c :: t)) = none) :
    erase marks (c :: t) = c :: erase marks t := by
  rw [erase, eraseMarks, h]
  rfl

end SchemaAtlas.Text
