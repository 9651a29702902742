import Mathlib.Algebra.BigOperators.Group.List.Lemmas
import Mathlib.Algebra.GroupWithZero.Nat
import Mathlib.Data.List.Dedup
import SchemaAtlas.Text.Basic

/-!
# Each value once

A list in which each value is kept where it occurs first has no repetitions, and which values it has
does not depend on the order of the list. Texts that are kept once and then sorted increase strictly
in the order of their code points.
-/

namespace SchemaAtlas

section Distinct

variable {α : Type} [BEq α] [LawfulBEq α]

theorem nodup_eraseDups (xs : List α) : xs.eraseDups.Nodup := by
  induction hn : xs.length using Nat.strong_induction_on generalizing xs with
  | _ n ih =>
    cases xs with
    | nil => simp
    | cons x xs =>
      have hshorter : (xs.filter fun y => !y == x).length < n := by
        have hle := List.length_filter_le (fun y => !y == x) xs
        rw [List.length_cons] at hn
        omega
      rw [List.eraseDups_cons, List.nodup_cons]
      exact ⟨by simp [List.mem_eraseDups], ih _ hshorter _ rfl⟩

/-- Lists with the same members have the same values, each once. -/
theorem eraseDups_perm {xs ys : List α} (h : ∀ a, a ∈ xs ↔ a ∈ ys) :
    xs.eraseDups.Perm ys.eraseDups := by
  rw [List.perm_ext_iff_of_nodup (nodup_eraseDups xs) (nodup_eraseDups ys)]
  simpa [List.mem_eraseDups] using h

/-- A value at the end is new or was kept before. -/
theorem eraseDups_concat (xs : List α) (x : α) :
    (xs ++ [x]).eraseDups = if xs.elem x then xs.eraseDups else xs.eraseDups ++ [x] := by
  rw [List.eraseDups_append]
  by_cases h : x ∈ xs <;> simp [h, List.removeAll, List.eraseDups_cons]

/-- Each member of a list is counted with its value. -/
theorem sum_count_eraseDups {α : Type} [DecidableEq α] (xs : List α) :
    (xs.eraseDups.map (xs.count ·)).sum = xs.length := by
  have hperm : xs.eraseDups.Perm xs.dedup := by
    rw [List.perm_ext_iff_of_nodup (nodup_eraseDups xs) xs.nodup_dedup]
    simp [List.mem_eraseDups]
  rw [(hperm.map _).sum_eq, List.sum_map_count_dedup_eq_length]

end Distinct

namespace Text

/-- A text comes before another in the order of their code points. -/
def Before (s t : Text) : Prop := List.Lex (· < ·) s t

theorem le_cons (a b : CodePoint) (s t : Text) :
    le (a :: s) (b :: t) ↔ a < b ∨ a = b ∧ s.le t := by
  simp [le]

/-- A text comes no later than another iff they are the same or it comes before. -/
theorem le_iff (s t : Text) : s.le t ↔ s = t ∨ s.Before t := by
  induction s generalizing t with
  | nil => cases t <;> simp [le, Before]
  | cons a s ih =>
    cases t with
    | nil => simp [le, Before]
    | cons b t =>
      have hlex : Before (a :: s) (b :: t) ↔ a < b ∨ a = b ∧ Before s t :=
        List.cons_lex_cons_iff
      rw [le_cons, ih, hlex, List.cons.injEq, and_or_left]
      exact or_left_comm

theorem le_trans (s t u : Text) (h : s.le t) (h' : t.le u) : s.le u := by
  induction s generalizing t u with
  | nil => rfl
  | cons a s ih =>
    cases t with
    | nil => cases h
    | cons b t =>
      cases u with
      | nil => cases h'
      | cons c u =>
        rw [le_cons] at h h' ⊢
        rcases h with h | ⟨rfl, h⟩
        · rcases h' with h' | ⟨rfl, -⟩
          · exact .inl (Fin.lt_trans h h')
          · exact .inl h
        · exact h'.imp_right fun h' => ⟨h'.1, ih _ _ h h'.2⟩

theorem le_total (s t : Text) : s.le t ∨ t.le s := by
  induction s generalizing t with
  | nil => exact .inl rfl
  | cons a s ih =>
    cases t with
    | nil => exact .inr rfl
    | cons b t =>
      rw [le_cons, le_cons]
      by_cases hab : a = b
      · subst hab
        exact (ih t).imp (fun h => .inr ⟨rfl, h⟩) fun h => .inr ⟨rfl, h⟩
      · exact (Fin.lt_or_lt_of_ne hab).imp .inl .inl

theorem le_antisymm {s t : Text} (h : s.le t) (h' : t.le s) : s = t := by
  induction s generalizing t with
  | nil =>
    cases t with
    | nil => rfl
    | cons b t => cases h'
  | cons a s ih =>
    cases t with
    | nil => cases h
    | cons b t =>
      rw [le_cons] at h h'
      rcases h with h | ⟨rfl, h⟩
      · rcases h' with h' | ⟨rfl, -⟩
        · exact absurd h' (Fin.lt_asymm h)
        · exact absurd h (Fin.lt_irrefl b)
      · rcases h' with h' | ⟨-, h'⟩
        · exact absurd h' (Fin.lt_irrefl a)
        · rw [ih h h']

theorem pairwise_le_mergeSort (ts : List Text) : (ts.mergeSort le).Pairwise fun s t => s.le t := by
  have htotal (s t : Text) : (s.le t || t.le s) = true := Bool.or_eq_true_iff.mpr (le_total s t)
  exact List.pairwise_mergeSort le_trans htotal ts

/-- Sorted texts, each of them once, increase strictly. -/
theorem pairwise_before_mergeSort {ts : List Text} (h : ts.Nodup) :
    (ts.mergeSort le).Pairwise Before := by
  have hdistinct := (List.mergeSort_perm ts le).nodup_iff.mpr h
  refine ((pairwise_le_mergeSort ts).and hdistinct).imp fun hst => ?_
  exact ((le_iff _ _).mp hst.1).resolve_left hst.2

/-- The order of texts does not matter for their sorted list. -/
theorem mergeSort_eq_of_perm {ts us : List Text} (h : ts.Perm us) :
    ts.mergeSort le = us.mergeSort le := by
  have hperm : (ts.mergeSort le).Perm (us.mergeSort le) :=
    (List.mergeSort_perm ts le).trans (h.trans (List.mergeSort_perm us le).symm)
  exact hperm.eq_of_pairwise (fun _ _ _ _ => le_antisymm) (pairwise_le_mergeSort ts)
    (pairwise_le_mergeSort us)

end Text
end SchemaAtlas
