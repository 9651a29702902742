import SchemaAtlas.Text.LowerCase

/-!
# Texts in lower case

The lower-case form of a letter has no other lower-case form, and it is neither of the two letters
that are treated apart. So a text in lower case stays as it is, whatever stands around its letters.
-/

namespace SchemaAtlas

namespace Text.CaseTable

variable {run other : Nat × Nat × Nat × Nat} {n : Nat}

/-- Whether a run starts from the code point with a given number. -/
def inRun (n : Nat) (run : Nat × Nat × Nat × Nat) : Bool :=
  run.1 ≤ n && n ≤ run.2.1 && (n - run.1) % run.2.2.1 == 0

def lastTarget (run : Nat × Nat × Nat × Nat) : Nat := run.2.2.2 + (run.2.1 - run.1)

/-- Whether a run leads to code points other than the two letters that are treated apart. -/
def isPlain (run : Nat × Nat × Nat × Nat) : Bool :=
  lastTarget run < 0x110000 && (lastTarget run < 0x130 || 0x130 < run.2.2.2)
    && (lastTarget run < 0x3A3 || 0x3A3 < run.2.2.2)

/-- Whether a run leads past another: in front of where it starts, behind it, or in between its
steps. -/
def leadsPast (run other : Nat × Nat × Nat × Nat) : Bool :=
  lastTarget run < other.1 || other.2.1 < run.2.2.2
    || ((run.2.2.1 % other.2.2.1 == 0 || run.1 == run.2.1)
      && (run.2.2.2 - other.1) % other.2.2.1 != 0)

/-- No run starts from where another one leads. -/
theorem lowerRuns_apart : (lowerRuns.all fun run =>
    isPlain run && lowerRuns.all (leadsPast run)) = true := by
  decide +kernel

/-- A run that leads past another one gives nothing that the other would change. -/
theorem not_inRun_of_leadsPast (hn : inRun n run) (h : leadsPast run other) :
    inRun (run.2.2.2 + (n - run.1)) other = false := by
  obtain ⟨first, last, step, target⟩ := run
  obtain ⟨first', last', step', target'⟩ := other
  simp only [inRun, leadsPast, Bool.and_eq_true, Bool.or_eq_true, decide_eq_true_eq, beq_iff_eq,
    bne_iff_ne] at hn h
  obtain ⟨⟨hfirst, hlast⟩, hstep⟩ := hn
  rw [Bool.eq_false_iff]
  intro hother
  simp only [inRun, Bool.and_eq_true, decide_eq_true_eq, beq_iff_eq] at hother
  obtain ⟨⟨hfirst', hlast'⟩, hstep'⟩ := hother
  rcases h with (hbefore | hbehind) | ⟨hstride, hbetween⟩
  · simp only [lastTarget] at hbefore
    omega
  · omega
  · have hoffset : (n - first) % step' = 0 := by
      rcases hstride with hstride | hsingle
      · exact Nat.mod_eq_zero_of_dvd
          (Nat.dvd_trans (Nat.dvd_of_mod_eq_zero hstride) (Nat.dvd_of_mod_eq_zero hstep))
      · have hzero : n - first = 0 := by omega
        rw [hzero, Nat.zero_mod]
    have hstart : first' < target := by
      refine Nat.lt_of_not_le fun hle => hbetween ?_
      rw [Nat.sub_eq_zero_of_le hle, Nat.zero_mod]
    have hsum : target + (n - first) - first' = target - first' + (n - first) := by omega
    rw [hsum, Nat.add_mod, hoffset, Nat.add_zero, Nat.mod_mod] at hstep'
    exact hbetween hstep'

end Text.CaseTable

open Text.CaseTable

namespace CodePoint

def IsLowered (c : CodePoint) : Prop := c.lower = c ∧ c ≠ 0x130 ∧ c ≠ 0x3A3

instance (c : CodePoint) : Decidable c.IsLowered :=
  inferInstanceAs (Decidable (c.lower = c ∧ c ≠ 0x130 ∧ c ≠ 0x3A3))

/-- The lower-case form by the run that a code point is in. -/
theorem lower_eq (c : CodePoint) : c.lower =
    (lowerRuns.find? (inRun c.val)).elim c fun run => ofNatD (run.2.2.2 + (c.val - run.1)) c := by
  unfold lower
  split
  · next first last step target hrun =>
    have hfind : lowerRuns.find? (inRun c.val) = some (first, last, step, target) := hrun
    rw [hfind, Option.elim_some]
  · next hrun =>
    have hfind : lowerRuns.find? (inRun c.val) = none := hrun
    rw [hfind, Option.elim_none]

/-- The lower-case form of a letter that is not treated apart stays as it is. -/
theorem isLowered_lower {c : CodePoint} (h : c ≠ 0x130) (h' : c ≠ 0x3A3) : c.lower.IsLowered := by
  cases hrun : lowerRuns.find? (inRun c.val) with
  | none =>
    have hlower : c.lower = c := by rw [lower_eq, hrun, Option.elim_none]
    rw [hlower]
    exact ⟨hlower, h, h'⟩
  | some run =>
    have hin := List.find?_some hrun
    have hapart := List.all_eq_true.mp lowerRuns_apart run (List.mem_of_find?_eq_some hrun)
    simp only [isPlain, Bool.and_eq_true, Bool.or_eq_true, decide_eq_true_eq] at hapart
    obtain ⟨⟨⟨hbound, hdot⟩, hsigma⟩, hpast⟩ := hapart
    have hle : run.2.2.2 + (c.val - run.1) ≤ lastTarget run := by
      simp only [inRun, Bool.and_eq_true, decide_eq_true_eq] at hin
      rw [lastTarget]
      omega
    have hlt := Nat.lt_of_le_of_lt hle hbound
    have hnone : lowerRuns.find? (inRun (run.2.2.2 + (c.val - run.1))) = none := by
      rw [List.find?_eq_none]
      intro other hother
      rw [not_inRun_of_leadsPast hin (List.all_eq_true.mp hpast other hother)]
      exact Bool.false_ne_true
    have hlower : c.lower = ⟨run.2.2.2 + (c.val - run.1), hlt⟩ := by
      rw [lower_eq, hrun]
      exact dif_pos hlt
    rw [hlower]
    refine ⟨by rw [lower_eq, hnone, Option.elim_none], fun he => ?_, fun he => ?_⟩ <;>
    · have hval : run.2.2.2 + (c.val - run.1) = _ := congrArg Fin.val he
      omega

end CodePoint

namespace Text

/-- Nothing in a lower-case text has a lower-case form other than itself. -/
theorem isLowered_of_mem_lowerAt {before after : Text} {c d : CodePoint}
    (h : d ∈ lowerAt before c after) : d.IsLowered := by
  have hdotted : ∀ d ∈ ([0x69, 0x307] : Text), d.IsLowered :=
    List.forall_mem_cons.mpr ⟨by decide +kernel, List.forall_mem_singleton.mpr (by decide +kernel)⟩
  have hsigmas : CodePoint.IsLowered 0x3C2 ∧ CodePoint.IsLowered 0x3C3 := by decide +kernel
  unfold lowerAt at h
  split at h
  · exact hdotted d h
  · next hdot =>
    split at h
    · split at h
      · exact List.mem_singleton.mp h ▸ hsigmas.1
      · exact List.mem_singleton.mp h ▸ hsigmas.2
    · next hsigma => exact List.mem_singleton.mp h ▸ CodePoint.isLowered_lower hdot hsigma

theorem isLowered_of_mem_lowerAfter {before t : Text} {d : CodePoint}
    (h : d ∈ lowerAfter before t) : d.IsLowered := by
  induction t generalizing before with
  | nil => cases h
  | cons c rest ih =>
    rcases List.mem_append.mp h with h | h
    · exact isLowered_of_mem_lowerAt h
    · exact ih h

theorem lowerAfter_eq_self {t : Text} (h : ∀ c ∈ t, c.IsLowered) (before : Text) :
    lowerAfter before t = t := by
  induction t generalizing before with
  | nil => rfl
  | cons c rest ih =>
    obtain ⟨⟨hlower, hdot, hsigma⟩, hrest⟩ := List.forall_mem_cons.mp h
    rw [lowerAfter, lowerAt, if_neg hdot, if_neg hsigma, hlower, ih hrest]
    rfl

/-- A text of lowered letters is in lower case. -/
theorem lower_eq_self {t : Text} (h : ∀ c ∈ t, c.IsLowered) : t.lower = t :=
  lowerAfter_eq_self h []

/-- A text in lower case stays as it is. -/
@[simp] theorem lower_lower (t : Text) : t.lower.lower = t.lower :=
  lower_eq_self fun _ hc => isLowered_of_mem_lowerAfter hc

/-- Every code point has a lower-case form, so only the empty text has the empty one. -/
@[simp] theorem lower_eq_nil_iff {t : Text} : t.lower = [] ↔ t = [] := by
  refine ⟨fun h => ?_, by rintro rfl; rfl⟩
  cases t with
  | nil => rfl
  | cons c rest =>
    have hfirst : lowerAt [] c rest = [] := (List.append_eq_nil_iff.mp h).1
    unfold lowerAt at hfirst
    split at hfirst
    · cases hfirst
    · split at hfirst
      · split at hfirst <;> cases hfirst
      · cases hfirst

end Text
end SchemaAtlas
