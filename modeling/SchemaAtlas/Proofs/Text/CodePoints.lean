import SchemaAtlas.Number.Numeral
import SchemaAtlas.Proofs.Outcome
import SchemaAtlas.Text.Comment
import SchemaAtlas.Text.Utf8

/-!
# The code points of texts

A text can be encoded iff it holds no surrogate. Text that is read from bytes never holds one, nor
does a fixed text or the text of a number; the parts of a text, its pieces joined together and the
documentation in a comment hold no code points but those of the text and scalar values. So a test on
code points that all scalar values pass is passed on from a source to whatever is cut out of it.
-/

namespace SchemaAtlas

def Text.Within (P : CodePoint → Prop) (t : Text) : Prop := ∀ c ∈ t, P c

def HoldsOfScalars (P : CodePoint → Prop) : Prop := ∀ c : CodePoint, c.isSurrogate = false → P c

namespace CodePoint

theorem isSurrogate_eq_false_iff {c : CodePoint} :
    c.isSurrogate = false ↔ c.val < 0xD800 ∨ 0xE000 ≤ c.val := by
  simp only [isSurrogate, Bool.and_eq_false_iff, decide_eq_false_iff_not]
  omega

/-- A character is a scalar value. -/
theorem isSurrogate_ofChar (c : Char) : (ofChar c).isSurrogate = false := by
  have hvalid := c.valid
  simp only [UInt32.isValidChar, Nat.isValidChar] at hvalid
  have hval : (ofChar c).val = c.val.toNat := rfl
  rw [isSurrogate_eq_false_iff, hval]
  omega

end CodePoint

namespace Text

variable {P : CodePoint → Prop} {s t : Text}

theorem Within.mono (h : t.Within P) (hst : ∀ c ∈ s, c ∈ t) : s.Within P :=
  fun c hc => h c (hst c hc)

theorem within_nil : Within P [] := fun c hc => by cases hc

theorem within_cons {c : CodePoint} : Within P (c :: t) ↔ P c ∧ t.Within P := List.forall_mem_cons

theorem within_singleton {c : CodePoint} : Within P [c] ↔ P c := List.forall_mem_singleton

theorem within_append : Within P (s ++ t) ↔ s.Within P ∧ t.Within P := List.forall_mem_append

theorem within_flatten {ts : List Text} (h : ∀ t ∈ ts, Within P t) : Within P ts.flatten := by
  intro c hc
  obtain ⟨t, ht, hc⟩ := List.mem_flatten.mp hc
  exact h t ht c hc

/-- A fixed text holds scalar values only. -/
theorem within_ofString (hP : HoldsOfScalars P) (s : String) : Within P (ofString s) := by
  intro c hc
  obtain ⟨char, -, rfl⟩ := List.mem_map.mp hc
  exact hP _ (CodePoint.isSurrogate_ofChar char)

theorem Within.dropEndWhile (h : t.Within P) (q : CodePoint → Bool) :
    (t.dropEndWhile q).Within P := by
  refine h.mono fun c hc => ?_
  have hmem := (List.dropWhile_sublist q).subset (List.mem_reverse.mp hc)
  exact List.mem_reverse.mp hmem

theorem Within.strip (h : t.Within P) : t.strip.Within P :=
  Within.dropEndWhile (h.mono fun _ hc => (List.dropWhile_sublist _).subset hc) _

theorem Within.inner (h : t.Within P) : t.inner.Within P :=
  h.mono fun _ hc => List.mem_of_mem_drop (List.dropLast_subset _ hc)

theorem Within.dropEnd (h : t.Within P) (n : Nat) : (t.dropEnd n).Within P :=
  h.mono fun _ hc => List.mem_of_mem_take hc

theorem within_join {separator : Text} (hseparator : separator.Within P) {ts : List Text}
    (h : ∀ t ∈ ts, Within P t) : Within P (join separator ts) := by
  induction ts with
  | nil => exact within_nil
  | cons t rest ih =>
    obtain ⟨ht, hrest⟩ := List.forall_mem_cons.mp h
    cases rest with
    | nil => exact ht
    | cons s rest =>
      rw [join]
      · exact within_append.mpr ⟨within_append.mpr ⟨ht, hseparator⟩, ih hrest⟩
      · simp

/-- Every piece between separators is a part of the text. -/
theorem mem_of_mem_splitOn {separator : CodePoint} {piece : Text}
    (hpiece : piece ∈ splitOn separator t) : ∀ c ∈ piece, c ∈ t := by
  induction t generalizing piece with
  | nil =>
    intro c hc
    rw [splitOn, List.mem_singleton] at hpiece
    rwa [hpiece] at hc
  | cons d rest ih =>
    intro c hc
    rw [splitOn] at hpiece
    split at hpiece
    · rcases List.mem_cons.mp hpiece with rfl | hpiece
      · cases hc
      · exact List.mem_cons_of_mem d (ih hpiece c hc)
    · cases hpieces : splitOn separator rest with
      | nil =>
        rw [hpieces] at hpiece
        rw [List.mem_singleton.mp hpiece] at hc
        rw [List.mem_singleton.mp hc]
        exact List.mem_cons_self
      | cons first others =>
        rw [hpieces] at hpiece ih
        rcases List.mem_cons.mp hpiece with rfl | hpiece
        · rcases List.mem_cons.mp hc with rfl | hc
          · exact List.mem_cons_self
          · exact List.mem_cons_of_mem d (ih List.mem_cons_self c hc)
        · exact List.mem_cons_of_mem d (ih (List.mem_cons_of_mem first hpiece) c hc)

/-- Erasing marks leaves a part of the text. -/
theorem eraseMarks_sublist (marks : List Text) (pending : Nat) (t : Text) :
    (eraseMarks marks pending t).Sublist t := by
  induction t generalizing pending with
  | nil => exact List.Sublist.refl []
  | cons c rest ih =>
    cases pending with
    | succ pending => exact (ih pending).cons c
    | zero =>
      rw [eraseMarks]
      split
      · exact (ih _).cons c
      · exact (ih 0).cons_cons c

theorem Within.erase (h : t.Within P) (marks : List Text) : (t.erase marks).Within P :=
  h.mono fun _ hc => (eraseMarks_sublist marks 0 t).subset hc

end Text

namespace Comment

variable {P : CodePoint → Prop} {comment : Text}

open Text (Within)

theorem dropBlank_subset (t : Text) : ∀ c ∈ dropBlank t, c ∈ t := by
  intro c hc
  cases t with
  | nil => exact hc
  | cons d rest =>
    rw [dropBlank] at hc
    split at hc
    · exact List.mem_cons_of_mem d hc
    · exact hc

/-- What is left of a line without its margin is a part of the line. -/
theorem dropMargin_subset (line : Text) : ∀ c ∈ dropMargin line, c ∈ line := by
  intro c hc
  unfold dropMargin at hc
  split at hc
  · cases hc
  · next first rest hline =>
    apply (List.dropWhile_sublist CodePoint.isBlank).subset
    rw [hline]
    split at hc
    · exact List.mem_cons_of_mem first (dropBlank_subset rest c hc)
    · exact hc

theorem dropStar_subset (line : Text) : ∀ c ∈ dropStar line, c ∈ line := by
  intro c hc
  unfold dropStar at hc
  split at hc
  · exact hc
  · next first rest hline =>
    split at hc
    · apply (List.dropWhile_sublist CodePoint.isBlank).subset
      rw [hline]
      exact List.mem_cons_of_mem first (dropBlank_subset rest c hc)
    · exact hc

/-- Cleaning a comment brings in nothing new. -/
theorem within_cleanedLines (h : comment.Within P) :
    ∀ line ∈ cleanedLines comment, line.Within P := by
  intro line hline
  obtain ⟨raw, hraw, rfl⟩ := List.mem_map.mp hline
  refine Within.strip ?_
  split at hraw
  · obtain ⟨piece, hpiece, rfl⟩ := List.mem_map.mp hraw
    exact (h.erase _).mono fun c hc => Text.mem_of_mem_splitOn hpiece c (dropStar_subset piece c hc)
  · split at hraw
    · obtain ⟨piece, hpiece, rfl⟩ := List.mem_map.mp hraw
      exact (h.erase _).mono fun c hc =>
        Text.mem_of_mem_splitOn hpiece c (dropMargin_subset piece c hc)
    · rw [List.mem_singleton.mp hraw]
      exact h.erase _

/-- The lines of a run are lines of the comment. -/
theorem mem_of_mem_runs {current lines run : List Text} (hrun : run ∈ runs current lines) :
    ∀ line ∈ run, line ∈ current ∨ line ∈ lines := by
  induction lines generalizing current with
  | nil =>
    intro line hline
    rw [runs] at hrun
    split at hrun
    · cases hrun
    · rw [List.mem_singleton.mp hrun] at hline
      exact .inl hline
  | cons first rest ih =>
    intro line hline
    rw [runs] at hrun
    split at hrun
    · split at hrun
      · exact (ih hrun line hline).elim (fun hnil => by cases hnil)
          fun hrest => .inr (List.mem_cons_of_mem first hrest)
      · rcases List.mem_cons.mp hrun with rfl | hrun
        · exact .inl hline
        · exact (ih hrun line hline).elim (fun hnil => by cases hnil)
            fun hrest => .inr (List.mem_cons_of_mem first hrest)
    · rcases ih hrun line hline with hcurrent | hrest
      · rcases List.mem_append.mp hcurrent with hcurrent | hfirst
        · exact .inl hcurrent
        · exact .inr (List.mem_singleton.mp hfirst ▸ List.mem_cons_self)
      · exact .inr (List.mem_cons_of_mem first hrest)

theorem within_normalize (hP : HoldsOfScalars P) (h : comment.Within P) :
    (normalize comment).Within P := by
  have hlineFeed : Text.Within P [lineFeed] := Text.within_singleton.mpr (hP lineFeed rfl)
  have hspace : Text.Within P [space] := Text.within_singleton.mpr (hP space rfl)
  refine Text.within_join hlineFeed fun paragraph hparagraph => ?_
  obtain ⟨run, hrun, rfl⟩ := List.mem_map.mp hparagraph
  refine Text.within_join hspace fun line hline => within_cleanedLines h line ?_
  exact (mem_of_mem_runs hrun line hline).resolve_left List.not_mem_nil

/-- The documentation in comments holds their code points and scalar values. -/
theorem within_documentation? (hP : HoldsOfScalars P) {groups : List (List Text)}
    (h : ∀ group ∈ groups, ∀ comment ∈ group, Text.Within P comment) {t : Text}
    (ht : documentation? groups = some t) : t.Within P := by
  obtain ⟨group, hgroup, rfl⟩ := List.mem_map.mp (List.mem_of_find?_eq_some ht)
  have hlineFeed : Text.Within P [lineFeed] := Text.within_singleton.mpr (hP lineFeed rfl)
  refine Text.within_join hlineFeed fun part hpart => ?_
  obtain ⟨comment, hcomment, rfl⟩ := List.mem_map.mp (List.mem_filter.mp hpart).1
  exact within_normalize hP (h group hgroup comment hcomment)

end Comment

namespace Number

variable {P : CodePoint → Prop}

theorem within_integerText (hP : HoldsOfScalars P) (n : Int) : (integerText n).Within P :=
  Text.within_ofString hP (toString n)

theorem within_toText (hP : HoldsOfScalars P) (x : Binary64) : x.toText.Within P := by
  cases x with
  | finite negative m e =>
    intro c hc
    obtain ⟨char, -, rfl⟩ := List.mem_map.mp hc
    exact hP _ (CodePoint.isSurrogate_ofChar char)
  | infinite negative => cases negative <;> exact Text.within_ofString hP _
  | notANumber => exact Text.within_ofString hP _

theorem within_canonical? (hP : HoldsOfScalars P) {n : Number} {t : Text}
    (h : n.canonical? = some t) : t.Within P := by
  cases n with
  | integer n =>
    rw [canonical?] at h
    split at h
    · cases h
      exact within_integerText hP n
    · cases h
  | float x =>
    cases h
    cases x.toInt? with
    | none => exact within_toText hP x
    | some n => exact within_integerText hP n

end Number

namespace Utf8

/-- A number below the surrogates or beyond them stands for a scalar value. -/
theorem isSurrogate_point {n : Nat} (h : n < 0xD800 ∨ 0xE000 ≤ n) :
    (point n).isSurrogate = false := by
  rw [CodePoint.isSurrogate_eq_false_iff, point, CodePoint.ofNatD]
  split
  · exact h
  · decide

theorem payload_lt (b : UInt8) : payload b < 0x40 := Nat.mod_lt _ (by decide)

theorem toNat_of_maySecond {first second : UInt8} (h : maySecond first second = true) :
    0x80 ≤ second.toNat ∧ second.toNat < 0xC0 ∧ (first.toNat = 0xED → second.toNat < 0xA0) ∧
      (first.toNat = 0xF0 → 0x90 ≤ second.toNat) := by
  have hed : (first == 0xED) = decide (first.toNat = 0xED) := by
    rw [Bool.eq_iff_iff, beq_iff_eq, decide_eq_true_iff, ← UInt8.toNat_inj]
    rfl
  have hf0 : (first == 0xF0) = decide (first.toNat = 0xF0) := by
    rw [Bool.eq_iff_iff, beq_iff_eq, decide_eq_true_iff, ← UInt8.toNat_inj]
    rfl
  simp [maySecond, isTail, hed, hf0, UInt8.le_iff_toNat_le, UInt8.lt_iff_toNat_lt] at h
  omega

/-- What a step reads by, sorted by the number of bytes that the first one announces. -/
theorem cases_of_step {first : UInt8} {rest : List UInt8} {value : CodePoint} {size : Nat}
    (h : step first rest = .scalar value size) :
    (first.toNat < 0x80 ∧ value = point first.toNat) ∨
    (∃ b, first.toNat < 0xE0 ∧ value = point (first.toNat % 0x20 * 0x40 + payload b)) ∨
    (∃ b c, 0xE0 ≤ first.toNat ∧ first.toNat < 0xF0 ∧ maySecond first b = true ∧
      value = point (first.toNat % 0x10 * 0x1000 + payload b * 0x40 + payload c)) ∨
    (∃ b c d, 0xF0 ≤ first.toNat ∧ first.toNat < 0xF5 ∧ maySecond first b = true ∧
      value = point (first.toNat % 8 * 0x40000 + payload b * 0x1000 + payload c * 0x40
        + payload d)) := by
  unfold step at h
  simp only at h
  split at h
  · grind
  · split at h
    · cases h
    · split at h
      · grind
      · split at h <;> grind

/-- One step of reading never gives a surrogate: the second byte of a sequence of three keeps it
below or beyond them. -/
theorem isSurrogate_of_step {first : UInt8} {rest : List UInt8} {value : CodePoint} {size : Nat}
    (h : step first rest = .scalar value size) : value.isSurrogate = false := by
  rcases cases_of_step h with ⟨hlead, rfl⟩ | ⟨b, hlead, rfl⟩ | ⟨b, c, hlow, hhigh, hb, rfl⟩ |
    ⟨b, c, d, hlow, hhigh, hb, rfl⟩
  · exact isSurrogate_point (by omega)
  · have hb := payload_lt b
    exact isSurrogate_point (by omega)
  · have hsecond := toNat_of_maySecond hb
    have hb := payload_lt b
    have hc := payload_lt c
    apply isSurrogate_point
    rw [payload] at hb ⊢
    omega
  · have hsecond := toNat_of_maySecond hb
    apply isSurrogate_point
    rw [payload]
    omega

/-- No surrogate is ever decoded. -/
theorem isSurrogate_of_mem_steps {pending : Nat} {bytes : List UInt8} {value : CodePoint}
    {size : Nat} (h : Step.scalar value size ∈ steps pending bytes) :
    value.isSurrogate = false := by
  induction bytes generalizing pending with
  | nil => cases h
  | cons b rest ih =>
    cases pending with
    | succ pending => exact ih h
    | zero =>
      rcases List.mem_cons.mp h with hstep | hrest
      · exact isSurrogate_of_step hstep.symm
      · exact ih hrest

/-- Text that is read from bytes holds scalar values only. -/
theorem within_decodeLossy {P : CodePoint → Prop} (hP : HoldsOfScalars P) (bytes : List UInt8) :
    (decodeLossy bytes).Within P := by
  intro c hc
  obtain ⟨next, hnext, rfl⟩ := List.mem_map.mp hc
  cases next with
  | scalar value size => exact hP value (isSurrogate_of_mem_steps hnext)
  | fault cause size => exact hP 0xFFFD rfl

theorem unencodableFrom_eq_none_iff {start : Nat} {t : Text} :
    unencodableFrom start t = none ↔ t.Within fun c => c.isSurrogate = false := by
  induction t generalizing start with
  | nil => simp [unencodableFrom, Text.Within]
  | cons c rest ih =>
    rw [unencodableFrom, Text.within_cons]
    cases c.isSurrogate <;> simp [ih]

/-- A text can be encoded iff it holds scalar values only. -/
theorem returns_encode_iff {t : Text} :
    Returns (encode t) ↔ t.Within fun c => c.isSurrogate = false := by
  have hnone := @unencodableFrom_eq_none_iff 0 t
  rw [← hnone, encode]
  cases unencodableFrom 0 t <;> simp

end Utf8
end SchemaAtlas
