import SchemaAtlas.Text.Basic

/-!
# Blanks around texts

To strip a text drops all blanks in front and behind, however many there are, and nothing else. A
text is trimmed if it neither starts nor ends with a blank; stripping leaves it as it is.
-/

namespace SchemaAtlas.Text

variable {s t : Text} {p : CodePoint → Bool} {c : CodePoint}

/-- Nothing is dropped in front of a code point that stays. -/
theorem dropWhile_eq_self (h : ∀ c ∈ t.head?, p c = false) : t.dropWhile p = t := by
  cases t with
  | nil => rfl
  | cons c t => exact List.dropWhile_cons_of_neg (by simp [h c rfl])

/-- Nothing is dropped behind a code point that stays. -/
theorem dropEndWhile_eq_self (h : ∀ c ∈ t.getLast?, p c = false) : t.dropEndWhile p = t := by
  have hreverse : t.reverse.dropWhile p = t.reverse :=
    dropWhile_eq_self fun c hc => h c (by rwa [List.head?_reverse] at hc)
  rw [dropEndWhile, hreverse, List.reverse_reverse]

theorem dropEndWhile_append (h : ∀ c ∈ s, p c = true) :
    (t ++ s).dropEndWhile p = t.dropEndWhile p := by
  have hreverse : ∀ c ∈ s.reverse, p c = true := fun c hc => h c (List.mem_reverse.mp hc)
  rw [dropEndWhile, List.reverse_append, List.dropWhile_append_of_pos hreverse, dropEndWhile]

theorem dropEndWhile_concat (h : p c = true) : (t ++ [c]).dropEndWhile p = t.dropEndWhile p :=
  dropEndWhile_append fun d hd => by rwa [List.mem_singleton.mp hd]

theorem dropEndWhile_cons (h : p c = false) (t : Text) :
    dropEndWhile p (c :: t) = c :: t.dropEndWhile p := by
  rw [dropEndWhile, List.reverse_cons, List.dropWhile_append]
  split
  · next hempty =>
    rw [List.isEmpty_iff] at hempty
    simp [dropEndWhile, hempty, h]
  · simp [dropEndWhile]

/-- Nothing is trimmed from a text without what is trimmed. -/
theorem trim_eq_self (h : ∀ c ∈ t, p c = false) : t.trim p = t := by
  rw [trim, dropWhile_eq_self fun c hc => h c (List.mem_of_mem_head? hc),
    dropEndWhile_eq_self fun c hc => h c (List.mem_of_getLast? hc)]

def AllBlank (t : Text) : Prop := ∀ c ∈ t, c.isBlank = true

theorem strip_cons_of_blank (h : c.isBlank = true) (t : Text) : strip (c :: t) = strip t := by
  rw [strip, trim, List.dropWhile_cons_of_pos h, strip, trim]

theorem strip_cons_of_not_blank (h : c.isBlank = false) (t : Text) :
    strip (c :: t) = c :: t.dropEndWhile CodePoint.isBlank := by
  rw [strip, trim, List.dropWhile_cons_of_neg (by simp [h]), dropEndWhile_cons h]

/-- Blanks in front do not matter. -/
theorem strip_append_left (h : AllBlank s) (t : Text) : strip (s ++ t) = strip t := by
  rw [strip, trim, List.dropWhile_append_of_pos h, strip, trim]

/-- Blanks behind do not matter. -/
theorem strip_append_right (h : AllBlank s) (t : Text) : strip (t ++ s) = strip t := by
  induction t with
  | nil => simpa using strip_append_left h []
  | cons c t ih =>
    cases hc : c.isBlank with
    | true => rw [List.cons_append, strip_cons_of_blank hc, strip_cons_of_blank hc, ih]
    | false =>
      rw [List.cons_append, strip_cons_of_not_blank hc, strip_cons_of_not_blank hc,
        dropEndWhile_append h]

/-- What is dropped behind a text are blanks. -/
theorem exists_blanks_dropEndWhile (t : Text) :
    ∃ blanks, AllBlank blanks ∧ t = t.dropEndWhile CodePoint.isBlank ++ blanks := by
  refine ⟨(t.reverse.takeWhile CodePoint.isBlank).reverse, fun c hc => ?_, ?_⟩
  · exact List.all_eq_true.mp List.all_takeWhile c (List.mem_reverse.mp hc)
  · rw [dropEndWhile, ← List.reverse_append, List.takeWhile_append_dropWhile, List.reverse_reverse]

theorem strip_dropEndWhile (t : Text) : strip (t.dropEndWhile CodePoint.isBlank) = strip t := by
  obtain ⟨blanks, hblanks, hsplit⟩ := exists_blanks_dropEndWhile t
  conv => rhs; rw [hsplit, strip_append_right hblanks]

/-- A text that neither starts nor ends with a blank. -/
structure Trimmed (t : Text) : Prop where
  head : ∀ c ∈ t.head?, c.isBlank = false
  last : ∀ c ∈ t.getLast?, c.isBlank = false

theorem Trimmed.strip_eq (h : Trimmed t) : strip t = t := by
  rw [strip, trim, dropWhile_eq_self h.head, dropEndWhile_eq_self h.last]

theorem not_blank_of_mem_head?_dropWhile (t : Text) :
    ∀ c ∈ (t.dropWhile CodePoint.isBlank).head?, c.isBlank = false := by
  intro c hc
  have hnot := List.head?_dropWhile_not CodePoint.isBlank t
  rw [Option.mem_def.mp hc] at hnot
  simpa using hnot

theorem strip_dropWhile (t : Text) : strip (t.dropWhile CodePoint.isBlank) = strip t := by
  rw [strip, trim, dropWhile_eq_self (not_blank_of_mem_head?_dropWhile t), strip, trim]

theorem not_blank_of_mem_getLast?_dropEndWhile (t : Text) :
    ∀ c ∈ (t.dropEndWhile CodePoint.isBlank).getLast?, c.isBlank = false := by
  intro c hc
  rw [dropEndWhile, List.getLast?_reverse] at hc
  exact not_blank_of_mem_head?_dropWhile t.reverse c hc

/-- A stripped text has no blank at either end. -/
theorem trimmed_strip (t : Text) : Trimmed (strip t) := by
  induction t with
  | nil => exact ⟨by simp [strip, trim, dropEndWhile], by simp [strip, trim, dropEndWhile]⟩
  | cons c t ih =>
    cases hc : c.isBlank with
    | true => rwa [strip_cons_of_blank hc]
    | false =>
      refine ⟨fun d hd => ?_, not_blank_of_mem_getLast?_dropEndWhile _⟩
      rw [strip_cons_of_not_blank hc] at hd
      cases hd
      exact hc

/-- Only the outer ends of texts next to each other have to be trimmed. -/
theorem Trimmed.append (hs : Trimmed s) (hsne : s ≠ []) (ht : Trimmed t) (htne : t ≠ [])
    (separator : Text) : Trimmed (s ++ separator ++ t) := by
  refine ⟨fun c hc => hs.head c ?_, fun c hc => ht.last c ?_⟩
  · cases s with
    | nil => exact absurd rfl hsne
    | cons d s => exact hc
  · have hsome : t.getLast?.isSome = true := by rwa [List.getLast?_isSome]
    rwa [List.getLast?_append, Option.or_of_isSome hsome] at hc

end SchemaAtlas.Text
