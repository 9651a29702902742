import SchemaAtlas.Proofs.Text.Erased

/-!
# Texts line by line

The lines of a text are what stands between its line feeds. A mark without a line feed never reaches
across one, so marks can be erased from a text line by line.
-/

namespace SchemaAtlas.Text

variable {s t : Text} {marks : List Text}

/-- Splitting a text is splitting a list. -/
theorem splitOn_eq (separator : CodePoint) (t : Text) :
    splitOn separator t = List.splitOn separator t := by
  induction t with
  | nil => rfl
  | cons c rest ih =>
    rw [splitOn, List.splitOn_cons_eq_if_modifyHead, ih]
    by_cases hc : c = separator
    · simp [hc]
    · cases hrest : List.splitOn separator rest with
      | nil => exact absurd hrest (List.splitOn_ne_nil separator rest)
      | cons piece pieces => simp [hc]

/-- Joining texts is joining lists. -/
theorem join_eq (separator : Text) (ts : List Text) :
    join separator ts = separator.intercalate ts := by
  induction ts with
  | nil => rfl
  | cons t rest ih =>
    cases rest with
    | nil => simp [join]
    | cons next rest => rw [join, ih, List.intercalate_cons_cons]; simp

theorem join_cons_of_ne_nil (separator t : Text) {ts : List Text} (h : ts ≠ []) :
    join separator (t :: ts) = t ++ separator ++ join separator ts := by
  cases ts with
  | nil => exact absurd rfl h
  | cons s ts => rfl

/-- Nothing comes of joining texts that are not empty only if there are none. -/
theorem join_eq_nil_iff {separator : Text} {ts : List Text} (h : ∀ t ∈ ts, t ≠ []) :
    join separator ts = [] ↔ ts = [] := by
  refine ⟨fun hjoin => ?_, fun hnil => hnil ▸ rfl⟩
  cases ts with
  | nil => rfl
  | cons t ts =>
    have ht : t ≠ [] := h t List.mem_cons_self
    cases ts with
    | nil => exact absurd hjoin ht
    | cons s ts => simp [join, ht] at hjoin

theorem lines_append_lineFeed (s t : Text) : lines (s ++ lineFeed :: t) = lines s ++ lines t := by
  simp only [lines, splitOn_eq, List.splitOn_append_cons_self]

theorem lines_of_notMem (h : lineFeed ∉ t) : lines t = [t] := by
  rw [lines, splitOn_eq, List.splitOn_eq_singleton h]

/-- Lines without line feeds that are joined are the lines of what results. -/
theorem lines_join {ts : List Text} (h : ∀ t ∈ ts, lineFeed ∉ t) (hne : ts ≠ []) :
    lines (join [lineFeed] ts) = ts := by
  rw [lines, splitOn_eq, join_eq, List.splitOn_intercalate lineFeed h hne]

/-- A text is a single line, or a line with a line feed and a text behind it. -/
theorem lines_induction {motive : Text → Prop} (line : ∀ t, lineFeed ∉ t → motive t)
    (more : ∀ s t, lineFeed ∉ s → motive t → motive (s ++ lineFeed :: t)) (t : Text) :
    motive t := by
  have hfrom (s : Text) (hs : lineFeed ∉ s) : motive (s ++ t) := by
    induction t generalizing s with
    | nil => simpa using line s hs
    | cons c rest ih =>
      by_cases hc : c = lineFeed
      · subst hc
        exact more s rest hs (ih [] (by simp))
      · have hnext := ih (s ++ [c]) (by simp [hs, Ne.symm hc])
        simpa using hnext
  exact hfrom [] (by simp)

theorem lineFeed_notMem_of_mem_lines {line : Text} (h : line ∈ lines t) : lineFeed ∉ line := by
  induction t using lines_induction with
  | line t ht =>
    rw [lines_of_notMem ht, List.mem_singleton] at h
    rwa [h]
  | more s t hs ih =>
    rw [lines_append_lineFeed, lines_of_notMem hs, List.singleton_append, List.mem_cons] at h
    rcases h with rfl | h
    · exact hs
    · exact ih h

/-- Marks without line feeds are erased line by line. -/
theorem lines_erase (h : Avoid marks lineFeed) (t : Text) :
    lines (erase marks t) = (lines t).map (erase marks) := by
  have hsub (s : Text) (hs : lineFeed ∉ s) : lineFeed ∉ erase marks s := fun hmem =>
    hs ((eraseMarks_sublist marks 0 s).subset hmem)
  induction t using lines_induction with
  | line t ht => rw [lines_of_notMem ht, lines_of_notMem (hsub t ht), List.map_singleton]
  | more s t hs ih =>
    rw [erase_append_cons h, lines_append_lineFeed, lines_append_lineFeed, ih, List.map_append,
      lines_of_notMem hs, lines_of_notMem (hsub s hs), List.map_singleton]

end SchemaAtlas.Text
