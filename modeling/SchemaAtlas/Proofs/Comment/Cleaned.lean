import SchemaAtlas.Proofs.Text.Lines
import SchemaAtlas.Proofs.Text.Trimmed

/-!
# Cleaned lines of comments

A comment has one of three forms, which its first code points tell. The form fixes the marks that
are erased, and whether a star in front of a line is a margin. Whatever the form, a comment is
cleaned line by line, and its paragraphs are what stands between the lines that come out empty.
-/

namespace SchemaAtlas.Comment

open Text (Avoid)

inductive Form where
  | line
  | block
  | doc
  deriving DecidableEq, Repr

namespace Form

def opening : Form → Text
  | line => lineOpening
  | block => blockOpening
  | doc => docOpening

/-- The mark that closes a comment. A line comment ends with its line. -/
def closing : Form → Text
  | line => []
  | block => blockClosing
  | doc => blockClosing

def marks : Form → List Text
  | line => [lineOpening]
  | block => [blockOpening, blockClosing]
  | doc => [docOpening, blockClosing]

def of (comment : Text) : Form :=
  if docOpening.isPrefixOf comment then doc
  else if blockOpening.isPrefixOf comment then block
  else line

/-- A text without the star of the margin. Line comments have no margin. -/
def withoutStar : Form → Text → Text
  | line, t => t
  | _, [] => []
  | _, c :: rest => if c = star then rest else c :: rest

/-- No mark is empty or holds a blank. -/
theorem avoid_marks (form : Form) {c : CodePoint} (hc : c.isBlank = true) :
    Avoid form.marks c := by
  have hmarks : ∀ mark ∈ form.marks, mark ≠ [] ∧ mark.all (!·.isBlank) = true := by
    cases form <;> decide
  intro mark hmark
  obtain ⟨hne, hall⟩ := hmarks mark hmark
  refine ⟨hne, fun hmem => ?_⟩
  have hnot := List.all_eq_true.mp hall c hmem
  simp [hc] at hnot

/-- What follows a blank does not matter for the form. -/
theorem of_append_cons {c : CodePoint} (hc : c.isBlank = true) (s t : Text) :
    of (s ++ c :: t) = of s := by
  have hdoc : c ∉ docOpening := (avoid_marks doc hc docOpening (by decide)).2
  have hblock : c ∉ blockOpening := (avoid_marks block hc blockOpening (by decide)).2
  rw [of, of, Text.isPrefixOf_append_cons hdoc, Text.isPrefixOf_append_cons hblock]

end Form

variable {form : Form} {comment line s t : Text}

theorem isBlank_lineFeed : lineFeed.isBlank = true := by decide

theorem avoid_lineFeed (form : Form) : Avoid form.marks lineFeed :=
  form.avoid_marks isBlank_lineFeed

/-- A line of a comment without the marks and the star of its margin, trimmed. -/
def cleaned (form : Form) (line : Text) : Text :=
  (form.withoutStar (line.erase form.marks).strip).strip

theorem Form.withoutStar_cons (hform : form ≠ .line) (c : CodePoint) (t : Text) :
    form.withoutStar (c :: t) = if c = star then t else c :: t := by
  cases form with
  | line => exact absurd rfl hform
  | block => rfl
  | doc => rfl

/-- A blank in front of a text makes no difference once it is stripped. -/
theorem strip_dropBlank (t : Text) : (dropBlank t).strip = t.strip := by
  cases t with
  | nil => rfl
  | cons c rest =>
    rw [dropBlank]
    split
    · next hc => exact (Text.strip_cons_of_blank hc rest).symm
    · rfl

/-- To drop a margin with the blanks around its star is to drop the star of the trimmed line. -/
theorem strip_dropMargin (hform : form ≠ .line) (line : Text) :
    (dropMargin line).strip = (form.withoutStar line.strip).strip := by
  induction line with
  | nil => cases form <;> rfl
  | cons c rest ih =>
    cases hc : c.isBlank with
    | true =>
      rw [Text.strip_cons_of_blank hc, ← ih, dropMargin, List.dropWhile_cons_of_pos hc, dropMargin]
    | false =>
      rw [dropMargin, List.dropWhile_cons_of_neg (by simp [hc]), Text.strip_cons_of_not_blank hc,
        Form.withoutStar_cons hform]
      simp only
      split
      · rw [strip_dropBlank, Text.strip_dropEndWhile]
      · rw [← Text.strip_cons_of_not_blank hc]
        exact (Text.trimmed_strip (c :: rest)).strip_eq.symm

/-- A line without a star in front keeps its blanks, but not when it is trimmed. -/
theorem strip_dropStar (line : Text) : (dropStar line).strip = (dropMargin line).strip := by
  have hstrip := Text.strip_dropWhile line
  rw [dropStar, dropMargin]
  cases hline : line.dropWhile CodePoint.isBlank with
  | nil => rw [← hstrip, hline]
  | cons c rest =>
    simp only
    split
    · rfl
    · rw [← hstrip, hline]

/-- Whatever its form, a comment is cleaned line by line. -/
theorem cleanedLines_eq (h : Form.of comment = .line → lineFeed ∉ comment) :
    cleanedLines comment = comment.lines.map (cleaned (Form.of comment)) := by
  have hlines (form : Form) : (comment.erase form.marks).lines =
      comment.lines.map (Text.erase form.marks) := Text.lines_erase (avoid_lineFeed form) comment
  by_cases hdoc : docOpening.isPrefixOf comment = true
  · have hform : Form.of comment = .doc := if_pos hdoc
    have hcleaned (line : Text) : (dropStar line).strip = (Form.doc.withoutStar line.strip).strip :=
      (strip_dropStar line).trans (strip_dropMargin (by decide) line)
    rw [cleanedLines, if_pos hdoc, hform, show [docOpening, blockClosing] = Form.doc.marks from rfl,
      hlines .doc, List.map_map, List.map_map]
    exact List.map_congr_left fun line _ => hcleaned _
  · by_cases hblock : blockOpening.isPrefixOf comment = true
    · have hform : Form.of comment = .block := by rw [Form.of, if_neg hdoc, if_pos hblock]
      rw [cleanedLines, if_neg hdoc, if_pos hblock, hform,
        show [blockOpening, blockClosing] = Form.block.marks from rfl, hlines .block, List.map_map,
        List.map_map]
      exact List.map_congr_left fun line _ => strip_dropMargin (by decide) _
    · have hform : Form.of comment = .line := by rw [Form.of, if_neg hdoc, if_neg hblock]
      rw [cleanedLines, if_neg hdoc, if_neg hblock, hform, Text.lines_of_notMem (h hform),
        List.map_singleton, List.map_singleton]
      exact congrArg (fun t => [t]) (Text.trimmed_strip _).strip_eq.symm

/-- The paragraphs that cleaned lines form: the lines between those that are empty, joined by
spaces. -/
def paragraphs (ls : List Text) : List Text :=
  ((List.splitOn [] ls).filter (!·.isEmpty)).map (Text.join [space])

/-- The maximal runs are what stands between the empty lines. -/
theorem runs_eq {current : List Text} (h : [] ∉ current) (ls : List Text) :
    runs current ls = (List.splitOn [] (current ++ ls)).filter (!·.isEmpty) := by
  induction ls generalizing current with
  | nil =>
    rw [List.append_nil, List.splitOn_eq_singleton h, runs]
    cases current <;> rfl
  | cons line rest ih =>
    rw [runs]
    cases line with
    | nil =>
      have hrest := ih List.not_mem_nil
      rw [List.nil_append] at hrest
      rw [List.splitOn_append_cons_self, List.splitOn_eq_singleton h, hrest]
      cases current <;> rfl
    | cons c line =>
      have hnext : ([] : Text) ∉ current ++ [c :: line] := by simp [h]
      rw [if_neg (by simp), ih hnext, List.append_assoc]
      rfl

theorem normalize_eq (h : Form.of comment = .line → lineFeed ∉ comment) :
    normalize comment =
      Text.join [lineFeed] (paragraphs (comment.lines.map (cleaned (Form.of comment)))) := by
  rw [normalize, cleanedLines_eq h, runs_eq List.not_mem_nil, List.nil_append, paragraphs]

end SchemaAtlas.Comment
