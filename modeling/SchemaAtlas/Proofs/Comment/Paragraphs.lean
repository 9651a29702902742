import SchemaAtlas.Proofs.Comment.Cleaned

/-!
# Paragraphs and layout of comments

The documentation text of a comment has a line for each of its paragraphs, and no line that is empty
or starts or ends with a blank. The layout of the comment does not matter: how its lines end, the
blanks around them, and how many blank lines divide two paragraphs. The documentation text of
several groups is that of the first group with a comment that has any.
-/

namespace SchemaAtlas.Comment

open Text (AllBlank Avoid Trimmed Within)

variable {form : Form} {comment line s t : Text} {ls : List Text}

/-! ### Paragraphs -/

/-- No run is empty, and none holds an empty line. -/
theorem ne_nil_of_mem_runs {current : List Text} (h : [] ∉ current) :
    ∀ run ∈ runs current ls, run ≠ [] ∧ [] ∉ run := by
  induction ls generalizing current with
  | nil =>
    intro run hrun
    rw [runs] at hrun
    cases current with
    | nil => cases hrun
    | cons first rest =>
      rw [List.mem_singleton.mp hrun]
      exact ⟨List.cons_ne_nil first rest, h⟩
  | cons line rest ih =>
    intro run hrun
    rw [runs] at hrun
    cases line with
    | nil =>
      cases current with
      | nil => exact ih h run hrun
      | cons first others =>
        rcases List.mem_cons.mp hrun with rfl | hrun
        · exact ⟨List.cons_ne_nil first others, h⟩
        · exact ih List.not_mem_nil run hrun
    | cons c line => exact ih (by simp [h]) run hrun

/-- Trimmed lines joined by spaces make a trimmed text. -/
theorem trimmed_join {run : List Text} (hne : run ≠ [])
    (h : ∀ line ∈ run, line ≠ [] ∧ Trimmed line) : Trimmed (Text.join [space] run) := by
  induction run with
  | nil => exact absurd rfl hne
  | cons line rest ih =>
    obtain ⟨hline, hrest⟩ := List.forall_mem_cons.mp h
    cases rest with
    | nil => exact hline.2
    | cons next rest =>
      have hjoin : Text.join [space] (next :: rest) ≠ [] := by
        rw [Ne, Text.join_eq_nil_iff fun t ht => (hrest t ht).1]
        exact List.cons_ne_nil next rest
      rw [Text.join_cons_of_ne_nil _ _ (List.cons_ne_nil next rest)]
      exact hline.2.append hline.1 (ih (List.cons_ne_nil next rest) hrest) hjoin [space]

/-- The paragraphs of trimmed lines are trimmed lines. -/
theorem trimmed_of_mem_paragraphs (h : ∀ line ∈ ls, Trimmed line ∧ lineFeed ∉ line) :
    ∀ paragraph ∈ paragraphs ls, paragraph ≠ [] ∧ Trimmed paragraph ∧ lineFeed ∉ paragraph := by
  intro paragraph hparagraph
  obtain ⟨run, hrun, rfl⟩ := List.mem_map.mp hparagraph
  rw [← List.nil_append ls, ← runs_eq List.not_mem_nil] at hrun
  obtain ⟨hne, hnil⟩ := ne_nil_of_mem_runs List.not_mem_nil run hrun
  have hlines : ∀ line ∈ run, line ≠ [] ∧ Trimmed line ∧ lineFeed ∉ line := fun line hline =>
    ⟨fun heq => hnil (heq ▸ hline),
      h line ((mem_of_mem_runs hrun line hline).resolve_left List.not_mem_nil)⟩
  have hspace : Within (· ≠ lineFeed) [space] := Text.within_singleton.mpr (by decide)
  have hwithin : Within (· ≠ lineFeed) (Text.join [space] run) :=
    Text.within_join hspace fun line hline c hc heq => (hlines line hline).2.2 (heq ▸ hc)
  refine ⟨?_, trimmed_join hne fun line hline => ⟨(hlines line hline).1, (hlines line hline).2.1⟩,
    fun hmem => hwithin lineFeed hmem rfl⟩
  rw [Ne, Text.join_eq_nil_iff fun line hline => (hlines line hline).1]
  exact hne

theorem withoutStar_subset (form : Form) (t : Text) : ∀ c ∈ form.withoutStar t, c ∈ t := by
  intro c hc
  by_cases hform : form = .line
  · rwa [hform] at hc
  · cases t with
    | nil => cases form <;> exact hc
    | cons d t =>
      rw [Form.withoutStar_cons hform] at hc
      split at hc
      · exact List.mem_cons_of_mem d hc
      · exact hc

/-- What is left of a line is a trimmed part of it. -/
theorem trimmed_of_mem_cleaned (form : Form) (comment : Text) :
    ∀ line ∈ comment.lines.map (cleaned form), Trimmed line ∧ lineFeed ∉ line := by
  intro line hline
  obtain ⟨raw, hraw, rfl⟩ := List.mem_map.mp hline
  have hwithin : Within (· ≠ lineFeed) raw := fun c hc heq =>
    Text.lineFeed_notMem_of_mem_lines hraw (heq ▸ hc)
  have hcleaned : Within (· ≠ lineFeed) (cleaned form raw) :=
    ((hwithin.erase form.marks).strip.mono (withoutStar_subset form _)).strip
  exact ⟨Text.trimmed_strip _, fun hmem => hcleaned lineFeed hmem rfl⟩

/-! ### Layout -/

theorem avoid_of_allBlank (h : AllBlank s) : ∀ c ∈ s, Avoid form.marks c :=
  fun c hc => form.avoid_marks (h c hc)

/-- Blanks in front of a line do not matter. -/
theorem cleaned_append_left (h : AllBlank s) (line : Text) :
    cleaned form (s ++ line) = cleaned form line := by
  rw [cleaned, cleaned, Text.erase_append_left (avoid_of_allBlank h), Text.strip_append_left h]

/-- Blanks behind a line do not matter. -/
theorem cleaned_append_right (h : AllBlank s) (line : Text) :
    cleaned form (line ++ s) = cleaned form line := by
  rw [cleaned, cleaned, Text.erase_append_right (avoid_of_allBlank h), Text.strip_append_right h]

theorem map_cleaned_append (form : Form) (s t : Text) :
    (s ++ lineFeed :: t).lines.map (cleaned form) =
      s.lines.map (cleaned form) ++ t.lines.map (cleaned form) := by
  rw [Text.lines_append_lineFeed, List.map_append]

theorem map_cleaned_of_notMem (h : lineFeed ∉ t) :
    t.lines.map (cleaned form) = [cleaned form t] := by
  rw [Text.lines_of_notMem h, List.map_singleton]

/-- Blanks before the first line leave no trace in the cleaned lines. -/
theorem map_cleaned_append_left {blanks : Text} (h : AllBlank blanks)
    (hlineFeed : lineFeed ∉ blanks) (t : Text) :
    (blanks ++ t).lines.map (cleaned form) = t.lines.map (cleaned form) := by
  have hfirst (s : Text) (hs : lineFeed ∉ s) :
      (blanks ++ s).lines.map (cleaned form) = s.lines.map (cleaned form) := by
    have hnot : lineFeed ∉ blanks ++ s := by simp [hlineFeed, hs]
    rw [map_cleaned_of_notMem hnot, map_cleaned_of_notMem hs, cleaned_append_left h]
  cases t using Text.lines_induction with
  | line t ht => exact hfirst t ht
  | more s t hs =>
    rw [← List.append_assoc, map_cleaned_append, map_cleaned_append, hfirst s hs]

theorem map_cleaned_append_right {blanks : Text} (h : AllBlank blanks)
    (hlineFeed : lineFeed ∉ blanks) (t : Text) :
    (t ++ blanks).lines.map (cleaned form) = t.lines.map (cleaned form) := by
  induction t using Text.lines_induction with
  | line t ht =>
    have hnot : lineFeed ∉ t ++ blanks := by simp [hlineFeed, ht]
    rw [map_cleaned_of_notMem hnot, map_cleaned_of_notMem ht, cleaned_append_right h]
  | more s t hs ih =>
    rw [List.append_assoc, List.cons_append, map_cleaned_append, map_cleaned_append, ih]

def withReturns (t : Text) : Text :=
  t.replace fun c => if c = lineFeed then [carriageReturn, lineFeed] else [c]

theorem withReturns_of_notMem (h : lineFeed ∉ t) : withReturns t = t := by
  induction t with
  | nil => rfl
  | cons c t ih =>
    rw [List.mem_cons, not_or] at h
    obtain ⟨hc, ht⟩ := h
    have hrest : withReturns (c :: t) = c :: withReturns t := by
      simp [withReturns, Text.replace, Ne.symm hc]
    rw [hrest, ih ht]

theorem withReturns_append (hs : lineFeed ∉ s) (t : Text) :
    withReturns (s ++ lineFeed :: t) = s ++ carriageReturn :: lineFeed :: withReturns t := by
  have happend : withReturns (s ++ lineFeed :: t) =
      withReturns s ++ carriageReturn :: lineFeed :: withReturns t := by
    simp [withReturns, Text.replace]
  rw [happend, withReturns_of_notMem hs]

/-- Carriage returns at the ends of lines leave no trace either. -/
theorem map_cleaned_withReturns (t : Text) :
    (withReturns t).lines.map (cleaned form) = t.lines.map (cleaned form) := by
  induction t using Text.lines_induction with
  | line t ht => rw [withReturns_of_notMem ht]
  | more s t hs ih =>
    have hblank : AllBlank [carriageReturn] := List.forall_mem_singleton.mpr rfl
    have hsplit : s ++ carriageReturn :: lineFeed :: withReturns t =
        (s ++ [carriageReturn]) ++ lineFeed :: withReturns t := by simp
    rw [withReturns_append hs, hsplit, map_cleaned_append, map_cleaned_append,
      map_cleaned_append_right hblank (by decide), ih]

theorem of_withReturns (t : Text) : Form.of (withReturns t) = Form.of t := by
  induction t using Text.lines_induction with
  | line t ht => rw [withReturns_of_notMem ht]
  | more s t hs ih =>
    rw [withReturns_append hs, Form.of_append_cons (by decide),
      Form.of_append_cons isBlank_lineFeed]

structure TextFree (form : Form) (line : Text) : Prop where
  single : lineFeed ∉ line
  empty : cleaned form line = []

/-- A text is another one laid out anew: all line feeds become carriage returns with line feeds,
blanks change at the start of a line that is not the first or at the end of a line that is not the
last, or a line without text gets a neighbour without text. -/
inductive Relaid (form : Form) : Text → Text → Prop
  | symm {s t : Text} (h : Relaid form s t) : Relaid form t s
  | trans {s t u : Text} (hst : Relaid form s t) (htu : Relaid form t u) : Relaid form s u
  | returns (t : Text) : Relaid form t (withReturns t)
  | indented {blanks : Text} (hblank : AllBlank blanks) (hlineFeed : lineFeed ∉ blanks)
    (s t : Text) : Relaid form (s ++ lineFeed :: t) (s ++ lineFeed :: (blanks ++ t))
  | trailed {blanks : Text} (hblank : AllBlank blanks) (hlineFeed : lineFeed ∉ blanks)
    (s t : Text) : Relaid form (s ++ lineFeed :: t) (s ++ blanks ++ lineFeed :: t)
  | before {line added : Text} (hline : TextFree form line) (hadded : TextFree form added)
    (s t : Text) : Relaid form (s ++ lineFeed :: (line ++ lineFeed :: t))
      (s ++ lineFeed :: (added ++ lineFeed :: (line ++ lineFeed :: t)))
  | behind {line added : Text} (hline : TextFree form line) (hadded : TextFree form added)
    (s t : Text) : Relaid form (s ++ lineFeed :: (line ++ lineFeed :: t))
      (s ++ lineFeed :: (line ++ lineFeed :: (added ++ lineFeed :: t)))

/-- A second empty line behind an empty line divides no more than the first. -/
theorem paragraphs_append_nil (ls ms : List Text) :
    paragraphs (ls ++ [] :: [] :: ms) = paragraphs (ls ++ [] :: ms) := by
  have hnil : List.splitOn ([] : Text) ([] :: ms) = [] :: List.splitOn [] ms := by
    simpa using List.splitOn_append_cons_self ([] : List Text) ms
  rw [paragraphs, paragraphs, List.splitOn_append_cons_self, List.splitOn_append_cons_self, hnil]
  simp

theorem TextFree.map_cleaned (h : TextFree form line) (t : Text) :
    (line ++ lineFeed :: t).lines.map (cleaned form) = [] :: t.lines.map (cleaned form) := by
  rw [map_cleaned_append, map_cleaned_of_notMem h.single, h.empty, List.singleton_append]

/-- The layout matters neither for the form nor for the paragraphs. -/
theorem Relaid.preserves (h : Relaid form s t) : Form.of t = Form.of s ∧
    paragraphs (t.lines.map (cleaned form)) = paragraphs (s.lines.map (cleaned form)) := by
  -- The form is told in front of the first line feed, where only blanks can be added.
  have hof (s t u : Text) : Form.of (s ++ lineFeed :: t) = Form.of (s ++ lineFeed :: u) := by
    rw [Form.of_append_cons isBlank_lineFeed, Form.of_append_cons isBlank_lineFeed]
  induction h with
  | symm h ih => exact ⟨ih.1.symm, ih.2.symm⟩
  | trans hst htu ihst ihtu => exact ⟨ihtu.1.trans ihst.1, ihtu.2.trans ihst.2⟩
  | returns t => exact ⟨of_withReturns t, by rw [map_cleaned_withReturns]⟩
  | indented hblank hlineFeed s t =>
    refine ⟨hof s _ _, ?_⟩
    rw [map_cleaned_append, map_cleaned_append, map_cleaned_append_left hblank hlineFeed]
  | @trailed blanks hblank hlineFeed s t =>
    constructor
    · cases blanks with
      | nil => rw [List.append_nil]
      | cons c rest =>
        have hc : c.isBlank = true := hblank c List.mem_cons_self
        rw [List.append_assoc, List.cons_append, Form.of_append_cons hc,
          Form.of_append_cons isBlank_lineFeed]
    · rw [map_cleaned_append, map_cleaned_append, map_cleaned_append_right hblank hlineFeed]
  | before hline hadded s t =>
    refine ⟨hof s _ _, ?_⟩
    rw [map_cleaned_append form s, map_cleaned_append form s, hadded.map_cleaned,
      hline.map_cleaned, paragraphs_append_nil]
  | behind hline hadded s t =>
    refine ⟨hof s _ _, ?_⟩
    rw [map_cleaned_append form s, map_cleaned_append form s, hline.map_cleaned,
      hline.map_cleaned, hadded.map_cleaned, paragraphs_append_nil]

/-- A text has a line for each paragraph of a comment, and no other layout of the comment would make
another text. -/
structure InParagraphs (comment text : Text) : Prop where
  joined : text =
    Text.join [lineFeed] (paragraphs (comment.lines.map (cleaned (Form.of comment))))
  lines : text ≠ [] → text.lines = paragraphs (comment.lines.map (cleaned (Form.of comment)))
  trimmed : text ≠ [] → ∀ line ∈ text.lines, line ≠ [] ∧ Trimmed line
  relaid : ∀ other, Relaid (Form.of comment) comment other → normalize other = text

/-- A block comment is cleaned to paragraphs. -/
theorem inParagraphs_normalize (hopening : blockOpening <+: comment) :
    InParagraphs comment (normalize comment) := by
  have hform : Form.of comment ≠ .line := by
    have hblock : blockOpening.isPrefixOf comment = true := List.isPrefixOf_iff_prefix.mpr hopening
    rw [Form.of, if_pos hblock]
    split <;> decide
  have hjoined := normalize_eq fun hline => absurd hline hform
  have hparagraphs := trimmed_of_mem_paragraphs (trimmed_of_mem_cleaned (Form.of comment) comment)
  have hlines (hne : normalize comment ≠ []) : (normalize comment).lines =
      paragraphs (comment.lines.map (cleaned (Form.of comment))) := by
    rw [hjoined] at hne ⊢
    refine Text.lines_join (fun paragraph h => (hparagraphs paragraph h).2.2) fun hnil => hne ?_
    rw [hnil]
    rfl
  refine ⟨hjoined, hlines, fun hne line hline => ?_, fun other hother => ?_⟩
  · rw [hlines hne] at hline
    exact ⟨(hparagraphs line hline).1, (hparagraphs line hline).2.1⟩
  · obtain ⟨hsame, hpreserved⟩ := hother.preserves
    rw [normalize_eq fun hline => absurd (hsame ▸ hline) hform, hsame, hpreserved, hjoined]

/-! ### Groups of comments -/

def texts (group : List Text) : List Text := (group.map normalize).filter (!·.isEmpty)

theorem ne_nil_of_mem_texts {group : List Text} : ∀ t ∈ texts group, t ≠ [] := by
  intro t ht
  simpa using (List.mem_filter.mp ht).2

theorem texts_eq_nil_iff {group : List Text} :
    texts group = [] ↔ ∀ comment ∈ group, normalize comment = [] := by
  simp [texts]

theorem groupText_eq_nil_iff {group : List Text} : groupText group = [] ↔ texts group = [] :=
  Text.join_eq_nil_iff ne_nil_of_mem_texts

/-- A text is the documentation of groups of comments: that of the first group that has any. -/
structure Documents (groups : List (List Text)) (text? : Option Text) : Prop where
  none_iff : text? = none ↔ ∀ group ∈ groups, ∀ comment ∈ group, normalize comment = []
  first : ∀ text, text? = some text → text ≠ [] ∧ ∃ before group behind,
    groups = before ++ group :: behind ∧
    (∀ earlier ∈ before, ∀ comment ∈ earlier, normalize comment = []) ∧
    (∃ comment ∈ group, normalize comment ≠ []) ∧ text = Text.join [lineFeed] (texts group)

/-- The documentation of several groups of comments is that of the first one that has any. -/
theorem documents_documentation? (groups : List (List Text)) :
    Documents groups (documentation? groups) := by
  have hempty (group : List Text) :
      (!(groupText group).isEmpty) = false ↔ ∀ comment ∈ group, normalize comment = [] := by
    rw [← texts_eq_nil_iff, ← groupText_eq_nil_iff]
    simp
  have hfind : documentation? groups =
      (groups.find? fun group => !(groupText group).isEmpty).map groupText := List.find?_map
  constructor
  · rw [hfind, Option.map_eq_none_iff, List.find?_eq_none]
    refine forall₂_congr fun group _ => ?_
    rw [Bool.not_eq_true, hempty]
  · intro text htext
    rw [hfind, Option.map_eq_some_iff] at htext
    obtain ⟨group, hgroup, rfl⟩ := htext
    obtain ⟨hfirst, before, behind, rfl, hbefore⟩ := List.find?_eq_some_iff_append.mp hgroup
    have hne : groupText group ≠ [] := by simpa using hfirst
    refine ⟨hne, before, group, behind, rfl, fun earlier hearlier => ?_, ?_, rfl⟩
    · rw [← hempty]
      simpa using hbefore earlier hearlier
    · rw [Ne, groupText_eq_nil_iff, texts_eq_nil_iff] at hne
      simpa using hne

/-- The text of a block comment is the list of its paragraphs, whatever its layout, and groups of
comments are documented by the first one that has any text. -/
theorem inParagraphs_and_documents (hopening : blockOpening <+: comment)
    (groups : List (List Text)) :
    InParagraphs comment (normalize comment) ∧ Documents groups (documentation? groups) :=
  ⟨inParagraphs_normalize hopening, documents_documentation? groups⟩

def usersComment : Text := "/**\n * People who sign in.\n *\n * One row\n   each.\n */"

theorem inParagraphs_and_documents_users :
    blockOpening <+: usersComment ∧ InParagraphs usersComment (normalize usersComment) ∧
      Documents [["/***/"], ["//", usersComment]] (documentation? [["/***/"], ["//", usersComment]])
      ∧ normalize usersComment = "People who sign in.\nOne row each." :=
  have hopening : blockOpening <+: usersComment := by decide
  have h := inParagraphs_and_documents hopening [["/***/"], ["//", usersComment]]
  ⟨hopening, h.1, h.2, by decide +kernel⟩

end SchemaAtlas.Comment
