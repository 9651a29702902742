import SchemaAtlas.Proofs.Comment.Paragraphs

/-!
# Content of comments

The visible code points of a comment's text are those of its lines without the stars of their
margins, once the marks are erased. Marks are erased wherever they fit, not only around the body. So
a comment keeps its content unless its opening mark fits again, and the text of a comment without
content is empty unless the comment is the empty block comment: the star of its closing mark makes
its opening mark that of a documentation comment.
-/

namespace SchemaAtlas.Comment

open Text (AllBlank)

variable {form : Form} {comment body left t : Text}

/-! ### Visible code points -/

/-- The code points of a text that are not blank. -/
def visible (t : Text) : Text := t.filter (!·.isBlank)

theorem visible_append (s t : Text) : visible (s ++ t) = visible s ++ visible t :=
  List.filter_append s t

theorem visible_cons_of_blank {c : CodePoint} (hc : c.isBlank = true) (t : Text) :
    visible (c :: t) = visible t := List.filter_cons_of_neg (by simp [hc])

theorem visible_cons_of_not_blank {c : CodePoint} (hc : c.isBlank = false) (t : Text) :
    visible (c :: t) = c :: visible t := List.filter_cons_of_pos (by simp [hc])

theorem visible_eq_nil_iff : visible t = [] ↔ AllBlank t := by
  simp [visible, AllBlank, List.filter_eq_nil_iff]

theorem visible_dropEndWhile (t : Text) :
    visible (t.dropEndWhile CodePoint.isBlank) = visible t := by
  obtain ⟨blanks, hblanks, hsplit⟩ := Text.exists_blanks_dropEndWhile t
  conv => rhs; rw [hsplit, visible_append, visible_eq_nil_iff.mpr hblanks, List.append_nil]

/-- Stripping a text takes nothing visible. -/
theorem visible_strip (t : Text) : visible t.strip = visible t := by
  induction t with
  | nil => rfl
  | cons c t ih =>
    cases hc : c.isBlank with
    | true => rw [Text.strip_cons_of_blank hc, visible_cons_of_blank hc, ih]
    | false =>
      rw [Text.strip_cons_of_not_blank hc, visible_cons_of_not_blank hc,
        visible_cons_of_not_blank hc, visible_dropEndWhile]

/-- Blanks between texts are not visible. -/
theorem visible_join {separator : Text} (h : visible separator = []) (ts : List Text) :
    visible (Text.join separator ts) = (ts.map visible).flatten := by
  induction ts with
  | nil => rfl
  | cons t rest ih =>
    by_cases hrest : rest = []
    · rw [hrest]
      simp [Text.join]
    · rw [Text.join_cons_of_ne_nil _ _ hrest, visible_append, visible_append, h, ih]
      simp

/-- The runs hold every line that is not empty, in order. -/
theorem flatten_runs (current ls : List Text) :
    (runs current ls).flatten = current ++ ls.filter (!·.isEmpty) := by
  induction ls generalizing current with
  | nil =>
    rw [runs]
    cases current <;> simp
  | cons line rest ih =>
    rw [runs]
    cases line with
    | nil => cases current <;> simp [ih]
    | cons c line => simp [ih]

/-- What is visible of a cleaned comment is what is visible of its cleaned lines. -/
theorem visible_normalize (comment : Text) :
    visible (normalize comment) = ((cleanedLines comment).map visible).flatten := by
  have hparagraph : visible ∘ Text.join [space] = fun run => (run.map visible).flatten :=
    funext (visible_join rfl)
  have hempty (ls : List Text) :
      ((ls.filter (!·.isEmpty)).map visible).flatten = (ls.map visible).flatten := by
    induction ls with
    | nil => rfl
    | cons line rest ih => cases line <;> simp [ih, visible]
  calc visible (normalize comment)
      = ((runs [] (cleanedLines comment)).map fun run => (run.map visible).flatten).flatten := by
        rw [normalize, visible_join rfl, List.map_map, hparagraph]
    _ = ((runs [] (cleanedLines comment)).flatten.map visible).flatten := by
        rw [List.map_flatten, List.flatten_flatten, List.map_map]
        rfl
    _ = ((cleanedLines comment).map visible).flatten := by
        rw [flatten_runs, List.nil_append, hempty]

/-- The text of a comment is empty if nothing of it is visible: its paragraphs are trimmed. -/
theorem normalize_eq_nil_iff (h : Form.of comment = .line → lineFeed ∉ comment) :
    normalize comment = [] ↔ visible (normalize comment) = [] := by
  refine ⟨fun hnil => by rw [hnil]; rfl, fun hvisible => ?_⟩
  have hparagraphs := trimmed_of_mem_paragraphs (trimmed_of_mem_cleaned (Form.of comment) comment)
  rw [normalize_eq h] at hvisible ⊢
  rw [visible_join rfl, List.flatten_eq_nil_iff] at hvisible
  cases hps : paragraphs (comment.lines.map (cleaned (Form.of comment))) with
  | nil => rfl
  | cons paragraph rest =>
    rw [hps] at hvisible hparagraphs
    obtain ⟨hne, htrimmed, -⟩ := hparagraphs paragraph List.mem_cons_self
    have hblank := visible_eq_nil_iff.mp (hvisible _ (List.mem_map_of_mem List.mem_cons_self))
    cases paragraph with
    | nil => exact absurd rfl hne
    | cons c paragraph =>
      have hc := htrimmed.head c rfl
      rw [hblank c List.mem_cons_self] at hc
      cases hc

/-! ### Content -/

/-- What is visible of a body, line by line, without the stars of the margin. -/
def content (form : Form) (body : Text) : Text :=
  (body.lines.map fun line => visible (form.withoutStar line.strip)).flatten

/-- The text of a comment shows what it holds once the marks are erased. -/
theorem visible_normalize_eq (h : Form.of comment = .line → lineFeed ∉ comment) :
    visible (normalize comment) =
      content (Form.of comment) (comment.erase (Form.of comment).marks) := by
  rw [visible_normalize, cleanedLines_eq h, content, Text.lines_erase (avoid_lineFeed _),
    List.map_map, List.map_map]
  exact congrArg List.flatten (List.map_congr_left fun line _ => visible_strip _)

def Form.hasMargin (form : Form) : Bool := form ≠ .line

/-- The visible code points without the stars of margins; `fresh` says that only blanks stand before
the text in its line. -/
def unstarred (fresh : Bool) : Text → Text
  | [] => []
  | c :: rest =>
    if c = lineFeed then unstarred true rest
    else if c.isBlank then unstarred fresh rest
    else if c = star ∧ fresh = true then unstarred false rest
    else c :: unstarred false rest

/-- The star of a margin is looked for on each line for itself. -/
theorem unstarred_append (fresh : Bool) (s t : Text) :
    unstarred fresh (s ++ lineFeed :: t) = unstarred fresh s ++ unstarred true t := by
  induction s generalizing fresh with
  | nil => simp [unstarred]
  | cons c s ih =>
    simp only [List.cons_append, unstarred, ih]
    split
    · rfl
    · split
      · rfl
      · split <;> rfl

theorem unstarred_false_of_notMem (h : lineFeed ∉ t) : unstarred false t = visible t := by
  induction t with
  | nil => rfl
  | cons c t ih =>
    rw [List.mem_cons, not_or] at h
    rw [unstarred, if_neg (Ne.symm h.1), ih h.2]
    cases hc : c.isBlank <;> simp [visible, hc]

theorem unstarred_true_of_notMem (hform : form ≠ .line) (h : lineFeed ∉ t) :
    unstarred true t = visible (form.withoutStar t.strip) := by
  induction t with
  | nil => cases form <;> rfl
  | cons c t ih =>
    rw [List.mem_cons, not_or] at h
    rw [unstarred, if_neg (Ne.symm h.1)]
    cases hc : c.isBlank with
    | true => rw [if_pos rfl, ih h.2, Text.strip_cons_of_blank hc]
    | false =>
      rw [Text.strip_cons_of_not_blank hc, Form.withoutStar_cons hform,
        unstarred_false_of_notMem h.2]
      by_cases hstar : c = star
      · simp [hstar, visible_dropEndWhile]
      · simp [hstar, visible_cons_of_not_blank hc, visible_dropEndWhile]

/-- The content of a comment in terms of stars alone. -/
theorem content_eq (h : form = .line → lineFeed ∉ body) :
    content form body = unstarred form.hasMargin body := by
  by_cases hform : form = .line
  · subst hform
    have hbody := h rfl
    have hmargin : Form.line.hasMargin = false := rfl
    rw [content, Text.lines_of_notMem hbody, hmargin, unstarred_false_of_notMem hbody]
    simp [Form.withoutStar, visible_strip]
  · have hmargin : form.hasMargin = true := decide_eq_true hform
    rw [hmargin]
    induction body using Text.lines_induction with
    | line t ht =>
      rw [content, Text.lines_of_notMem ht, unstarred_true_of_notMem hform ht]
      simp
    | more s t hs ih =>
      have htail := ih fun hline => absurd hline hform
      rw [content] at htail
      rw [content, Text.lines_append_lineFeed, Text.lines_of_notMem hs, unstarred_append,
        unstarred_true_of_notMem hform hs, ← htail]
      simp

/-! ### What is left of a body -/

def slash : CodePoint := 0x2F

/-- The comment of a form around a body. -/
def Form.enclose (form : Form) (body : Text) : Text := form.opening ++ body ++ form.closing

/-- The bodies of the comments of a form. A star in front of the body of a block comment would make
it a documentation comment. -/
def Form.Admits : Form → Text → Prop
  | line, body => lineFeed ∉ body
  | block, body => ¬ blockClosing <:+: body ∧ body.head? ≠ some star
  | doc, body => ¬ blockClosing <:+: body

instance (form : Form) (body : Text) : Decidable (form.Admits body) :=
  match form with
  | .line => inferInstanceAs (Decidable (lineFeed ∉ body))
  | .block => inferInstanceAs (Decidable (¬ blockClosing <:+: body ∧ body.head? ≠ some star))
  | .doc => inferInstanceAs (Decidable (¬ blockClosing <:+: body))

/-- Every comment between the marks of a block comment has one of the forms. -/
theorem exists_admits_enclose (h : ¬ blockClosing <:+: body) :
    ∃ form inner, Form.Admits form inner ∧
      form.enclose inner = blockOpening ++ body ++ blockClosing := by
  by_cases hstar : body.head? = some star
  · cases body with
    | nil => cases hstar
    | cons c inner =>
      cases hstar
      have hinner : ¬ blockClosing <:+: inner := fun hoccurs =>
        h (hoccurs.trans (List.suffix_cons star inner).isInfix)
      exact ⟨.doc, inner, hinner, rfl⟩
  · exact ⟨.block, body, ⟨h, hstar⟩, rfl⟩

/-- What the opening mark can take from the closing mark. -/
def Form.overhang : Form → Text
  | line => []
  | block => []
  | doc => [star]

/-- The opening mark fits again behind itself. -/
def Form.Reopens (form : Form) (body : Text) : Prop := form.opening <:+: body ++ form.overhang

instance (form : Form) (body : Text) : Decidable (form.Reopens body) :=
  inferInstanceAs (Decidable (_ <:+: _))

/-- What is left of a body when the marks are erased: where the opening mark fits it goes, if need
be with the star of the closing mark, whose slash then stays. -/
inductive Leaves (form : Form) : Text → Text → Prop
  | nil : Leaves form [] []
  | mark {body left : Text} (h : Leaves form body left) : Leaves form (form.opening ++ body) left
  | straddled (hform : form = .doc) : Leaves form [slash, star] [slash]
  | keep {c : CodePoint} {body left : Text}
    (hopening : ¬ form.opening <+: c :: body ++ form.overhang) (h : Leaves form body left) :
    Leaves form (c :: body) (c :: left)

theorem find?_marks_opening (form : Form) (t : Text) :
    form.marks.find? (·.isPrefixOf (form.opening ++ t)) = some form.opening := by
  have hfits : form.opening.isPrefixOf (form.opening ++ t) = true :=
    List.isPrefixOf_iff_prefix.mpr (List.prefix_append _ _)
  cases form <;> exact List.find?_cons_of_pos hfits

theorem erase_opening_append (form : Form) (t : Text) :
    Text.erase form.marks (form.opening ++ t) = Text.erase form.marks t := by
  have hne : form.opening ≠ [] := by cases form <;> decide
  exact Text.erase_mark hne (find?_marks_opening form t)

theorem blockOpening_eq : blockOpening = [slash, star] := rfl

theorem docOpening_eq : docOpening = [slash, star, star] := rfl

theorem blockClosing_eq : blockClosing = [star, slash] := rfl

theorem star_ne_slash : star ≠ slash := by decide

theorem mem_marks {mark : Text} (h : mark ∈ form.marks) :
    mark = form.opening ∨ form ≠ .line ∧ mark = blockClosing := by
  cases form <;> simpa [Form.marks, Form.opening] using h

/-- The closing mark does not start in a body without it. -/
theorem blockClosing_fits {c : CodePoint}
    (h : blockClosing <+: c :: body ++ blockClosing) : blockClosing <:+: c :: body := by
  cases body with
  | nil => simp [blockClosing_eq, Ne.symm star_ne_slash] at h
  | cons d body =>
    have hlength : blockClosing.length ≤ (c :: d :: body).length := by simp [blockClosing_eq]
    exact (List.prefix_of_prefix_length_le h (List.prefix_append _ _) hlength).isInfix

/-- An opening mark that starts in a body fits in it with the overhang, except for the slash at the
end of a block comment. -/
theorem opening_fits {c : CodePoint} (h : form.opening <+: c :: body ++ form.closing) :
    form.opening <+: c :: body ++ form.overhang ∨ form = .block ∧ c :: body = [slash] := by
  cases form with
  | line => exact .inl h
  | block =>
    cases body with
    | nil =>
      have hc : slash = c := by
        simpa [Form.opening, Form.closing, blockOpening_eq, blockClosing_eq] using h
      exact .inr ⟨rfl, by rw [hc]⟩
    | cons d body =>
      have hlength : blockOpening.length ≤ (c :: d :: body).length := by simp [blockOpening_eq]
      have hfits := List.prefix_of_prefix_length_le h (List.prefix_append _ _) hlength
      exact .inl (by simpa [Form.overhang] using hfits)
  | doc =>
    cases body with
    | nil =>
      simp [Form.opening, Form.closing, docOpening_eq, blockClosing_eq, star_ne_slash] at h
    | cons d body =>
      have hlength : docOpening.length ≤ (c :: d :: body ++ [star]).length := by
        simp [docOpening_eq]
      have hoverhang : c :: d :: body ++ [star] <+: c :: d :: body ++ Form.doc.closing :=
        ⟨[slash], by simp [Form.closing, blockClosing_eq]⟩
      exact .inl (List.prefix_of_prefix_length_le h hoverhang hlength)

/-- An opening mark that fits only with the overhang starts with the last two code points. -/
theorem eq_of_opening_overhangs {c : CodePoint} (hnot : ¬ form.opening <+: c :: body)
    (h : form.opening <+: c :: body ++ form.overhang) :
    form = .doc ∧ c :: body = [slash, star] := by
  cases form with
  | line => exact absurd (by simpa [Form.overhang] using h) hnot
  | block => exact absurd (by simpa [Form.overhang] using h) hnot
  | doc =>
    refine ⟨rfl, ?_⟩
    cases body with
    | nil => simp [Form.opening, Form.overhang, docOpening_eq] at h
    | cons d body =>
      cases body with
      | nil =>
        have hmarks : slash = c ∧ star = d := by
          simpa [Form.opening, Form.overhang, docOpening_eq] using h
        rw [hmarks.1, hmarks.2]
      | cons e body =>
        have hlength : docOpening.length ≤ (c :: d :: e :: body).length := by simp [docOpening_eq]
        exact absurd (List.prefix_of_prefix_length_le h (List.prefix_append _ _) hlength) hnot

/-- No mark fits where the opening mark does not, unless the closing mark completes it. -/
theorem find?_marks_eq_none {c : CodePoint}
    (hoverhang : ¬ form.opening <+: c :: body ++ form.overhang)
    (hclosing : form = .line ∨ ¬ blockClosing <:+: c :: body)
    (hslash : ¬ (form = .block ∧ c :: body = [slash])) :
    form.marks.find? (·.isPrefixOf (c :: body ++ form.closing)) = none := by
  rw [List.find?_eq_none]
  intro mark hmark hfits
  rw [List.isPrefixOf_iff_prefix] at hfits
  rcases mem_marks hmark with rfl | ⟨hform, rfl⟩
  · exact (opening_fits hfits).elim hoverhang hslash
  · have hend : form.closing = blockClosing := by
      cases form with
      | line => exact absurd rfl hform
      | block => rfl
      | doc => rfl
    rw [hend] at hfits
    exact hclosing.elim hform fun hnot => hnot (blockClosing_fits hfits)

/-- What erasing the marks leaves of a body without a closing mark: the opening mark fits at the
start, or with the star of the closing mark, or the first code point stays. -/
theorem leaves_erase (form : Form) (body : Text)
    (hclosing : form = .line ∨ ¬ blockClosing <:+: body) :
    Leaves form body (Text.erase form.marks (body ++ form.closing)) := by
  have hsuffix {rest : Text} (h : rest <:+ body) : form = .line ∨ ¬ blockClosing <:+: rest :=
    hclosing.imp_right fun hnot hoccurs => hnot (hoccurs.trans h.isInfix)
  by_cases hopening : form.opening <+: body
  · obtain ⟨rest, rfl⟩ := hopening
    have hlength : rest.length < (form.opening ++ rest).length := by
      have hpositive : 0 < form.opening.length := by cases form <;> decide
      rw [List.length_append]
      omega
    rw [List.append_assoc, erase_opening_append]
    exact .mark (leaves_erase form rest (hsuffix (List.suffix_append _ _)))
  · cases body with
    | nil =>
      have hnil : Text.erase form.marks form.closing = [] := by cases form <;> decide
      rw [List.nil_append, hnil]
      exact .nil
    | cons c rest =>
      by_cases hoverhang : form.opening <+: c :: rest ++ form.overhang
      · obtain ⟨rfl, hbody⟩ := eq_of_opening_overhangs hopening hoverhang
        have herase : Text.erase Form.doc.marks ([slash, star] ++ Form.doc.closing) = [slash] := by
          decide
        rw [hbody, herase]
        exact .straddled rfl
      · by_cases hslash : form = .block ∧ c :: rest = [slash]
        · -- The slash of the body goes and that of the closing mark stays: the text is the same.
          obtain ⟨rfl, hbody⟩ := hslash
          have herase : Text.erase Form.block.marks ([slash] ++ Form.block.closing) = [slash] := by
            decide
          rw [hbody] at hoverhang ⊢
          rw [herase]
          exact .keep hoverhang .nil
        · have hnone := find?_marks_eq_none hoverhang hclosing hslash
          rw [List.cons_append] at hnone ⊢
          rw [Text.erase_cons hnone]
          exact .keep hoverhang (leaves_erase form rest (hsuffix (List.suffix_cons _ _)))
termination_by body.length

/-- At the start of a line no more of a text is left than in the middle of one. -/
theorem length_unstarred_le (fresh : Bool) (t : Text) :
    (unstarred fresh t).length ≤ (unstarred false t).length := by
  induction t with
  | nil => exact Nat.le_refl 0
  | cons c t ih =>
    simp only [unstarred]
    split
    · exact Nat.le_refl _
    · split
      · exact ih
      · split
        · simp
        · simp

theorem unstarred_opening (form : Form) (fresh : Bool) (t : Text) :
    unstarred fresh (form.opening ++ t) = form.opening ++ unstarred false t := by
  cases form <;> rfl

/-- A body is left as it is, or less of it is visible. -/
theorem Leaves.eq_or_lt (h : Leaves form body left) :
    (¬ form.Reopens body ∧ left = body) ∨ (form.Reopens body ∧
      ∀ fresh, (unstarred fresh left).length < (unstarred fresh body).length) := by
  induction h with
  | nil =>
    have hnot : ¬ form.Reopens [] := by cases form <;> decide
    exact .inl ⟨hnot, rfl⟩
  | @mark body left h ih =>
    refine .inr ⟨⟨[], body ++ form.overhang, by simp⟩, fun fresh => ?_⟩
    have hopening : 0 < form.opening.length := by cases form <;> decide
    have hfresh := length_unstarred_le fresh body
    have hleft : (unstarred fresh left).length ≤ (unstarred fresh body).length := by
      rcases ih with ⟨-, rfl⟩ | ⟨-, hlt⟩
      · exact Nat.le_refl _
      · exact Nat.le_of_lt (hlt fresh)
    rw [unstarred_opening, List.length_append]
    omega
  | straddled hform =>
    subst hform
    refine .inr ⟨by decide, fun fresh => ?_⟩
    cases fresh <;> decide
  | @keep c body left hopening h ih =>
    have hreopens : form.Reopens (c :: body) ↔ form.Reopens body := by
      rw [Form.Reopens, List.cons_append, List.infix_cons_iff, Form.Reopens]
      exact or_iff_right hopening
    rw [hreopens]
    refine ih.imp (fun hsame => ⟨hsame.1, by rw [hsame.2]⟩) fun hless => ⟨hless.1, fun fresh => ?_⟩
    simp only [unstarred]
    split
    · exact hless.2 true
    · split
      · exact hless.2 fresh
      · split
        · exact hless.2 false
        · simpa using hless.2 false

/-! ### Comments that keep their content -/

/-- The opening mark fits again behind itself, or it runs into the closing mark. -/
def Form.Erodes (form : Form) (body : Text) : Prop :=
  form.Reopens body ∨ form = .block ∧ body = []

instance (form : Form) (body : Text) : Decidable (form.Erodes body) :=
  inferInstanceAs (Decidable (_ ∨ _))

/-- A comment has the form that it was given, `/**/` apart. -/
theorem of_enclose (hadmits : form.Admits body) (hne : ¬ (form = .block ∧ body = [])) :
    Form.of (form.enclose body) = form := by
  cases form with
  | line => rfl
  | block =>
    cases body with
    | nil => exact absurd ⟨rfl, rfl⟩ hne
    | cons c body =>
      have hc : star ≠ c := fun heq => hadmits.2 (by rw [heq]; rfl)
      have hdoc : ¬ docOpening.isPrefixOf (Form.block.enclose (c :: body)) = true := by
        rw [List.isPrefixOf_iff_prefix]
        simp [Form.enclose, Form.opening, docOpening_eq, blockOpening_eq, hc]
      have hblock : blockOpening.isPrefixOf (Form.block.enclose (c :: body)) = true := by
        rw [List.isPrefixOf_iff_prefix, Form.enclose, List.append_assoc]
        exact List.prefix_append _ _
      rw [Form.of, if_neg hdoc, if_pos hblock]
  | doc =>
    have hdoc : docOpening.isPrefixOf (Form.doc.enclose body) = true := by
      rw [List.isPrefixOf_iff_prefix, Form.enclose, List.append_assoc]
      exact List.prefix_append _ _
    exact if_pos hdoc

theorem Form.Admits.single (h : form.Admits body) (hline : form = .line) : lineFeed ∉ body := by
  subst hline
  exact h

theorem Form.Admits.closing (h : form.Admits body) : form = .line ∨ ¬ blockClosing <:+: body := by
  cases form with
  | line => exact .inl rfl
  | block => exact .inr h.1
  | doc => exact .inr h

/-- Line comments are single lines. -/
theorem lineFeed_notMem_enclose (h : form.Admits body)
    (hof : Form.of (form.enclose body) = .line) : lineFeed ∉ form.enclose body := by
  by_cases hempty : form = .block ∧ body = []
  · obtain ⟨rfl, rfl⟩ := hempty
    exact absurd hof (by decide)
  · rw [of_enclose h hempty] at hof
    have hbody := h.single hof
    have hopening : lineFeed ∉ lineOpening := by decide
    subst hof
    simp [Form.enclose, Form.opening, Form.closing, hopening, hbody]

/-- The text of a comment shows the content of its body, or less than that. -/
theorem visible_normalize_eq_or_lt (h : form.Admits body) (hempty : ¬ (form = .block ∧ body = [])) :
    (¬ form.Reopens body ∧ visible (normalize (form.enclose body)) = content form body) ∨
      (form.Reopens body ∧
        (visible (normalize (form.enclose body))).length < (content form body).length) := by
  have hleft (hline : form = .line) :
      lineFeed ∉ Text.erase form.marks (body ++ form.closing) := by
    have hbody := h.single hline
    subst hline
    intro hmem
    have hmem := (Text.eraseMarks_sublist _ 0 _).subset hmem
    simp [Form.closing, hbody] at hmem
  have hvisible : visible (normalize (form.enclose body)) =
      unstarred form.hasMargin (Text.erase form.marks (body ++ form.closing)) := by
    rw [visible_normalize_eq (lineFeed_notMem_enclose h), of_enclose h hempty, Form.enclose,
      List.append_assoc, erase_opening_append, content_eq hleft]
  rw [hvisible, content_eq h.single]
  refine (leaves_erase form body h.closing).eq_or_lt.imp (fun hsame => ⟨hsame.1, ?_⟩)
    fun hless => ⟨hless.1, hless.2 _⟩
  rw [hsame.2]

/-- A comment keeps its content exactly if its opening mark fits only once and does not run into the
closing mark; then the text of a comment without content is empty. Where the opening mark fits
again, content is lost. -/
theorem visible_normalize_enclose (h : form.Admits body) :
    (visible (normalize (form.enclose body)) = content form body ↔ ¬ form.Erodes body) ∧
      (content form body = [] → (normalize (form.enclose body) = [] ↔ ¬ form.Erodes body)) ∧
      (form.Reopens body →
        (visible (normalize (form.enclose body))).length < (content form body).length) := by
  have hkeeps : (visible (normalize (form.enclose body)) = content form body ↔
      ¬ form.Erodes body) ∧ (form.Reopens body →
        (visible (normalize (form.enclose body))).length < (content form body).length) := by
    by_cases hempty : form = .block ∧ body = []
    · have herodes : form.Erodes body := .inr hempty
      obtain ⟨rfl, rfl⟩ := hempty
      have hcontent : visible (normalize (Form.block.enclose [])) ≠ content .block [] := by decide
      have hnot : ¬ Form.block.Reopens [] := by decide
      exact ⟨iff_of_false hcontent (not_not.mpr herodes), fun hreopens => absurd hreopens hnot⟩
    · have herodes : form.Erodes body ↔ form.Reopens body := or_iff_left hempty
      rw [herodes]
      rcases visible_normalize_eq_or_lt h hempty with ⟨hnot, heq⟩ | ⟨hreopens, hless⟩
      · exact ⟨iff_of_true heq hnot, fun hreopens => absurd hreopens hnot⟩
      · have hne : visible (normalize (form.enclose body)) ≠ content form body :=
          fun heq => Nat.lt_irrefl _ (heq ▸ hless)
        exact ⟨iff_of_false hne (not_not.mpr hreopens), fun _ => hless⟩
  refine ⟨hkeeps.1, fun hcontent => ?_, hkeeps.2⟩
  rw [normalize_eq_nil_iff (lineFeed_notMem_enclose h), ← hkeeps.1, hcontent]

def addressBody : Text := "\n * See https://a.b/c*\n * or /* below.\n "

theorem visible_normalize_enclose_address :
    Form.doc.Admits addressBody ∧
      visible (normalize (Form.doc.enclose addressBody)) = "Seehttps://a.b/c*or/*below." :=
  have hadmits : Form.doc.Admits addressBody := by decide +kernel
  have hkeeps : ¬ Form.doc.Erodes addressBody := by decide +kernel
  ⟨hadmits, ((visible_normalize_enclose hadmits).1.mpr hkeeps).trans (by decide +kernel)⟩

/-- The empty block comment has a slash for a text, and a line comment loses the slashes within. -/
theorem visible_normalize_eroded :
    (Form.block.Admits [] ∧ content .block [] = [] ∧ normalize (Form.block.enclose []) = "/") ∧
      Form.line.Admits "a//b" ∧ content .line "a//b" = "a//b" ∧
      visible (normalize (Form.line.enclose "a//b")) = "ab" := by
  decide +kernel

end SchemaAtlas.Comment
