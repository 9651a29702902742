import SchemaAtlas.Files.Path

/-!
# The dialect of a file and of its document

A document is known by the path of its file below some root, and its dialect is told by an ending
without a slash. The case of letters behind a slash does not depend on what stands before it, so the
path and the name of the file tell the same dialect.
-/

namespace SchemaAtlas

open SchemaAtlas.Path (slash)

namespace Text

/-- A slash ends a word: it has no case and is not passed over. -/
theorem startsCased_append_slash (t rest : Text) :
    startsCased (t ++ slash :: rest) = startsCased t := by
  have hslash : slash.isCaseIgnorable = false ∧ slash.isCased = false := by decide +kernel
  induction t with
  | nil => simp [startsCased, hslash]
  | cons c t ih =>
    cases hc : c.isCaseIgnorable with
    | false => simp [startsCased, hc]
    | true => simpa [startsCased, List.dropWhile_cons, hc] using ih

/-- What stands before a slash does not matter to the letters behind it. -/
theorem lowerAfter_append_slash (before rest t : Text) :
    lowerAfter (before ++ slash :: rest) t = lowerAfter before t := by
  induction t generalizing before with
  | nil => rfl
  | cons c t ih =>
    have hcontext := ih (c :: before)
    rw [List.cons_append] at hcontext
    simp only [lowerAfter, lowerAt, startsCased_append_slash, hcontext]

/-- The lower-case form of what stands behind a slash is taken on its own. -/
theorem exists_lower_append_slash (s t : Text) :
    ∃ front, (s ++ slash :: t).lower = front ++ slash :: t.lower := by
  have hafter (before : Text) :
      ∃ front, lowerAfter before (s ++ slash :: t) = front ++ slash :: t.lower := by
    induction s generalizing before with
    | nil =>
      have hslash (after : Text) : lowerAt before slash after = [slash] := by
        have hlower : slash ≠ 0x130 ∧ slash ≠ 0x3A3 ∧ slash.lower = slash := by decide +kernel
        simp [lowerAt, hlower]
      refine ⟨[], ?_⟩
      rw [List.nil_append, lowerAfter, hslash]
      exact congrArg (slash :: ·) (lowerAfter_append_slash [] before t)
    | cons c s ih =>
      obtain ⟨front, hfront⟩ := ih (c :: before)
      exact ⟨lowerAt before c (s ++ slash :: t) ++ front, by
        rw [List.cons_append, lowerAfter, hfront, List.append_assoc]⟩
  exact hafter []

/-- An ending without a slash is sought behind the last one. -/
theorem endsWith_append_slash {ending : Text} (h : slash ∉ ending) (s t : Text) :
    (s ++ slash :: t).endsWith ending = t.endsWith ending := by
  have hiff : ending <:+ s ++ slash :: t ↔ ending <:+ t := by
    constructor
    · intro hending
      have hrest : slash :: t <:+ s ++ slash :: t := List.suffix_append s _
      rcases List.suffix_or_suffix_of_suffix hending hrest with hin | hover
      · rcases List.suffix_cons_iff.mp hin with rfl | hin
        · exact absurd List.mem_cons_self h
        · exact hin
      · exact absurd (hover.subset List.mem_cons_self) h
    · exact fun hending => hending.trans ((List.suffix_cons slash t).trans (List.suffix_append s _))
  rw [endsWith, endsWith, Bool.eq_iff_iff]
  simpa using hiff

/-- The last of several texts is joined to the others by the separator. -/
theorem join_concat (separator t : Text) {ts : List Text} (h : ts ≠ []) :
    join separator (ts ++ [t]) = join separator ts ++ separator ++ t := by
  induction ts with
  | nil => exact absurd rfl h
  | cons first rest ih =>
    cases rest with
    | nil => rfl
    | cons second rest =>
      have hrest := ih (List.cons_ne_nil second rest)
      simp only [List.cons_append] at hrest
      simp only [List.cons_append, join, hrest, List.append_assoc]

end Text

/-- The dialect is told by what stands behind the last slash. -/
theorem Dialect.ofFileName_append_slash (s t : Text) :
    ofFileName (s ++ slash :: t) = ofFileName t := by
  obtain ⟨front, hlower⟩ := Text.exists_lower_append_slash s t
  have hendings : ∀ ending ∈ markupEndings, slash ∉ ending := by decide
  have hany : markupEndings.any (s ++ slash :: t).lower.endsWith =
      markupEndings.any t.lower.endsWith := by
    rw [hlower, Bool.eq_iff_iff, List.any_eq_true, List.any_eq_true]
    refine exists_congr fun ending => and_congr_right fun hending => ?_
    rw [Text.endsWith_append_slash (hendings ending hending)]
  rw [ofFileName, hany, ofFileName]

namespace Path

/-- A written path ends with the file name, alone or behind a slash. -/
theorem toText_eq {p : Path} (h : p.parts ≠ []) :
    p.toText = p.fileName ∨ ∃ s, p.toText = s ++ slash :: p.fileName := by
  obtain ⟨anchor, parts⟩ := p
  obtain ⟨parts, last, rfl⟩ : ∃ others last, parts = others ++ [last] :=
    ⟨_, _, (List.dropLast_concat_getLast h).symm⟩
  have hname : fileName ⟨anchor, parts ++ [last]⟩ = last := by simp [fileName]
  have htext : toText ⟨anchor, parts ++ [last]⟩ =
      anchorText anchor ++ Text.join [slash] (parts ++ [last]) := by
    cases anchor <;> cases parts <;> rfl
  rw [hname, htext]
  cases parts with
  | nil =>
    cases anchor with
    | relative => exact .inl rfl
    | root => exact .inr ⟨[], rfl⟩
    | doubleRoot => exact .inr ⟨[slash], rfl⟩
  | cons part others =>
    refine .inr ⟨anchorText anchor ++ Text.join [slash] (part :: others), ?_⟩
    rw [Text.join_concat _ _ (List.cons_ne_nil part others)]
    simp

/-- The ending of a path is that of its file name. -/
theorem ofFileName_toText (p : Path) :
    Dialect.ofFileName p.toText = Dialect.ofFileName p.fileName := by
  by_cases h : p.parts = []
  · obtain ⟨anchor, parts⟩ := p
    cases h
    cases anchor <;> decide +kernel
  · rcases toText_eq h with hname | ⟨s, hname⟩
    · rw [hname]
    · rw [hname, Dialect.ofFileName_append_slash]

/-- No part of a path is empty. -/
def Proper (p : Path) : Prop := ∀ part ∈ p.parts, part ≠ []

theorem proper_ofText (t : Text) : (ofText t).Proper := by
  intro part hpart
  have hkept := (List.mem_filter.mp hpart).2
  rintro rfl
  simp at hkept

theorem toText_ne_nil {p : Path} (h : p.Proper) : p.toText ≠ [] := by
  by_cases hparts : p.parts = []
  · obtain ⟨anchor, parts⟩ := p
    cases hparts
    cases anchor <;> decide +kernel
  · have hname : p.fileName ≠ [] := by
      refine h p.fileName ?_
      rw [fileName, List.getLastD_eq_getLast?, List.getLast?_eq_some_getLast hparts]
      exact List.getLast_mem hparts
    rcases toText_eq hparts with htext | ⟨s, htext⟩ <;> simp [htext, hname]

/-- A document is known by the path of its file, or by the end of it that leads there from the
root. -/
theorem documentId_eq (p : Path) (root : Option Path) :
    p.documentId root = p.toText ∨ ∃ r, root = some r ∧ r.anchor = p.anchor ∧
      ∃ parts, p.parts = r.parts ++ parts ∧ p.documentId root = toText ⟨.relative, parts⟩ := by
  cases root with
  | none => exact .inl rfl
  | some r =>
    by_cases hbelow : p.anchor = r.anchor ∧ r.parts.isPrefixOf p.parts
    · obtain ⟨hanchor, hprefix⟩ := hbelow
      obtain ⟨parts, hparts⟩ := List.isPrefixOf_iff_prefix.mp hprefix
      refine .inr ⟨r, rfl, hanchor.symm, parts, hparts.symm, ?_⟩
      simp [documentId, relativeTo?, hanchor, ← hparts]
    · left
      rw [documentId, Option.bind_some, relativeTo?, if_neg hbelow, Option.getD_none]

/-- No document has the empty id. -/
theorem documentId_ne_nil {p : Path} (h : p.Proper) (root : Option Path) :
    p.documentId root ≠ [] := by
  rcases documentId_eq p root with hid | ⟨r, -, -, parts, hparts, hid⟩
  · rw [hid]
    exact toText_ne_nil h
  · rw [hid]
    refine toText_ne_nil fun part hpart => h part ?_
    rw [hparts]
    exact List.mem_append_right _ hpart

/-- The dialect of a file and that of its document are the same, unless the file is the root. -/
theorem ofFileName_documentId {p : Path} {root : Option Path} (h : root ≠ some p) :
    Dialect.ofFileName (p.documentId root) = Dialect.ofFileName p.fileName := by
  rcases documentId_eq p root with hid | ⟨r, rfl, hanchor, parts, hparts, hid⟩
  · rw [hid, ofFileName_toText]
  · have hrest : parts ≠ [] := by
      rintro rfl
      have hsame : r = p := by
        cases r
        cases p
        simp_all
      exact h (congrArg some hsame)
    have hname : p.fileName = fileName ⟨.relative, parts⟩ := by
      simp [fileName, hparts, List.getLast?_eq_some_getLast hrest]
    rw [hid, ofFileName_toText, hname]

/-- The name of a root that is a file is lost in the id of its document. -/
example : Dialect.ofFileName ((ofText "as.tsx").documentId (some (ofText "as.tsx"))) ≠
    Dialect.ofFileName (ofText "as.tsx").fileName := by
  decide +kernel

end Path
end SchemaAtlas
