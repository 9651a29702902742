import SchemaAtlas.Proofs.Files.Dialect
import SchemaAtlas.Proofs.Text.Lines

/-!
# Which paths share a document id

A path that is read is read again from how it is written, so different paths are written
differently. An id is the path as it is written from the root on, where it lies below the root, and
the whole path otherwise; so the only paths that share one are a path below the root and the path
that says, as it stands, how to get there from the root.
-/

namespace SchemaAtlas

open SchemaAtlas.Path (slash)

theorem Text.separator_notMem_of_mem_splitOn {separator : CodePoint} {t piece : Text}
    (h : piece ∈ splitOn separator t) : separator ∉ piece := by
  induction t generalizing piece with
  | nil => simp_all [splitOn]
  | cons c rest ih =>
    unfold splitOn at h
    split at h
    · rcases List.mem_cons.mp h with rfl | h
      · exact List.not_mem_nil
      · exact ih h
    · next hc =>
      split at h
      · simpa [List.mem_singleton.mp h] using Ne.symm hc
      · next first pieces hrest =>
        rw [hrest] at ih
        rcases List.mem_cons.mp h with rfl | h
        · simpa [Ne.symm hc] using ih (.head _)
        · exact ih (.tail _ h)

namespace Path

/-- Paths as they are read: no part is empty, a dot, or holds a slash. -/
def Normal (p : Path) : Prop := ∀ part ∈ p.parts, part ≠ [] ∧ part ≠ ("." : Text) ∧ slash ∉ part

theorem normal_ofText (t : Text) : (ofText t).Normal := by
  intro part hpart
  obtain ⟨hmem, hkept⟩ := List.mem_filter.mp hpart
  simp only [Bool.and_eq_true, Bool.not_eq_true', List.isEmpty_eq_false_iff, bne_iff_ne] at hkept
  exact ⟨hkept.1, hkept.2, Text.separator_notMem_of_mem_splitOn hmem⟩

/-- The text of a path with parts: its anchor and the parts between slashes. -/
theorem toText_of_parts {p : Path} (h : p.parts ≠ []) :
    p.toText = anchorText p.anchor ++ Text.join [slash] p.parts := by
  obtain ⟨anchor, parts⟩ := p
  cases anchor with
  | relative =>
    cases parts with
    | nil => exact absurd rfl h
    | cons part rest => rfl
  | root => rfl
  | doubleRoot => rfl

/-- An anchor is read back from the front of a text. -/
theorem anchorOf_append {t : Text} (h : t.head? ≠ some slash) (anchor : Anchor) :
    anchorOf (anchorText anchor ++ t) = anchor := by
  have htake : t.takeWhile (· = slash) = [] := by
    cases t with
    | nil => rfl
    | cons c rest =>
      have hc : c ≠ slash := by simpa using h
      simp [hc]
  cases anchor <;> simp [anchorOf, anchorText, htake]

theorem filter_splitOn_append {keep : Text → Bool} (h : keep [] = false) (anchor : Anchor)
    (t : Text) : (Text.splitOn slash (anchorText anchor ++ t)).filter keep =
      (Text.splitOn slash t).filter keep := by
  cases anchor <;> simp [anchorText, Text.splitOn, h]

/-- A path is read again from how it is written. -/
theorem ofText_toText {p : Path} (h : p.Normal) : ofText p.toText = p := by
  by_cases hparts : p.parts = []
  · obtain ⟨anchor, parts⟩ := p
    cases hparts
    cases anchor <;> decide +kernel
  · have hhead : (Text.join [slash] p.parts).head? ≠ some slash := by
      obtain ⟨part, rest, hfirst⟩ := List.exists_cons_of_ne_nil hparts
      obtain ⟨hpart, -, hslash⟩ := h part (hfirst ▸ .head _)
      obtain ⟨c, letters, rfl⟩ := List.exists_cons_of_ne_nil hpart
      have hc : c ≠ slash := fun hc => hslash (hc ▸ .head _)
      rw [hfirst]
      cases rest <;> simpa [Text.join] using hc
    have hsplit : Text.splitOn slash (Text.join [slash] p.parts) = p.parts := by
      rw [Text.splitOn_eq, Text.join_eq]
      exact List.splitOn_intercalate slash (fun part hpart => (h part hpart).2.2) hparts
    have hkept : p.parts.filter (fun part => !part.isEmpty && part != ("." : Text)) = p.parts :=
      List.filter_eq_self.mpr fun part hpart => by simp [h part hpart]
    rw [toText_of_parts hparts, ofText, anchorOf_append hhead, filter_splitOn_append rfl, hsplit,
      hkept]

theorem toText_inj {p q : Path} (hp : p.Normal) (hq : q.Normal) :
    p.toText = q.toText ↔ p = q := by
  refine ⟨fun h => ?_, fun h => h ▸ rfl⟩
  rw [← ofText_toText hp, h, ofText_toText hq]

variable {p q r : Path}

/-- The path from a root leads on from its parts. -/
theorem relativeTo?_eq_some_iff : p.relativeTo? r = some q ↔
    p.anchor = r.anchor ∧ p.parts = r.parts ++ q.parts ∧ q.anchor = .relative := by
  obtain ⟨anchor, parts⟩ := q
  simp only [relativeTo?, Option.ite_none_right_eq_some, List.isPrefixOf_iff_prefix,
    Option.some.injEq, Path.mk.injEq]
  constructor
  · rintro ⟨⟨hanchor, rest, hrest⟩, rfl, rfl⟩
    simp [hanchor, ← hrest]
  · rintro ⟨hanchor, hparts, rfl⟩
    simp [hanchor, hparts]

theorem Normal.relativeTo? (hp : p.Normal) (h : p.relativeTo? r = some q) : q.Normal := by
  obtain ⟨-, hparts, -⟩ := relativeTo?_eq_some_iff.mp h
  exact fun part hpart => hp part (hparts ▸ List.mem_append_right _ hpart)

/-- A path below the root stands in the way of another that is not: from the root on it is written
as the other one is. -/
def Shadows (root : Option Path) (p q : Path) : Prop :=
  ∃ r, root = some r ∧ p.relativeTo? r = some q ∧ q.relativeTo? r = none

@[simp] theorem not_shadows_none : ¬ Shadows none p q := by simp [Shadows]

@[simp] theorem shadows_some :
    Shadows (some r) p q ↔ p.relativeTo? r = some q ∧ q.relativeTo? r = none := by
  simp [Shadows]

instance (root : Option Path) (p q : Path) : Decidable (Shadows root p q) :=
  match root with
  | none => isFalse not_shadows_none
  | some _ => decidable_of_iff _ shadows_some.symm

/-- Two paths collide if one of them shadows the other. -/
def Collides (root : Option Path) (p q : Path) : Prop := Shadows root p q ∨ Shadows root q p

instance (root : Option Path) (p q : Path) : Decidable (Collides root p q) :=
  inferInstanceAs (Decidable (Shadows root p q ∨ Shadows root q p))

/-- Two paths share a document id iff they are the same or collide. -/
theorem documentId_eq_iff (hp : p.Normal) (hq : q.Normal) (root : Option Path) :
    p.documentId root = q.documentId root ↔ p = q ∨ Collides root p q := by
  unfold Collides
  cases root with
  | none => simp [documentId, toText_inj hp hq]
  | some r =>
    simp only [documentId, Option.bind_some, shadows_some]
    cases hp' : p.relativeTo? r with
    | none =>
      cases hq' : q.relativeTo? r with
      | none => simp [toText_inj hp hq]
      | some q' =>
        have hne : p ≠ q := fun h => by simp [← h, hp'] at hq'
        simp [toText_inj hp (hq.relativeTo? hq'), hne, eq_comm]
    | some p' =>
      cases hq' : q.relativeTo? r with
      | none =>
        have hne : p ≠ q := fun h => by simp [← h, hp'] at hq'
        simp [toText_inj (hp.relativeTo? hp') hq, hne]
      | some q' =>
        obtain ⟨hpr, hpparts, hp''⟩ := relativeTo?_eq_some_iff.mp hp'
        obtain ⟨hqr, hqparts, hq''⟩ := relativeTo?_eq_some_iff.mp hq'
        have hsame : p' = q' ↔ p = q := by
          constructor
          · rintro rfl
            cases p
            cases q
            exact congrArg₂ Path.mk (hpr.trans hqr.symm) (hpparts.trans hqparts.symm)
          · rintro rfl
            exact Option.some.inj (hp'.symm.trans hq')
        simp [toText_inj (hp.relativeTo? hp') (hq.relativeTo? hq'), hsame]

end Path
end SchemaAtlas
