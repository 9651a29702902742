import SchemaAtlas.Proofs.Expr.Production

/-!
# What makes an expression unreadable

Apart from its depth there is one thing only that an expression can fail by: an escape sequence in
one of its strings, or in a key, whose number does not fit a word. What fails at a node thus fails
by an escape sequence that stands below it.
-/

namespace SchemaAtlas

namespace Expr

open Syntax (Tree Kind)

/-- Below a node stands an escape sequence whose number does not fit a word. -/
def HoldsBeyondWord (source : Bytes) (t : Tree) : Prop :=
  ∃ u : Syntax.Tree, u.Below t ∧ u.kind = .escapeSequence ∧
    Escape.decode (u.text source) = .error .beyondWord

variable {source : Bytes} {t c : Tree}

theorem HoldsBeyondWord.of_below (h : HoldsBeyondWord source c) (hc : c.Below t) :
    HoldsBeyondWord source t := by
  obtain ⟨u, hu, hkind, hdecode⟩ := h
  exact ⟨u, hu.trans hc, hkind, hdecode⟩

theorem HoldsBeyondWord.of_child (h : HoldsBeyondWord source c) (hc : c ∈ t.children) :
    HoldsBeyondWord source t :=
  h.of_below (.of_mem hc)

/-- A string cannot be read only for an escape sequence beyond a word. -/
theorem holdsBeyondWord_of_stringPart {e : Obstacle} (h : stringPart source t = .error e) :
    HoldsBeyondWord source t := by
  unfold stringPart at h
  split at h
  · cases h
  · next hkind =>
    split at h
    · cases h
    · next hdecode => exact ⟨t, .refl t, hkind, hdecode⟩
  · cases h

theorem holdsBeyondWord_of_stringValue {e : Obstacle} (h : stringValue source t = .error e) :
    HoldsBeyondWord source t := by
  unfold stringValue at h
  split at h
  · cases h
  · obtain ⟨part, hpart, hread⟩ := Except.exists_of_mapM_eq_error (Except.map_eq_error.mp h)
    exact (holdsBeyondWord_of_stringPart hread).of_child (Tree.mem_of_namedChildren hpart)

theorem holdsBeyondWord_of_keyOf {e : Obstacle} (h : keyOf source t = .error e) :
    HoldsBeyondWord source t := by
  unfold keyOf at h
  split at h
  · exact holdsBeyondWord_of_stringValue h
  · cases h

section Entries

variable {read : Tree → Except Obstacle Expr} {e : Obstacle}
  (hread : ∀ u, read u = .error e → HoldsBeyondWord source u)

include hread

/-- An entry cannot be read only for its key or its value. -/
theorem holdsBeyondWord_of_entryOf {before : List Tree}
    (h : entryOf source read before t = .error e) : HoldsBeyondWord source t := by
  unfold entryOf at h
  split at h
  · split at h
    · next key value hkey hvalue =>
      rcases Except.bind_eq_error.mp h with h | ⟨name, -, h⟩
      · exact (holdsBeyondWord_of_keyOf h).of_child (Tree.mem_of_child? hkey)
      · rcases Except.bind_eq_error.mp h with h | ⟨expr, -, h⟩
        · exact (hread value h).of_child (Tree.mem_of_child? hvalue)
        · cases h
    · cases h
  · cases h
  · cases h

theorem holdsBeyondWord_of_entriesOf (h : entriesOf source read t = .error e) :
    HoldsBeyondWord source t := by
  obtain ⟨p, hp, hentry⟩ := Except.exists_of_mapM_eq_error (Except.map_eq_error.mp h)
  have hmem := Tree.mem_of_namedChildren (Tree.mem_namedChildren_of_placed hp)
  exact (holdsBeyondWord_of_entryOf hread hentry).of_child hmem

end Entries

/-- A node fails as one of its strings does, or as one of its parts. -/
theorem holdsBeyondWord_of_ofNode {read : Kind → Tree → Except Obstacle Expr} {o : Obstacle}
    (hread : ∀ holder u, read holder u = .error o → HoldsBeyondWord source u)
    (h : ofNode source read t = .error o) : HoldsBeyondWord source t := by
  have hpart {u : Tree} {holder : Kind} (hu : u.Below t) (h : read holder u = .error o) :=
    (hread holder u h).of_below hu
  unfold ofNode at h
  cases hkind : t.kind <;> simp only [hkind] at h
  case memberExpression =>
    obtain ⟨receiver, hreceiver, h⟩ := ofMember_eq_error h
    exact hpart (.of_mem (Tree.mem_of_child? hreceiver)) h
  case callExpression =>
    obtain ⟨holder, u, hu, h⟩ := ofCall_eq_error h
    exact hpart hu h
  case string => exact holdsBeyondWord_of_stringValue (Except.map_eq_error.mp h)
  case templateString =>
    obtain ⟨u, hu, h⟩ := substitutionsOf_eq_error (Except.map_eq_error.mp h)
    exact hpart hu h
  case array | statementBlock =>
    obtain ⟨u, hu, h⟩ := expressions_eq_error (hkind ▸ Except.map_eq_error.mp h)
    exact hpart hu h
  case object => exact holdsBeyondWord_of_entriesOf (hread _) (Except.map_eq_error.mp h)
  case arrowFunction | functionExpression | function =>
    obtain ⟨body, hbody, h⟩ := ofPart_eq_error h
    exact hpart (.of_mem (Tree.mem_of_child? hbody)) h
  case parenthesizedExpression | returnStatement | asExpression | satisfiesExpression |
      nonNullExpression =>
    obtain ⟨u, hu, h⟩ := ofPart_eq_error h
    exact hpart (.of_mem (Tree.mem_of_expression? hu)) h
  all_goals cases h

/-- What is not too deep for the stack fails by an escape sequence below it. -/
theorem holdsBeyondWord_of_ofTree {stack : Stack}
    (h : ofTree source stack t = .error .codePointBeyondWord) : HoldsBeyondWord source t :=
  ofTree_induction (motive := fun t x => x = .error .codePointBeyondWord → HoldsBeyondWord source t)
    (fun _ h => by cases h) (fun _ _ hread h => holdsBeyondWord_of_ofNode hread h) stack t h

end Expr
end SchemaAtlas
