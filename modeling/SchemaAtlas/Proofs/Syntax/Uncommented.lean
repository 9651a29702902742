import Mathlib.Data.List.Forall2
import SchemaAtlas.Proofs.Expr.Pruned
import SchemaAtlas.Syntax.Tree

/-!
# Trees without some of their comments

Comments are deleted from a concrete tree, and every other node keeps its place and its offsets. A
node looks its children up by role, or takes those that are named and no comments, and either way it
finds the same ones. Only the parts of a string are taken as they come, so a string keeps its
children.
-/

namespace SchemaAtlas

namespace Thinned

variable {α : Type} {droppable : α → Prop} {like : α → α → Prop} {as bs : List α}

theorem of_forall₂ (h : List.Forall₂ like as bs) : Thinned droppable like as bs := by
  induction h with
  | nil => exact .nil
  | cons hab _ ih => exact .keep hab ih

/-- A test that drops what may be dropped leaves lists that match member by member. -/
theorem forall₂_filter {q : α → Bool} (h : Thinned droppable like as bs)
    (hdrop : ∀ a, droppable a → q a = false) (hlike : ∀ a b, like a b → q a = q b) :
    List.Forall₂ like (as.filter q) (bs.filter q) := by
  induction h with
  | nil => exact .nil
  | drop ha _ ih => simpa [hdrop _ ha] using ih
  | @keep a b as bs hab _ ih =>
    have hsame := hlike a b hab
    cases hq : q a with
    | false => simpa [hq, ← hsame] using ih
    | true => simpa [hq, ← hsame] using List.Forall₂.cons hab ih

/-- What is found first by such a test matches, too. -/
theorem rel_find? {q : α → Bool} (h : Thinned droppable like as bs)
    (hdrop : ∀ a, droppable a → q a = false) (hlike : ∀ a b, like a b → q a = q b) :
    Option.Rel like (as.find? q) (bs.find? q) := by
  induction h with
  | nil => exact .none
  | drop ha _ ih => simpa [hdrop _ ha] using ih
  | @keep a b as bs hab _ ih =>
    have hsame := hlike a b hab
    cases hq : q a with
    | false => simpa [hq, ← hsame] using ih
    | true => simpa [hq, ← hsame] using Option.Rel.some hab

end Thinned

namespace Syntax.Tree

/-- A comment that plays no role in its parent. -/
def IsLooseComment (t : Tree) : Prop := t.kind = .comment ∧ t.role = none

/-- The same tree less some loose comments, none of them from within a string. -/
inductive Uncommented : Tree → Tree → Prop where
  | string (start stop : Nat) (named : Bool) (role : Option Role) {ts ts' : List Tree} :
      List.Forall₂ Uncommented ts ts' →
      Uncommented (node .string start stop named role ts) (node .string start stop named role ts')
  | node {kind : Kind} (hkind : kind ≠ .string) (start stop : Nat) (named : Bool)
      (role : Option Role) {ts ts' : List Tree} :
      Thinned IsLooseComment Uncommented ts ts' →
      Uncommented (node kind start stop named role ts) (node kind start stop named role ts')

namespace Uncommented

variable {t t' : Tree}

/-- All that a node knows of itself stays. -/
theorem same (h : Uncommented t t') : t'.kind = t.kind ∧ t'.start = t.start ∧ t'.stop = t.stop ∧
    t'.named = t.named ∧ t'.role = t.role := by
  cases h <;> exact ⟨rfl, rfl, rfl, rfl, rfl⟩

theorem kind_eq (h : Uncommented t t') : t'.kind = t.kind := h.same.1

theorem named_eq (h : Uncommented t t') : t'.named = t.named := h.same.2.2.2.1

theorem role_eq (h : Uncommented t t') : t'.role = t.role := h.same.2.2.2.2

theorem text_eq (h : Uncommented t t') (source : Bytes) : t'.text source = t.text source := by
  obtain ⟨-, hstart, hstop, -⟩ := h.same
  rw [text, hstart, hstop, text]

theorem children (h : Uncommented t t') :
    Thinned IsLooseComment Uncommented t.children t'.children := by
  cases h with
  | string start stop named role hchildren => exact .of_forall₂ hchildren
  | node hkind start stop named role hchildren => exact hchildren

/-- A child that plays a role is found again. -/
theorem child? (h : Uncommented t t') (role : Role) :
    Option.Rel Uncommented (t.child? role) (t'.child? role) := by
  refine h.children.rel_find? (fun c hc => ?_) (fun c c' hc => ?_)
  · simp [hc.2]
  · rw [hc.role_eq]

/-- Named children of any kinds but comments are found again. -/
theorem filter_namedChildren (h : Uncommented t t') {q : Kind → Bool} (hq : q .comment = false) :
    List.Forall₂ Uncommented (t.namedChildren.filter fun c => q c.kind)
      (t'.namedChildren.filter fun c => q c.kind) := by
  rw [namedChildren, List.filter_filter, namedChildren, List.filter_filter]
  refine h.children.forall₂_filter (fun c hc => ?_) (fun c c' hc => ?_)
  · rw [hc.1, hq, Bool.false_and]
  · rw [hc.kind_eq, hc.named_eq]

theorem expressions (h : Uncommented t t') :
    List.Forall₂ Uncommented t.expressions t'.expressions :=
  h.filter_namedChildren (q := fun kind => !kind == .comment) rfl

theorem expression? (h : Uncommented t t') :
    Option.Rel Uncommented t.expression? t'.expression? := by
  have hexpressions := h.expressions
  rw [Tree.expression?, Tree.expression?]
  generalize t.expressions = es, t'.expressions = es' at hexpressions
  cases hexpressions with
  | nil => exact .none
  | cons he _ => exact .some he

/-- The children with the siblings before them are thinned in the same way. -/
theorem placedChildren (h : Uncommented t t') :
    Thinned (fun p => IsLooseComment p.2) (fun p p' => Uncommented p.2 p'.2)
      t.placedChildren t'.placedChildren := by
  have hplaced {ts ts' : List Tree} (hts : Thinned IsLooseComment Uncommented ts ts') :
      ∀ before before', Thinned (fun p => IsLooseComment p.2) (fun p p' => Uncommented p.2 p'.2)
        (withBefore before ts) (withBefore before' ts') := by
    induction hts with
    | nil => exact fun _ _ => .nil
    | drop hc _ ih => exact fun before before' => .drop hc (ih _ _)
    | keep hc _ ih => exact fun before before' => .keep hc (ih _ _)
  exact hplaced h.children [] []

end Uncommented

mutual

/-- The tree without any of its loose comments. -/
def uncommented : Tree → Tree
  | node kind start stop named role ts =>
    node kind start stop named role (allUncommented (kind == .string) ts)

/-- The children of a node without loose comments; a string keeps those directly under it. -/
def allUncommented (inString : Bool) : List Tree → List Tree
  | [] => []
  | t :: ts =>
    if !inString && (t.kind == .comment && t.role == none) then allUncommented inString ts
    else t.uncommented :: allUncommented inString ts

end

mutual

/-- The comments of every tree can be deleted. -/
theorem uncommented_uncommented : ∀ t : Tree, Uncommented t t.uncommented
  | node kind start stop named role ts => by
    rw [uncommented]
    by_cases hkind : kind = .string
    · subst hkind
      exact .string start stop named role (forall₂_allUncommented ts)
    · have hnot : (kind == .string) = false := by simpa using hkind
      rw [hnot]
      exact .node hkind start stop named role (thinned_allUncommented ts)

theorem forall₂_allUncommented : ∀ ts : List Tree,
    List.Forall₂ Uncommented ts (allUncommented true ts)
  | [] => .nil
  | t :: ts => .cons (uncommented_uncommented t) (forall₂_allUncommented ts)

theorem thinned_allUncommented : ∀ ts : List Tree,
    Thinned IsLooseComment Uncommented ts (allUncommented false ts)
  | [] => .nil
  | t :: ts => by
    rw [allUncommented]
    split
    · next h =>
      simp only [Bool.not_false, Bool.true_and, Bool.and_eq_true, beq_iff_eq] at h
      exact .drop h (thinned_allUncommented ts)
    · exact .keep (uncommented_uncommented t) (thinned_allUncommented ts)

end

end Syntax.Tree
end SchemaAtlas
