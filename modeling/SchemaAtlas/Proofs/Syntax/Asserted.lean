import SchemaAtlas.Proofs.Outcome
import SchemaAtlas.Syntax.Tree

/-!
# Trees with type assertions

A type assertion is a node around an expression: `e as T`, `e satisfies T` or `e!`. Any number of
them may be put around an expression, wherever a node has one: as an initial value or a callee,
among arguments, in parentheses, and so on. An assertion takes over the role of what it encloses.
Before that expression it holds no other, only comments and punctuation, and behind it anything. All
other nodes keep their offsets and their roles.
-/

namespace SchemaAtlas

section Lists

variable {α : Type} {R : α → α → Prop} {q : α → Bool} {as bs : List α}

theorem forall₂_takeWhile (h : List.Forall₂ R as bs) (hq : ∀ a b, R a b → q a = q b) :
    List.Forall₂ R (as.takeWhile q) (bs.takeWhile q) := by
  induction h with
  | nil => exact .nil
  | @cons a b as bs hab _ ih =>
    rw [List.takeWhile_cons, List.takeWhile_cons, hq a b hab]
    cases q b with
    | false => exact .nil
    | true => exact .cons hab ih

theorem forall₂_dropWhile (h : List.Forall₂ R as bs) (hq : ∀ a b, R a b → q a = q b) :
    List.Forall₂ R (as.dropWhile q) (bs.dropWhile q) := by
  induction h with
  | nil => exact .nil
  | @cons a b as bs hab hrest ih =>
    rw [List.dropWhile_cons, List.dropWhile_cons, hq a b hab]
    cases q b with
    | false => exact .cons hab hrest
    | true => exact ih

theorem forall₂_filter (h : List.Forall₂ R as bs) (hq : ∀ a b, R a b → q a = q b) :
    List.Forall₂ (fun a b => q a = true ∧ R a b) (as.filter q) (bs.filter q) := by
  refine (List.forall₂_and_left _ _).mpr ⟨fun a ha => (List.mem_filter.mp ha).2, ?_⟩
  exact List.rel_filter (fun a b hab => by simp only [hq a b hab]) h

end Lists

namespace Syntax

def Kind.isAssertion (kind : Kind) : Bool :=
  kind == .asExpression || kind == .satisfiesExpression || kind == .nonNullExpression

namespace Tree

/-- Whether a child stands where a node of a kind, in its role, has an expression. What plays the
part of parameters holds patterns, and a pattern is no expression. -/
def isOperandIn (kind : Kind) (role : Option Role) (child : Tree) : Bool :=
  role != some .parameters && child.role != some .pattern &&
    match kind with
    | .variableDeclarator | .pair => child.role == some .value
    | .memberExpression => child.role == some .object
    | .callExpression =>
      child.role == some .function || (child.role == some .arguments && child.kind != .arguments)
    | .arrowFunction | .functionExpression | .function => child.role == some .body
    | .arguments | .array | .parenthesizedExpression | .returnStatement | .templateSubstitution
    | .asExpression | .satisfiesExpression | .nonNullExpression => true
    | _ => false

mutual

/-- The same tree with type assertions around some of its expressions; `operand` tells whether the
tree itself is an expression that may be asserted. -/
inductive Asserted : Bool → Tree → Tree → Prop where
  | node {operand : Bool} {kind : Kind} {start stop : Nat} {named : Bool} {role : Option Role}
      {ts ts' : List Tree} : AllAsserted kind role ts ts' →
      Asserted operand (node kind start stop named role ts) (node kind start stop named role ts')
  | assertion {t : Tree} {kind kind' : Kind} {start stop start' stop' : Nat} {named : Bool}
      {role role' : Option Role} {ts before after : List Tree} :
      t.named = true → t.kind ≠ .comment →
      Asserted true t (node kind start stop named role ts) → kind'.isAssertion = true →
      (∀ c ∈ before, c.named = true → c.kind = .comment) →
      Asserted true t (node kind' start' stop' true t.role
        (before ++ node kind start stop named role' ts :: after))

/-- The same children of a node of a kind in a role, with type assertions where it has
expressions. -/
inductive AllAsserted : Kind → Option Role → List Tree → List Tree → Prop where
  | nil {kind : Kind} {role : Option Role} : AllAsserted kind role [] []
  | cons {kind : Kind} {role : Option Role} {t t' : Tree} {ts ts' : List Tree} :
      Asserted (t.isOperandIn kind role) t t' → AllAsserted kind role ts ts' →
      AllAsserted kind role (t :: ts) (t' :: ts')

end

/-- Children with assertions correspond one by one. -/
theorem AllAsserted.forall₂ {kind : Kind} {role : Option Role} {ts ts' : List Tree}
    (h : AllAsserted kind role ts ts') :
    List.Forall₂ (fun c c' => Asserted (c.isOperandIn kind role) c c') ts ts' := by
  induction ts generalizing ts' with
  | nil =>
    cases h
    exact .nil
  | cons t ts ih =>
    cases h with
    | cons ht hts => exact .cons ht (ih hts)

mutual

/-- Nothing has to be asserted. -/
theorem Asserted.refl (operand : Bool) : ∀ t : Tree, Asserted operand t t
  | .node kind _ _ _ role ts => .node (AllAsserted.refl kind role ts)

theorem AllAsserted.refl (kind : Kind) (role : Option Role) :
    ∀ ts : List Tree, AllAsserted kind role ts ts
  | [] => .nil
  | t :: ts => .cons (Asserted.refl (t.isOperandIn kind role) t) (AllAsserted.refl kind role ts)

end

/-- Nothing has to stand before the expression. -/
theorem Asserted.leading {t : Tree} {kind kind' : Kind} {start stop start' stop' : Nat}
    {named : Bool} {role role' : Option Role} {ts after : List Tree} (hnamed : t.named = true)
    (hkind : t.kind ≠ .comment) (h : Asserted true t (Tree.node kind start stop named role ts))
    (hassertion : kind'.isAssertion = true) :
    Asserted true t (Tree.node kind' start' stop' true t.role
      (Tree.node kind start stop named role' ts :: after)) := by
  have hnone : ∀ c ∈ ([] : List Tree), c.named = true → c.kind = .comment := fun _ hc => nomatch hc
  exact .assertion hnamed hkind h hassertion hnone

/-- Two nodes of one kind that span the same bytes. -/
structure SameSpan (t t' : Tree) : Prop where
  kind : t'.kind = t.kind
  start : t'.start = t.start
  stop : t'.stop = t.stop

theorem SameSpan.text {t t' : Tree} (h : SameSpan t t') (source : Bytes) :
    t'.text source = t.text source := by
  rw [Tree.text, h.start, h.stop, Tree.text]

theorem SameSpan.line {t t' : Tree} (h : SameSpan t t') (source : Bytes) :
    t'.line source = t.line source := by
  rw [Tree.line, h.start, Tree.line]

/-- Leading comments are read off the spans of siblings. -/
theorem leadingComments_of_sameSpan {source : Bytes} {before before' : List Tree}
    (h : List.Forall₂ SameSpan before before') :
    leadingComments source before' = leadingComments source before := by
  have hcomment (t t' : Tree) (ht : SameSpan t t') : t.isComment = t'.isComment := by
    rw [isComment, isComment, ht.kind]
  have htexts {ts ts' : List Tree} (hts : List.Forall₂ SameSpan ts ts') :
      (ts'.map (·.text source)).reverse = (ts.map (·.text source)).reverse :=
    congrArg List.reverse (map_congr_forall₂ hts fun t t' ht => (ht.text source).symm).symm
  have hcomments := forall₂_takeWhile h hcomment
  have hrest := forall₂_dropWhile h hcomment
  unfold leadingComments
  generalize before.takeWhile isComment = cs, before'.takeWhile isComment = cs' at hcomments
  generalize before.dropWhile isComment = rest, before'.dropWhile isComment = rest' at hrest
  cases hrest with
  | nil => exact htexts hcomments
  | cons ht _ =>
    simp only [ht.stop]
    exact htexts ((forall₂_filter hcomments fun _ _ hc => by rw [hc.start]).imp fun _ _ hc => hc.2)

namespace Asserted

variable {operand : Bool} {t t' : Tree}

theorem role_eq (h : Asserted operand t t') : t'.role = t.role := by
  cases h <;> rfl

theorem kind_eq (h : Asserted operand t t') : t'.kind = t.kind ∨ t'.kind.isAssertion = true := by
  cases h with
  | node _ => exact .inl rfl
  | assertion _ _ _ hassertion _ => exact .inr hassertion

theorem named_eq (h : Asserted operand t t') : t'.named = t.named := by
  cases h with
  | node _ => rfl
  | assertion hnamed => exact hnamed.symm

theorem isComment_eq (h : Asserted operand t t') : t'.isComment = t.isComment := by
  cases h with
  | node _ => rfl
  | @assertion _ _ kind' _ _ _ _ _ _ _ _ _ _ _ hcomment _ hassertion _ =>
    have hnot : (t.kind == .comment) = false := by simpa using hcomment
    rw [isComment, isComment, hnot]
    cases kind' <;> first | rfl | cases hassertion

/-- What is no operand stays in its place. -/
theorem sameSpan (h : Asserted false t t') : SameSpan t t' := by
  cases h with
  | node _ => exact ⟨rfl, rfl, rfl⟩

/-- What is no operand has the same children, with assertions around its own operands. -/
theorem children (h : Asserted false t t') : List.Forall₂
    (fun c c' => Asserted (c.isOperandIn t.kind t.role) c c') t.children t'.children := by
  cases h with
  | node hall => exact hall.forall₂

/-- The first child in a role is found again. -/
theorem child? (h : Asserted false t t') (role : Role) : Option.Rel
    (fun c c' => c.role = some role ∧ Asserted (c.isOperandIn t.kind t.role) c c')
    (t.child? role) (t'.child? role) := by
  have hchildren := h.children
  unfold Tree.child?
  generalize t.children = ts, t'.children = ts' at hchildren
  induction hchildren with
  | nil => exact .none
  | @cons c c' _ _ hc _ ih =>
    rw [List.find?_cons, List.find?_cons, hc.role_eq]
    cases hrole : c.role == some role with
    | false => exact ih
    | true => exact .some ⟨by simpa using hrole, hc⟩

theorem namedChildren (h : Asserted false t t') : List.Forall₂
    (fun c c' => Asserted (c.isOperandIn t.kind t.role) c c') t.namedChildren t'.namedChildren :=
  (forall₂_filter h.children fun _ _ hc => hc.named_eq.symm).imp fun _ _ hc => hc.2

/-- The named children that are no comments are asserted one by one. -/
theorem expressions (h : Asserted false t t') : List.Forall₂
    (fun c c' => Asserted (c.isOperandIn t.kind t.role) c c') t.expressions t'.expressions :=
  (forall₂_filter h.namedChildren fun c c' hc => by rw [hc.isComment_eq]).imp fun _ _ hc => hc.2

theorem expression? (h : Asserted false t t') : Option.Rel
    (fun c c' => Asserted (c.isOperandIn t.kind t.role) c c') t.expression? t'.expression? := by
  have hexpressions := h.expressions
  unfold Tree.expression?
  generalize t.expressions = es, t'.expressions = es' at hexpressions
  cases hexpressions with
  | nil => exact .none
  | cons he _ => exact .some he

/-- Children none of which is an operand stay in their places, and so do the siblings before
them. -/
theorem placedChildren (h : Asserted false t t')
    (hnot : ∀ c, isOperandIn t.kind t.role c = false) :
    List.Forall₂ (fun p p' => List.Forall₂ SameSpan p.1 p'.1 ∧ Asserted false p.2 p'.2)
      t.placedChildren t'.placedChildren := by
  have hplaced {ts ts' : List Tree} (hts : List.Forall₂ (Asserted false) ts ts') :
      ∀ {before before' : List Tree}, List.Forall₂ SameSpan before before' →
        List.Forall₂ (fun p p' => List.Forall₂ SameSpan p.1 p'.1 ∧ Asserted false p.2 p'.2)
          (withBefore before ts) (withBefore before' ts') := by
    induction hts with
    | nil => exact fun _ => .nil
    | cons hc _ ih => exact fun hbefore => .cons ⟨hbefore, hc⟩ (ih (.cons hc.sameSpan hbefore))
  exact hplaced (h.children.imp fun c c' hc => hnot c ▸ hc) .nil

end Asserted
end Tree
end Syntax
end SchemaAtlas
