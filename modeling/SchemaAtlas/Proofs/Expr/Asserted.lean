import SchemaAtlas.Proofs.Expr.Depth
import SchemaAtlas.Proofs.Syntax.Asserted

/-!
# Expressions with type assertions

A type assertion is read as the expression that it encloses, so assertions leave no trace in what is
read. They only cost depth: a tree with assertions may be given up where the same tree without them
is read. Apart from that both are read as the same expression, or fail by the same escape sequence.
-/

namespace SchemaAtlas.Expr

open Syntax (Tree Kind Role)
open Syntax.Tree (Asserted AllAsserted SameSpan isOperandIn)

variable {source : Bytes}

/-- How a node is read does not depend on the role it plays. -/
theorem ofTree_node_role (stack : Stack) (kind : Kind) (start stop : Nat) (named : Bool)
    (role role' : Option Role) (ts : List Tree) :
    ofTree source stack (.node kind start stop named role ts) =
      ofTree source stack (.node kind start stop named role' ts) := by
  rw [ofTree, ofTree]
  rfl

/-- The first expression of an assertion is what it asserts. -/
theorem expression?_assertion {kind : Kind} {start stop : Nat} {named : Bool} {role : Option Role}
    {before after : List Tree} {t : Tree} (hnamed : t.named = true) (hcomment : t.isComment = false)
    (hbefore : ∀ c ∈ before, c.named = true → c.kind = .comment) :
    (Syntax.Tree.node kind start stop named role (before ++ t :: after)).expression? = some t := by
  have hnone : (before.filter Tree.named).filter (!·.isComment) = [] := by
    simp only [List.filter_eq_nil_iff, List.mem_filter, Bool.not_eq_true', Bool.not_eq_false]
    rintro c ⟨hc, hnamed⟩
    simp [Tree.isComment, hbefore c hc hnamed]
  rw [Tree.expression?, Tree.expressions, Tree.namedChildren, Tree.children, List.filter_append,
    List.filter_append, hnone, List.filter_cons_of_pos hnamed,
    List.filter_cons_of_pos (by simp [hcomment])]
  rfl

/-- A type assertion is read as what it encloses, on what it leaves of the stack. -/
theorem ofTree_assertion {stack : Stack} {t u : Tree} (hkind : t.kind.isAssertion = true)
    (hholds : stack.Holds t.kind) (hu : t.expression? = some u) :
    ofTree source stack t = ofTree source (stack.below t.kind) u := by
  rw [ofTree_of_holds hholds, ofNode]
  cases h : t.kind <;> simp only [h, Kind.isAssertion] at hkind
  case asExpression | satisfiesExpression | nonNullExpression =>
    simp only [ofPart, hu, id_map, h]
  all_goals cases hkind

section Parts

variable {t t' : Tree} (h : Asserted false t t')

include h

theorem extentOf_asserted : extentOf source t' = extentOf source t := by
  rw [extentOf, h.sameSpan.text, h.sameSpan.line, extentOf]

theorem opaqueNode_asserted : opaqueNode source t' = opaqueNode source t := by
  rw [opaqueNode, extentOf_asserted h, h.sameSpan.kind, opaqueNode]

/-- The value of a string is read from parts that stay in their places. -/
theorem stringValue_asserted (hkind : t.kind = .string) :
    stringValue source t' = stringValue source t := by
  have hparts : List.Forall₂ (Asserted false) t.namedChildren t'.namedChildren :=
    h.namedChildren.imp fun c c' hc => by simpa [isOperandIn, hkind] using hc
  have hempty : t'.namedChildren.isEmpty = t.namedChildren.isEmpty := by
    generalize t.namedChildren = parts, t'.namedChildren = parts' at hparts
    cases hparts <;> rfl
  have hread (c c' : Tree) (hc : Asserted false c c') :
      stringPart source c = stringPart source c' := by
    rw [stringPart, stringPart, hc.sameSpan.kind, hc.sameSpan.text]
  rw [stringValue, stringValue, hempty, h.sameSpan.text, Except.mapM_congr_forall₂ hparts hread]

theorem keyOf_asserted : keyOf source t' = keyOf source t := by
  unfold keyOf
  rw [h.sameSpan.kind, h.sameSpan.text]
  cases hkind : t.kind with
  | string => exact stringValue_asserted h hkind
  | _ => rfl

/-- A child that is no operand by its role stays in its place. -/
theorem child?_asserted (role : Role)
    (hnot : ∀ c : Tree, c.role = some role → c.isOperandIn t.kind t.role = false) :
    Option.Rel (fun c c' => c.role = some role ∧ Asserted false c c')
      (t.child? role) (t'.child? role) := by
  have hchild := h.child? role
  generalize t.child? role = child, t'.child? role = child' at hchild
  cases hchild with
  | none => exact .none
  | some hc => exact .some ⟨hc.1, hnot _ hc.1 ▸ hc.2⟩

/-- Parameters hold no expressions and keep their texts. -/
theorem parametersOf_asserted
    (hkind : t.kind = .arrowFunction ∨ t.kind = .functionExpression ∨ t.kind = .function) :
    parametersOf source t' = parametersOf source t := by
  have hnot (c : Tree) (hrole : c.role ≠ some .body) : c.isOperandIn t.kind t.role = false := by
    rcases hkind with hkind | hkind | hkind <;> simp [isOperandIn, hkind, hrole]
  have hsingle := child?_asserted h .parameter fun c hc => hnot c (by simp [hc])
  have hlist := child?_asserted h .parameters fun c hc => hnot c (by simp [hc])
  unfold parametersOf
  generalize t.child? .parameter = single, t'.child? .parameter = single' at hsingle
  generalize t.child? .parameters = list, t'.child? .parameters = list' at hlist
  cases hsingle with
  | some hc => exact congrArg (fun text => [text]) (hc.2.sameSpan.text source)
  | none =>
    cases hlist with
    | none => rfl
    | @some list list' hlist =>
      have hparameters : List.Forall₂ (Asserted false) list.expressions list'.expressions :=
        hlist.2.expressions.imp fun c c' hc => by simpa [isOperandIn, hlist.1] using hc
      refine (map_congr_forall₂ hparameters fun p p' hp => ?_).symm
      have hpattern := child?_asserted hp .pattern fun c hc => by simp [isOperandIn, hc]
      generalize p.child? .pattern = pattern, p'.child? .pattern = pattern' at hpattern
      cases hpattern with
      | none => exact (hp.sameSpan.text source).symm
      | some hc => exact (hc.2.sameSpan.text source).symm

end Parts

section Reading

variable {t t' : Tree} (h : Asserted false t t')

include h

section Parts

variable {read read' : Tree → Except Obstacle Expr}
  (hread : ∀ operand u u', Asserted operand u u' → Deepens (read u) (read' u'))

include hread

theorem deepens_expressions :
    Deepens (t.expressions.mapM read) (t'.expressions.mapM read') :=
  .mapM (h.expressions.imp fun c c' hc => hread _ c c' hc)

theorem deepens_entryOf {before before' : List Tree}
    (hbefore : List.Forall₂ SameSpan before before') :
    Deepens (entryOf source read before t) (entryOf source read' before' t') := by
  unfold entryOf
  simp only [h.sameSpan.kind, extentOf_asserted h, Syntax.Tree.leadingComments_of_sameSpan hbefore]
  cases hkind : t.kind with
  | pair =>
    have hkey := child?_asserted h .key fun c hc => by simp [isOperandIn, hkind, hc]
    have hvalue := h.child? .value
    simp only
    generalize t.child? .key = key, t'.child? .key = key' at hkey
    generalize t.child? .value = value, t'.child? .value = value' at hvalue
    cases hkey with
    | none => exact .refl _
    | some hkey =>
      cases hvalue with
      | none => exact .refl _
      | some hvalue =>
        simp only [keyOf_asserted hkey.2]
        exact (Deepens.refl _).bind fun name => (hread _ _ _ hvalue.2).bind fun e => .refl _
  | shorthandProperty => exact .refl _
  | _ => exact .refl _

/-- The entries of an object are no operands, so assertions only stand in their values. -/
theorem deepens_entriesOf (hkind : t.kind = .object) :
    Deepens (entriesOf source read t) (entriesOf source read' t') := by
  have hplaced := forall₂_filter (q := fun p => p.2.named)
    (h.placedChildren fun c => by simp [isOperandIn, hkind]) fun p p' hp => hp.2.named_eq.symm
  have hentries : List.Forall₂
      (fun p p' => Deepens (entryOf source read p.1 p.2) (entryOf source read' p'.1 p'.2))
      (t.placedChildren.filter (·.2.named)) (t'.placedChildren.filter (·.2.named)) :=
    hplaced.imp fun p p' hp => deepens_entryOf hp.2.2 hread hp.2.1
  exact (Deepens.mapM hentries).map _

end Parts

variable {read read' : Kind → Tree → Except Obstacle Expr}
  (hread : ∀ holder operand u u', Asserted operand u u' →
    Deepens (read holder u) (read' holder u'))

include hread

/-- A node of one part is read as deep if its part is. -/
theorem deepens_ofPart {R : Tree → Tree → Prop} {part part' : Option Tree}
    (hpart : Option.Rel R part part') (hR : ∀ u u', R u u' → ∃ operand, Asserted operand u u')
    (missing : Expr) (build : Expr → Expr) :
    Deepens (ofPart read t part missing build) (ofPart read' t' part' missing build) := by
  unfold ofPart
  rw [h.sameSpan.kind]
  cases hpart with
  | none => exact .refl _
  | some hu =>
    obtain ⟨operand, hu⟩ := hR _ _ hu
    exact (hread _ operand _ _ hu).map _

theorem deepens_ofMember (hkind : t.kind = .memberExpression) :
    Deepens (ofMember source read t) (ofMember source read' t') := by
  have hreceiver := h.child? .object
  have hproperty := child?_asserted h .property fun c hc => by simp [isOperandIn, hkind, hc]
  unfold ofMember
  rw [h.sameSpan.kind, extentOf_asserted h, opaqueNode_asserted h]
  generalize t.child? .object = receiver, t'.child? .object = receiver' at hreceiver
  generalize t.child? .property = property, t'.child? .property = property' at hproperty
  cases hreceiver with
  | none => exact .refl _
  | some hreceiver =>
    cases hproperty with
    | none => exact .refl _
    | some hproperty =>
      simp only [hproperty.2.sameSpan.text]
      exact (hread _ _ _ _ hreceiver.2).map _

/-- The arguments of a call keep their node, whose children may be asserted, unless a template
stands in their place. -/
theorem deepens_argumentsOf (hkind : t.kind = .callExpression) :
    Deepens (argumentsOf read t) (argumentsOf read' t') := by
  have hlist := h.child? .arguments
  unfold argumentsOf
  rw [h.sameSpan.kind]
  generalize t.child? .arguments = list, t'.child? .arguments = list' at hlist
  cases hlist with
  | none => exact .refl _
  | @some list list' hlist =>
    by_cases hlistKind : list.kind = .arguments
    · have hplace : Asserted false list list' := by
        have hnot : list.isOperandIn t.kind t.role = false := by
          simp only [isOperandIn, hkind, hlist.1, hlistKind]
          exact Bool.and_false _
        exact hnot ▸ hlist.2
      simp only [hplace.sameSpan.kind, hlistKind]
      exact deepens_expressions hplace (hread _)
    · have hlistKind' : list'.kind ≠ .arguments := by
        rcases hlist.2.kind_eq with heq | hassertion
        · rwa [heq]
        · intro heq
          rw [heq] at hassertion
          cases hassertion
      have hsingle := (hread t.kind _ _ _ hlist.2).map fun template => [template]
      dsimp only
      split
      next heq => exact absurd heq hlistKind
      next => simpa only [hlistKind', imp_self] using hsingle

theorem deepens_ofCall (hkind : t.kind = .callExpression) :
    Deepens (ofCall source read t) (ofCall source read' t') := by
  have hcallee := h.child? .function
  unfold ofCall
  rw [h.sameSpan.kind, extentOf_asserted h, opaqueNode_asserted h]
  generalize t.child? .function = callee, t'.child? .function = callee' at hcallee
  cases hcallee with
  | none => exact .refl _
  | some hcallee =>
    exact (deepens_argumentsOf h hread hkind).bind fun arguments =>
      (hread _ _ _ _ hcallee.2).bind fun e => .refl _

/-- The substitutions of a template keep their nodes, whose children may be asserted. -/
theorem deepens_substitutionsOf (hkind : t.kind = .templateString) :
    Deepens (substitutionsOf read t) (substitutionsOf read' t') := by
  have hchildren : List.Forall₂ (Asserted false) t.namedChildren t'.namedChildren :=
    h.namedChildren.imp fun c c' hc => by simpa [isOperandIn, hkind] using hc
  have hholes := forall₂_filter (q := fun c => c.kind == .templateSubstitution) hchildren
    fun c c' hc => by rw [hc.sameSpan.kind]
  unfold substitutionsOf
  rw [h.sameSpan.kind]
  have hfound := hholes.imp fun hole hole' hhole => deepens_expressions hhole.2 (hread t.kind)
  exact (Deepens.mapM hfound).map _

/-- A node without its assertions is read at least as deep as with them, if its parts are. -/
theorem deepens_ofNode : Deepens (ofNode source read t) (ofNode source read' t') := by
  unfold ofNode
  rw [h.sameSpan.kind, extentOf_asserted h, opaqueNode_asserted h]
  cases hkind : t.kind <;> simp only
  case memberExpression => exact deepens_ofMember h hread hkind
  case callExpression => exact deepens_ofCall h hread hkind
  case string => rw [stringValue_asserted h hkind]; exact .refl _
  case templateString => exact (deepens_substitutionsOf h hread hkind).map _
  case number =>
    rw [numberOf, numberOf, h.sameSpan.text, extentOf_asserted h, opaqueNode_asserted h]
    exact .refl _
  case array => exact (deepens_expressions h (hread _)).map _
  case statementBlock => exact (deepens_expressions h (hread _)).map _
  case object => exact (deepens_entriesOf h (hread _) hkind).map _
  case arrowFunction | functionExpression | function =>
    rw [parametersOf_asserted h (by simp [hkind])]
    exact deepens_ofPart h hread (h.child? .body) (fun u u' hu => ⟨_, hu.2⟩) _ _
  case parenthesizedExpression | returnStatement | asExpression | satisfiesExpression |
      nonNullExpression =>
    exact deepens_ofPart h hread h.expression? (fun u u' hu => ⟨_, hu⟩) _ _
  all_goals exact .refl _

end Reading

/-- A tree without its assertions, on a stack that reaches at least as far, comes to the same as
with them, unless these nest it too deeply. -/
theorem deepens_of_asserted {stack stack' : Stack} (hle : stack' ≤ stack) {operand : Bool}
    {t t' : Tree} (h : Asserted operand t t') :
    Deepens (ofTree source stack t) (ofTree source stack' t') := by
  -- by the stack of the tree with assertions; the other tree never runs out first
  induction stack' using Stack.induction generalizing stack operand t t' with
  | step stack' ih =>
    by_cases hholds : stack'.Holds t'.kind
    · cases h with
      | @node _ kind start stop named role ts ts' hall =>
        have hholdsPlain : stack.Holds (Syntax.Tree.node kind start stop named role ts).kind :=
          Stack.Holds.mono hholds hle
        rw [ofTree_of_holds hholdsPlain, ofTree_of_holds hholds]
        exact deepens_ofNode (.node hall) fun holder operand u u' hu =>
          ih hholds holder (Stack.below_mono hle holder) hu
      | @assertion _ kind _ start stop _ _ named role role' ts _ _ hnamed hcomment h hassertion
          hbefore =>
        have hinnerNamed : (Syntax.Tree.node kind start stop named role' ts).named = true :=
          h.named_eq.trans hnamed
        have hinnerComment : (Syntax.Tree.node kind start stop named role' ts).isComment = false :=
          h.isComment_eq.trans (by simpa [Tree.isComment] using hcomment)
        rw [ofTree_assertion (t := .node ..) hassertion hholds
            (expression?_assertion hinnerNamed hinnerComment hbefore),
          ofTree_node_role _ _ _ _ _ role' role]
        exact ih hholds _ (Stack.le_trans (stack'.below_le _) hle) h
    · rw [ofTree_of_not_holds hholds]
      exact .inl rfl

end SchemaAtlas.Expr
