import SchemaAtlas.Expr.OfTree
import SchemaAtlas.Proofs.Outcome

/-!
# What reading a node comes to

A node is read production by production, and all that a production hands on to the reader of its
parts stands below the node. So a reading that succeeds is put together from what stands below the
node, and one that fails does so by something there. The stack is used up on the way down: what
every node keeps of its parts holds of whole trees.
-/

namespace SchemaAtlas

open Syntax (Tree Kind)

namespace Syntax.Tree

/-- A node is another one or stands below it. -/
inductive Below : Tree → Tree → Prop where
  | refl (t : Tree) : Below t t
  | child {u c t : Tree} (below : Below u c) (mem : c ∈ t.children) : Below u t

variable {t c u : Tree}

theorem Below.of_mem (h : c ∈ t.children) : Below c t := .child (.refl c) h

theorem Below.trans (h : Below u c) (hc : Below c t) : Below u t := by
  induction hc with
  | refl => exact h
  | child _ hmem ih => exact .child ih hmem

theorem mem_of_child? {role : Role} (h : t.child? role = some c) : c ∈ t.children :=
  List.mem_of_find?_eq_some h

theorem mem_of_namedChildren (h : c ∈ t.namedChildren) : c ∈ t.children :=
  (List.mem_filter.mp h).1

theorem mem_of_expressions (h : c ∈ t.expressions) : c ∈ t.children :=
  mem_of_namedChildren (List.mem_filter.mp h).1

theorem mem_of_expression? (h : t.expression? = some c) : c ∈ t.children :=
  mem_of_expressions (List.mem_of_head? h)

theorem map_snd_withBefore (before ts : List Tree) : (withBefore before ts).map (·.2) = ts := by
  induction ts generalizing before with
  | nil => rfl
  | cons t rest ih => rw [withBefore, List.map_cons, ih]

/-- What stands before the children of a node does not matter to a test on them. -/
theorem map_filter_placedChildren (t : Tree) (q : Tree → Bool) :
    (t.placedChildren.filter fun p => q p.2).map (·.2) = t.children.filter q := by
  have hchildren : t.placedChildren.map (·.2) = t.children := map_snd_withBefore [] t.children
  rw [← hchildren, List.filter_map]
  rfl

theorem mem_namedChildren_of_placed {p : List Tree × Tree}
    (h : p ∈ t.placedChildren.filter fun p => p.2.named) : p.2 ∈ t.namedChildren := by
  rw [namedChildren, ← map_filter_placedChildren]
  exact List.mem_map_of_mem h

end Syntax.Tree

namespace Expr

variable {source : Bytes} {read : Kind → Tree → Except Obstacle Expr} {t : Tree} {e : Expr}
  {o : Obstacle}

section Part

variable {part : Option Tree} {missing : Expr} {build : Expr → Expr}

theorem ofPart_eq_ok (h : ofPart read t part missing build = .ok e) :
    part = none ∧ e = missing ∨
      ∃ u f, part = some u ∧ read t.kind u = .ok f ∧ e = build f := by
  cases part with
  | none => exact .inl ⟨rfl, (Except.ok.inj h).symm⟩
  | some u =>
    obtain ⟨f, hf, rfl⟩ := Except.map_eq_ok.mp h
    exact .inr ⟨u, f, rfl, hf, rfl⟩

theorem ofPart_eq_error (h : ofPart read t part missing build = .error o) :
    ∃ u, part = some u ∧ read t.kind u = .error o := by
  cases part with
  | none => cases h
  | some u => exact ⟨u, rfl, Except.map_eq_error.mp h⟩

end Part

theorem ofMember_eq_ok (h : ofMember source read t = .ok e) :
    e = opaqueNode source t ∨ ∃ receiver property f, t.child? .object = some receiver ∧
      read t.kind receiver = .ok f ∧
        e = .memberAccess (extentOf source t) f (Tree.text source property) := by
  unfold ofMember at h
  split at h
  · next receiver property hreceiver _ =>
    obtain ⟨f, hf, rfl⟩ := Except.map_eq_ok.mp h
    exact .inr ⟨receiver, property, f, hreceiver, hf, rfl⟩
  · exact .inl (Except.ok.inj h).symm

theorem ofMember_eq_error (h : ofMember source read t = .error o) :
    ∃ receiver, t.child? .object = some receiver ∧ read t.kind receiver = .error o := by
  unfold ofMember at h
  split at h
  · next receiver _ hreceiver _ => exact ⟨receiver, hreceiver, Except.map_eq_error.mp h⟩
  · cases h

/-- The arguments of a call are read from the children of the list, or from a template in its
place. -/
theorem argumentsOf_eq_ok {es : List Expr} (h : argumentsOf read t = .ok es) :
    ∀ e ∈ es, ∃ holder u, u.Below t ∧ read holder u = .ok e := by
  intro e he
  unfold argumentsOf at h
  split at h
  · cases h
    cases he
  · next list hlist =>
    have hlist := Tree.mem_of_child? hlist
    split at h
    · obtain ⟨u, hu, hread⟩ := exists_left_of_forall₂ (Except.mapM_eq_ok.mp h) he
      exact ⟨_, u, .child (.of_mem (Tree.mem_of_expressions hu)) hlist, hread⟩
    · obtain ⟨template, htemplate, rfl⟩ := Except.map_eq_ok.mp h
      rw [List.mem_singleton.mp he]
      exact ⟨_, list, .of_mem hlist, htemplate⟩

/-- Arguments that cannot be read fail at a node below. -/
theorem argumentsOf_eq_error (h : argumentsOf read t = .error o) :
    ∃ holder u, u.Below t ∧ read holder u = .error o := by
  unfold argumentsOf at h
  split at h
  · cases h
  · next list hlist =>
    have hlist := Tree.mem_of_child? hlist
    split at h
    · obtain ⟨u, hu, hread⟩ := Except.exists_of_mapM_eq_error h
      exact ⟨_, u, .child (.of_mem (Tree.mem_of_expressions hu)) hlist, hread⟩
    · exact ⟨_, list, .of_mem hlist, Except.map_eq_error.mp h⟩

/-- A call is read from its callee and its arguments, and is opaque without a callee. -/
theorem ofCall_eq_ok (h : ofCall source read t = .ok e) :
    e = opaqueNode source t ∨ ∃ callee f arguments, t.child? .function = some callee ∧
      read t.kind callee = .ok f ∧ argumentsOf read t = .ok arguments ∧
        e = .call (extentOf source t) f arguments := by
  unfold ofCall at h
  split at h
  · exact .inl (Except.ok.inj h).symm
  · next callee hcallee =>
    obtain ⟨arguments, harguments, h⟩ := Except.bind_eq_ok.mp h
    obtain ⟨f, hf, h⟩ := Except.bind_eq_ok.mp h
    exact .inr ⟨callee, f, arguments, hcallee, hf, harguments, (Except.ok.inj h).symm⟩

theorem ofCall_eq_error (h : ofCall source read t = .error o) :
    ∃ holder u, u.Below t ∧ read holder u = .error o := by
  unfold ofCall at h
  split at h
  · cases h
  · next callee hcallee =>
    rcases Except.bind_eq_error.mp h with h | ⟨arguments, -, h⟩
    · exact argumentsOf_eq_error h
    · rcases Except.bind_eq_error.mp h with h | ⟨f, -, h⟩
      · exact ⟨_, callee, .of_mem (Tree.mem_of_child? hcallee), h⟩
      · cases h

/-- The substitutions of a template are read from nodes below it. -/
theorem substitutionsOf_eq_ok {es : List Expr} (h : substitutionsOf read t = .ok es) :
    ∀ e ∈ es, ∃ u, u.Below t ∧ read t.kind u = .ok e := by
  intro e he
  obtain ⟨parts, hparts, rfl⟩ := Except.map_eq_ok.mp h
  obtain ⟨part, hpart, he⟩ := List.mem_flatten.mp he
  obtain ⟨hole, hhole, hread⟩ := exists_left_of_forall₂ (Except.mapM_eq_ok.mp hparts) hpart
  obtain ⟨u, hu, hread⟩ := exists_left_of_forall₂ (Except.mapM_eq_ok.mp hread) he
  have hhole := Tree.mem_of_namedChildren (List.mem_filter.mp hhole).1
  exact ⟨u, .child (.of_mem (Tree.mem_of_expressions hu)) hhole, hread⟩

theorem substitutionsOf_eq_error (h : substitutionsOf read t = .error o) :
    ∃ u, u.Below t ∧ read t.kind u = .error o := by
  obtain ⟨hole, hhole, h⟩ := Except.exists_of_mapM_eq_error (Except.map_eq_error.mp h)
  obtain ⟨u, hu, hread⟩ := Except.exists_of_mapM_eq_error h
  have hhole := Tree.mem_of_namedChildren (List.mem_filter.mp hhole).1
  exact ⟨u, .child (.of_mem (Tree.mem_of_expressions hu)) hhole, hread⟩

theorem expressions_eq_ok {es : List Expr} (h : t.expressions.mapM (read t.kind) = .ok es) :
    ∀ e ∈ es, ∃ u, u.Below t ∧ read t.kind u = .ok e := by
  intro e he
  obtain ⟨u, hu, hread⟩ := exists_left_of_forall₂ (Except.mapM_eq_ok.mp h) he
  exact ⟨u, .of_mem (Tree.mem_of_expressions hu), hread⟩

theorem expressions_eq_error (h : t.expressions.mapM (read t.kind) = .error o) :
    ∃ u, u.Below t ∧ read t.kind u = .error o := by
  obtain ⟨u, hu, hread⟩ := Except.exists_of_mapM_eq_error h
  exact ⟨u, .of_mem (Tree.mem_of_expressions hu), hread⟩

theorem ofTree_of_holds {stack : Stack} (h : stack.Holds t.kind) :
    ofTree source stack t =
      ofNode source (fun holder part => ofTree source (stack.below holder) part) t := by
  rw [ofTree, dif_pos h]

theorem ofTree_of_not_holds {stack : Stack} (h : ¬ stack.Holds t.kind) :
    ofTree source stack t = .error .nestedTooDeeply := by
  rw [ofTree, dif_neg h]

end Expr

/-- What holds of a stack if it holds of whatever is left below its nodes, holds of every stack. -/
@[elab_as_elim]
theorem Stack.induction {motive : Stack → Prop}
    (step : ∀ stack, (∀ {kind}, stack.Holds kind → ∀ holder, motive (stack.below holder)) →
      motive stack) (stack : Stack) : motive stack := by
  induction hframes : stack.frames using Nat.strongRecOn generalizing stack with
  | ind frames ih =>
    subst hframes
    exact step stack fun hholds holder => ih _ (stack.below_frames_lt hholds) _ rfl

/-- What every node keeps, given that its parts have it, holds of a reading on any stack if it holds
of a stack that is used up. -/
theorem Expr.ofTree_induction {source : Bytes} {motive : Tree → Except Obstacle Expr → Prop}
    (exhausted : ∀ t, motive t (.error .nestedTooDeeply))
    (node : ∀ read t, (∀ holder u, motive u (read holder u)) → motive t (ofNode source read t))
    (stack : Stack) (t : Tree) : motive t (ofTree source stack t) := by
  induction stack using Stack.induction generalizing t with
  | step stack ih =>
    by_cases hholds : stack.Holds t.kind
    · rw [ofTree_of_holds hholds]
      exact node _ t fun holder u => ih hholds holder u
    · rw [ofTree_of_not_holds hholds]
      exact exhausted t

end SchemaAtlas
