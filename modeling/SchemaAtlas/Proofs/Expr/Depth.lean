import SchemaAtlas.Proofs.Expr.Production

/-!
# How far a stack reaches

What is read on a stack is read alike on every stack that reaches further: one with more frames, or
one on which nodes take up less. So the stack decides whether a tree is read or given up for its
depth, and never what it is read as.
-/

namespace SchemaAtlas

open Syntax (Kind)

namespace Stack

/-- A stack with no more frames than another one, on which no node takes up less. -/
structure Le (stack stack' : Stack) : Prop where
  frames : stack.frames ≤ stack'.frames
  own : ∀ kind, stack'.own kind ≤ stack.own kind
  perPart : ∀ kind, stack'.perPart kind ≤ stack.perPart kind

instance : LE Stack := ⟨Le⟩

variable {stack stack' stack'' : Stack}

theorem le_refl (stack : Stack) : stack ≤ stack :=
  ⟨Nat.le_refl _, fun _ => Nat.le_refl _, fun _ => Nat.le_refl _⟩

theorem le_trans (h : stack ≤ stack') (h' : stack' ≤ stack'') : stack ≤ stack'' :=
  ⟨Nat.le_trans h.frames h'.frames, fun kind => Nat.le_trans (h'.own kind) (h.own kind),
    fun kind => Nat.le_trans (h'.perPart kind) (h.perPart kind)⟩

theorem Holds.mono {kind : Kind} (hholds : stack.Holds kind) (h : stack ≤ stack') :
    stack'.Holds kind :=
  Nat.lt_of_le_of_lt (h.own kind) (Nat.lt_of_lt_of_le hholds h.frames)

theorem below_le (stack : Stack) (holder : Kind) : stack.below holder ≤ stack :=
  ⟨Nat.sub_le _ _, fun _ => Nat.le_refl _, fun _ => Nat.le_refl _⟩

theorem below_mono (h : stack ≤ stack') (holder : Kind) :
    stack.below holder ≤ stack'.below holder := by
  refine ⟨?_, h.own, h.perPart⟩
  have hframes := h.frames
  have htaken := h.perPart holder
  simp only [below]
  omega

end Stack

namespace Expr

section Deepens

variable {α β γ : Type} {x y : Except Obstacle α}

/-- One reading goes at least as deep as another: the other is given up for its depth, or both come
to the same. -/
def Deepens (x y : Except Obstacle α) : Prop := y = .error .nestedTooDeeply ∨ x = y

theorem Deepens.refl (x : Except Obstacle α) : Deepens x x := .inr rfl

/-- What goes on after a reading goes as deep if each step does. -/
theorem Deepens.bind (h : Deepens x y) {k k' : α → Except Obstacle β}
    (hk : ∀ a, Deepens (k a) (k' a)) : Deepens (x >>= k) (y >>= k') := by
  rcases h with rfl | rfl
  · exact .inl rfl
  · cases x with
    | error e => exact .refl _
    | ok a => exact hk a

theorem Deepens.map (f : α → β) (h : Deepens x y) : Deepens (f <$> x) (f <$> y) := by
  rcases h with rfl | rfl
  · exact .inl rfl
  · exact .refl _

theorem Deepens.mapM {f : α → Except Obstacle γ} {g : β → Except Obstacle γ} {as : List α}
    {bs : List β} (h : List.Forall₂ (fun a b => Deepens (f a) (g b)) as bs) :
    Deepens (as.mapM f) (bs.mapM g) :=
  mapM_of_forall₂ (R := Deepens) (fun x => .refl x) (fun h hk => h.bind hk) h

end Deepens

end Expr
end SchemaAtlas
