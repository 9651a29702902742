import SchemaAtlas.Expr.Basic

/-!
# Expressions without some of their entries

An entry is deleted from an object where an expression is read: in the object itself, in the object
that a function returns, and behind any parentheses. Texts, lines and everything else stay, so the
readers of objects, of arrays and of returned values find the same lists less what was deleted.
-/

namespace SchemaAtlas

/-- A list some of whose members are dropped, each of them droppable, while the others are replaced
by their like. -/
inductive Thinned {α : Type} (droppable : α → Prop) (like : α → α → Prop) : List α → List α → Prop
  | nil : Thinned droppable like [] []
  | drop {a : α} {as bs : List α} : droppable a → Thinned droppable like as bs →
      Thinned droppable like (a :: as) bs
  | keep {a b : α} {as bs : List α} : like a b → Thinned droppable like as bs →
      Thinned droppable like (a :: as) (b :: bs)

namespace Thinned

variable {α β : Type} {droppable : α → Prop} {like : α → α → Prop} {as bs : List α}

theorem refl (as : List α) : Thinned droppable Eq as as := by
  induction as with
  | nil => exact .nil
  | cons a as ih => exact .keep rfl ih

theorem mono {droppable' : α → Prop} {like' : α → α → Prop} (h : Thinned droppable like as bs)
    (hdrop : ∀ a, droppable a → droppable' a) (hkeep : ∀ a b, like a b → like' a b) :
    Thinned droppable' like' as bs := by
  induction h with
  | nil => exact .nil
  | drop ha _ ih => exact .drop (hdrop _ ha) ih
  | keep hab _ ih => exact .keep (hkeep _ _ hab) ih

theorem map {droppable' : β → Prop} {like' : β → β → Prop} {f : α → β}
    (h : Thinned droppable like as bs) (hdrop : ∀ a, droppable a → droppable' (f a))
    (hkeep : ∀ a b, like a b → like' (f a) (f b)) :
    Thinned droppable' like' (as.map f) (bs.map f) := by
  induction h with
  | nil => exact .nil
  | drop ha _ ih => exact .drop (hdrop _ ha) ih
  | keep hab _ ih => exact .keep (hkeep _ _ hab) ih

/-- A test that tells no member from its like leaves a thinned list behind. -/
theorem filter {q : α → Bool} (h : Thinned droppable like as bs)
    (hlike : ∀ a b, like a b → q a = q b) :
    Thinned (fun a => droppable a ∧ q a) (fun a b => like a b ∧ q a) (as.filter q)
      (bs.filter q) := by
  induction h with
  | nil => exact .nil
  | @drop a as bs ha _ ih =>
    by_cases hat : q a
    · rw [List.filter_cons_of_pos hat]
      exact .drop ⟨ha, hat⟩ ih
    · rw [List.filter_cons_of_neg hat]
      exact ih
  | @keep a b as bs hab _ ih =>
    have hsame : q a = q b := hlike a b hab
    by_cases hat : q a
    · rw [List.filter_cons_of_pos hat, List.filter_cons_of_pos (hsame ▸ hat)]
      exact .keep ⟨hab, hat⟩ ih
    · rw [List.filter_cons_of_neg hat, List.filter_cons_of_neg (hsame ▸ hat)]
      exact ih

/-- What a reader finds does not change if it finds nothing in what is dropped. -/
theorem filterMap_eq {f : α → Option β} (h : Thinned droppable like as bs)
    (hdrop : ∀ a, droppable a → f a = none) (hkeep : ∀ a b, like a b → f b = f a) :
    bs.filterMap f = as.filterMap f := by
  induction h with
  | nil => rfl
  | drop ha _ ih => rw [List.filterMap_cons_none (hdrop _ ha), ih]
  | keep hab _ ih => rw [List.filterMap_cons, List.filterMap_cons, hkeep _ _ hab, ih]

end Thinned

namespace Expr

/-- The same expression less some entries and elements, where it is or returns an object or an
array. -/
inductive Pruned (entry : Entry → Prop) (element : Expr → Prop) : Expr → Expr → Prop
  | same (e : Expr) : Pruned entry element e e
  | object (x : Extent) {es es' : List Entry} : Thinned entry Eq es es' →
      Pruned entry element (.object x es) (.object x es')
  | array (x : Extent) {es es' : List Expr} : Thinned element Eq es es' →
      Pruned entry element (.array x es) (.array x es')
  | parenthesized (x : Extent) {e e' : Expr} : Pruned entry element e e' →
      Pruned entry element (.parenthesized x e) (.parenthesized x e')
  | function (x : Extent) (parameters : List Text) {body body' : Expr} :
      Pruned entry element body body' →
      Pruned entry element (.function x parameters body) (.function x parameters body')
  | block (x y : Extent) {before after : List Expr} {e e' : Expr} :
      (∀ s ∈ before, ∀ z r, s ≠ .returned z r) → Pruned entry element e e' →
      Pruned entry element (.block x (before ++ .returned y (some e) :: after))
        (.block x (before ++ .returned y (some e') :: after))

/-- The first return statement decides what is returned. -/
theorem firstReturned?_append {before after : List Expr} {y : Extent} {e : Option Expr}
    (h : ∀ s ∈ before, ∀ z r, s ≠ .returned z r) :
    firstReturned? (before ++ .returned y e :: after) = e.map unwrap := by
  induction before with
  | nil => rfl
  | cons s rest ih =>
    have hs : firstReturned? (s :: (rest ++ .returned y e :: after)) =
        firstReturned? (rest ++ .returned y e :: after) := by
      cases s with
      | returned z r => exact absurd rfl (h _ List.mem_cons_self z r)
      | _ => rfl
    rw [List.cons_append, hs]
    exact ih fun s hs => h s (List.mem_cons_of_mem _ hs)

section Pruned

variable {entry : Entry → Prop} {element : Expr → Prop} {e e' : Expr}

theorem Pruned.unwrap (h : Pruned entry element e e') :
    Pruned entry element e.unwrap e'.unwrap := by
  induction h with
  | same e => exact .same e.unwrap
  | parenthesized x _ ih => exact ih
  | object x h => exact .object x h
  | array x h => exact .array x h
  | function x parameters h => exact .function x parameters h
  | block x y hbefore h => exact .block x y hbefore h

theorem Pruned.rel_same (o : Option Expr) : Option.Rel (Pruned entry element) o o := by
  cases o with
  | none => exact .none
  | some e => exact .some (.same e)

/-- A pruned function returns the pruned result. -/
theorem Pruned.result? (h : Pruned entry element e e') :
    Option.Rel (Pruned entry element) e.result? e'.result? := by
  unfold Expr.result?
  have hunwrap := h.unwrap
  generalize e.unwrap = u, e'.unwrap = u' at hunwrap
  cases hunwrap with
  | same u => exact rel_same _
  | object x h => exact .some (.object x h)
  | array x h => exact .some (.array x h)
  | parenthesized x h => exact .some (.parenthesized x h)
  | function x parameters h => exact .some (.function x parameters h)
  | block x y hbefore h =>
    show Option.Rel _ (firstReturned? _) (firstReturned? _)
    rw [firstReturned?_append hbefore, firstReturned?_append hbefore]
    exact .some h.unwrap

/-- A pruned object has the entries that are left. -/
theorem Pruned.properties? (h : Pruned entry element e e') :
    Option.Rel (Thinned entry Eq) e.properties? e'.properties? := by
  cases h with
  | same e =>
    cases e.properties? with
    | none => exact .none
    | some es => exact .some (.refl es)
  | object x h => exact .some h
  | array x h => exact .none
  | parenthesized x h => exact .none
  | function x parameters h => exact .none
  | block x y hbefore h => exact .none

end Pruned
end Expr
end SchemaAtlas
