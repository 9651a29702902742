import SchemaAtlas.Proofs.Expr.Pruned

/-!
# What a function returns

A function may be written with its result as the body or with a block, where the first return
statement decides. Either way the result may stand in parentheses.
-/

namespace SchemaAtlas.Expr

/-- A body that returns the given expression, which is in no parentheses itself. -/
inductive Yields (body result : Expr) : Prop
  | expression (h : body.unwrap = result)
  | block {e : Expr} (x y : Extent) {before after : List Expr}
      (hbody : body.unwrap = .block x (before ++ .returned y (some e) :: after))
      (hbefore : ∀ s ∈ before, ∀ z r, s ≠ .returned z r) (h : e.unwrap = result)

/-- A block may start with its return statement. -/
theorem Yields.of_returned (x y : Extent) (e : Expr) (after : List Expr) :
    (Expr.block x (.returned y (some e) :: after)).Yields e.unwrap :=
  have hbody : (Expr.block x (.returned y (some e) :: after)).unwrap =
    .block x ([] ++ .returned y (some e) :: after) := rfl
  .block x y hbody (fun _ hs => absurd hs List.not_mem_nil) rfl

/-- Only a block is not returned as it stands. -/
theorem Yields.result?_eq {body result : Expr} (h : body.Yields result)
    (hresult : ∀ x statements, result ≠ .block x statements) : body.result? = some result := by
  cases h with
  | expression h =>
    rw [result?, h]
    cases result with
    | block x statements => exact absurd rfl (hresult x statements)
    | _ => rfl
  | block x y hbody hbefore h =>
    rw [result?, hbody]
    show firstReturned? _ = _
    rw [firstReturned?_append hbefore, Option.map_some, h]

/-- The first return statement with an expression is preceded by no other. -/
theorem exists_of_firstReturned?_eq {statements : List Expr} {result : Expr}
    (h : firstReturned? statements = some result) :
    ∃ before y e after, statements = before ++ .returned y (some e) :: after ∧
      (∀ s ∈ before, ∀ z r, s ≠ .returned z r) ∧ e.unwrap = result := by
  induction statements with
  | nil => cases h
  | cons s rest ih =>
    cases s
    case returned y e =>
      obtain ⟨e, rfl, hresult⟩ := Option.map_eq_some_iff.mp h
      exact ⟨[], y, e, rest, rfl, by simp, hresult⟩
    all_goals
      -- a statement of any other kind is passed over
      obtain ⟨before, y, e, after, rfl, hbefore, hresult⟩ := ih h
      refine ⟨_ :: before, y, e, after, rfl, ?_, hresult⟩
      simpa using hbefore

/-- What is read as the result of a body is what the body yields. -/
theorem yields_of_result?_eq {body result : Expr} (h : body.result? = some result) :
    body.Yields result := by
  unfold result? at h
  split at h
  · next x statements hblock =>
    obtain ⟨before, y, e, after, rfl, hbefore, hresult⟩ := exists_of_firstReturned?_eq h
    exact .block x y hblock hbefore hresult
  · exact .expression (Option.some.inj h)

end SchemaAtlas.Expr
