import SchemaAtlas.Proofs.Outcome

/-!
# Declarations dropped for their depth

A declaration whose value nests too deeply is dropped and reported, so the reports of a trace tell
how many were. A run that goes deeper drops fewer, and if it drops as many, it is the same run.
-/

namespace SchemaAtlas

def Event.tellsDrop : Event → Bool
  | .declarationTooDeep .. => true
  | _ => false

namespace Trace

variable {α β γ : Type} {x y : Trace α}

/-- How many declarations were dropped for their depth. -/
def drops (x : Trace α) : Nat := x.events.countP Event.tellsDrop

theorem drops_eq_zero
    (h : ∀ name line, Event.declarationTooDeep name line ∉ x.events) : x.drops = 0 := by
  refine List.countP_eq_zero.mpr fun event hmem htells => ?_
  cases event with
  | declarationTooDeep name line => exact h name line hmem
  | _ => cases htells

@[simp] theorem drops_pure (a : α) : (pure a : Trace α).drops = 0 := rfl

theorem drops_bind_of_ok {a : α} (h : x.outcome = .ok a) (f : α → Trace β) :
    (x >>= f).drops = x.drops + (f a).drops := by
  show (Trace.bind x f).events.countP _ = _
  simp only [Trace.bind, h, List.countP_append, drops]

theorem drops_bind_of_error {fault : Fault} (h : x.outcome = .error fault) (f : α → Trace β) :
    (x >>= f).drops = x.drops := by
  show (Trace.bind x f).events.countP _ = _
  simp only [Trace.bind, h, drops]

theorem drops_le_bind (x : Trace α) (f : α → Trace β) : x.drops ≤ (x >>= f).drops := by
  cases h : x.outcome with
  | error fault => exact Nat.le_of_eq (drops_bind_of_error h f).symm
  | ok a =>
    rw [drops_bind_of_ok h]
    exact Nat.le_add_right _ _

@[simp] theorem drops_map (f : α → β) (x : Trace α) : (f <$> x).drops = x.drops := by
  rw [map_eq_pure_bind]
  cases h : x.outcome with
  | error fault => rw [drops_bind_of_error h]
  | ok a => rw [drops_bind_of_ok h, drops_pure, Nat.add_zero]

/-- One trace goes at least as deep as another: both are the same, or the other drops more
declarations for their depth and so gets to its end, if the first does. -/
def Deepens (x y : Trace α) : Prop :=
  x = y ∨ x.drops < y.drops ∧ (Returns x.outcome → Returns y.outcome)

theorem Deepens.refl (x : Trace α) : Deepens x x := .inl rfl

theorem Deepens.drops_le (h : Deepens x y) : x.drops ≤ y.drops := by
  rcases h with rfl | ⟨hlt, -⟩
  · exact Nat.le_refl _
  · exact Nat.le_of_lt hlt

theorem Deepens.returns (h : Deepens x y) (hx : Returns x.outcome) : Returns y.outcome := by
  rcases h with rfl | ⟨-, hreturns⟩
  · exact hx
  · exact hreturns hx

theorem Deepens.eq_of_drops_eq (h : Deepens x y) (hdrops : x.drops = y.drops) : x = y :=
  h.resolve_right fun hless => Nat.ne_of_lt hless.1 hdrops

theorem Deepens.map (f : α → β) (h : Deepens x y) : Deepens (f <$> x) (f <$> y) := by
  rcases h with rfl | ⟨hlt, hreturns⟩
  · exact .refl _
  · refine .inr ⟨by simpa using hlt, ?_⟩
    simpa using hreturns

/-- A trace and what goes on after it, whatever its result is. -/
theorem Deepens.seq (h : Deepens x y) {rest rest' : Trace β} (hrest : Deepens rest rest')
    (k : α → β → γ) : Deepens (x >>= fun a => k a <$> rest) (y >>= fun a => k a <$> rest') := by
  rcases h with rfl | ⟨hlt, hreturns⟩
  · cases hx : x.outcome with
    | error fault =>
      refine .inl ?_
      show Trace.bind x _ = Trace.bind x _
      simp only [Trace.bind, hx]
    | ok a =>
      rcases hrest with rfl | ⟨hlt, hreturns⟩
      · exact .refl _
      · refine .inr ⟨?_, ?_⟩
        · simpa [drops_bind_of_ok hx] using hlt
        · simpa [hx] using hreturns
  · cases hx : x.outcome with
    | error fault =>
      refine .inr ⟨?_, by simp [hx]⟩
      rw [drops_bind_of_error hx]
      exact Nat.lt_of_lt_of_le hlt (drops_le_bind _ _)
    | ok a =>
      obtain ⟨b, hb⟩ := hreturns ⟨a, hx⟩
      refine .inr ⟨?_, ?_⟩
      · rw [drops_bind_of_ok hx, drops_bind_of_ok hb, drops_map, drops_map]
        exact Nat.add_lt_add_of_lt_of_le hlt hrest.drops_le
      · simpa [hx, hb] using hrest.returns

theorem Deepens.mapM {f : α → Trace γ} {g : β → Trace γ} {as : List α} {bs : List β}
    (h : List.Forall₂ (fun a b => Deepens (f a) (g b)) as bs) :
    Deepens (as.mapM f) (bs.mapM g) := by
  induction h with
  | nil => exact .refl _
  | cons hab _ ih =>
    rw [List.mapM_cons, List.mapM_cons]
    simpa only [map_eq_pure_bind] using hab.seq ih List.cons

end Trace
end SchemaAtlas
