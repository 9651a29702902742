import Mathlib.Data.List.Forall2
import SchemaAtlas.Report.Trace

/-!
# Outcomes of composed traces

A trace that is built from others succeeds iff all of them do, and its result is built from theirs.
The events never matter for that, so everything below is about outcomes alone.
-/

namespace SchemaAtlas

variable {α β ε : Type}

@[simp] theorem Except.ok_bind (a : α) (f : α → Except ε β) : (Except.ok a >>= f) = f a := rfl

@[simp] theorem Except.error_bind (e : ε) (f : α → Except ε β) :
    (Except.error e >>= f) = .error e := rfl

@[simp] theorem Except.map_ok (f : α → β) (a : α) :
    (f <$> Except.ok a : Except ε β) = .ok (f a) := rfl

@[simp] theorem Except.map_error (f : α → β) (e : ε) :
    (f <$> Except.error e : Except ε β) = .error e := rfl

theorem Except.bind_eq_ok {x : Except ε α} {f : α → Except ε β} {b : β} :
    (x >>= f) = .ok b ↔ ∃ a, x = .ok a ∧ f a = .ok b := by
  cases x with
  | error e => simp
  | ok a => simp

theorem Except.map_eq_ok {x : Except ε α} {f : α → β} {b : β} :
    f <$> x = .ok b ↔ ∃ a, x = .ok a ∧ f a = b := by
  cases x with
  | error e => simp
  | ok a => simp

/-- A traversal succeeds iff every step does, with the results in their places. -/
theorem Except.mapM_eq_ok {f : α → Except ε β} {xs : List α} {ys : List β} :
    xs.mapM f = .ok ys ↔ List.Forall₂ (fun x y => f x = .ok y) xs ys := by
  induction xs generalizing ys with
  | nil => cases ys <;> simp [pure, Except.pure]
  | cons x xs ih =>
    simp only [List.mapM_cons, Except.bind_eq_ok, ih, List.forall₂_cons_left_iff]
    constructor
    · rintro ⟨y, hy, rest, hrest, h⟩
      cases h
      exact ⟨y, rest, hy, hrest, rfl⟩
    · rintro ⟨y, rest, hy, hrest, rfl⟩
      exact ⟨y, hy, rest, hrest, rfl⟩

/-- Traversals of lists that match member by member are the same if their steps are. -/
theorem Except.mapM_congr_forall₂ {γ : Type} {R : α → γ → Prop} {f : α → Except ε β}
    {g : γ → Except ε β} {xs : List α} {ys : List γ} (h : List.Forall₂ R xs ys)
    (hstep : ∀ x y, R x y → f x = g y) : xs.mapM f = ys.mapM g := by
  induction h with
  | nil => rfl
  | cons hxy _ ih => rw [List.mapM_cons, List.mapM_cons, hstep _ _ hxy, ih]

/-- A relation of computations that composing them keeps is kept by traversals of lists that match
member by member. -/
theorem mapM_of_forall₂ {m : Type → Type} [Monad m] [LawfulMonad m]
    {R : {α : Type} → m α → m α → Prop} (hrefl : ∀ {α : Type} (x : m α), R x x)
    (hbind : ∀ {α β : Type} {x y : m α} {f g : α → m β},
      R x y → (∀ a, R (f a) (g a)) → R (x >>= f) (y >>= g))
    {γ : Type} {f : α → m γ} {g : β → m γ} {xs : List α} {ys : List β}
    (h : List.Forall₂ (fun x y => R (f x) (g y)) xs ys) : R (xs.mapM f) (ys.mapM g) := by
  induction h with
  | nil => exact hrefl _
  | cons hxy _ ih =>
    rw [List.mapM_cons, List.mapM_cons]
    exact hbind hxy fun c => hbind ih fun cs => hrefl _

/-- Results that are changed one by one are changed together. -/
theorem Except.mapM_map {γ : Type} (f : α → Except ε β) (g : β → γ) (xs : List α) :
    (xs.mapM fun x => g <$> f x) = List.map g <$> xs.mapM f := by
  induction xs with
  | nil => rfl
  | cons x xs ih =>
    rw [List.mapM_cons, ih, List.mapM_cons]
    cases f x with
    | error e => rfl
    | ok y => cases xs.mapM f <;> rfl

theorem Except.bind_eq_error {x : Except ε α} {f : α → Except ε β} {e : ε} :
    (x >>= f) = .error e ↔ x = .error e ∨ ∃ a, x = .ok a ∧ f a = .error e := by
  cases x with
  | error e => simp
  | ok a => simp

theorem Except.map_eq_error {x : Except ε α} {f : α → β} {e : ε} :
    f <$> x = .error e ↔ x = .error e := by
  cases x with
  | error e => simp
  | ok a => simp

/-- A traversal fails as one of its steps does. -/
theorem Except.exists_of_mapM_eq_error {f : α → Except ε β} {xs : List α} {e : ε}
    (h : xs.mapM f = .error e) : ∃ x ∈ xs, f x = .error e := by
  induction xs with
  | nil => cases h
  | cons x xs ih =>
    rw [List.mapM_cons, Except.bind_eq_error] at h
    rcases h with h | ⟨y, -, h⟩
    · exact ⟨x, List.mem_cons_self, h⟩
    · rcases Except.bind_eq_error.mp h with h | ⟨ys, -, h⟩
      · obtain ⟨x', hx', h'⟩ := ih h
        exact ⟨x', List.mem_cons_of_mem _ hx', h'⟩
      · cases h

/-- A computation gives a result. -/
def Returns (x : Except ε α) : Prop := ∃ a, x = .ok a

@[simp] theorem returns_ok (a : α) : Returns (Except.ok a : Except ε α) := ⟨a, rfl⟩

@[simp] theorem not_returns_error (e : ε) : ¬ Returns (Except.error e : Except ε α) := by
  rintro ⟨a, h⟩
  cases h

instance (x : Except ε α) : Decidable (Returns x) :=
  match x with
  | .ok a => .isTrue (returns_ok a)
  | .error e => .isFalse (not_returns_error e)

@[simp] theorem returns_map (f : α → β) (x : Except ε α) : Returns (f <$> x) ↔ Returns x := by
  cases x <;> simp

/-- A traversal gives a result iff every step does. -/
theorem returns_mapM {f : α → Except ε β} {xs : List α} :
    Returns (xs.mapM f) ↔ ∀ x ∈ xs, Returns (f x) := by
  induction xs with
  | nil => simp [pure, Except.pure]
  | cons x xs ih =>
    rw [List.mapM_cons, List.forall_mem_cons, ← ih]
    cases f x with
    | error e => simp
    | ok y => cases xs.mapM f <;> simp [pure, Except.pure]

/-- A traversal whose steps give the values of a function gives the list of these values. -/
theorem Except.mapM_eq_ok_iff_returns {f : α → Except ε β} {g : α → β}
    (hg : ∀ x y, f x = .ok y → g x = y) {xs : List α} {ys : List β} :
    xs.mapM f = .ok ys ↔ (∀ x ∈ xs, Returns (f x)) ∧ ys = xs.map g := by
  have hvalues (zs : List β) (h : xs.mapM f = .ok zs) : zs = xs.map g := by
    have hsteps := (Except.mapM_eq_ok.mp h).imp fun x z => hg x z
    rw [← List.forall₂_map_left_iff, List.forall₂_eq_eq_eq] at hsteps
    exact hsteps.symm
  rw [← returns_mapM]
  constructor
  · intro h
    exact ⟨⟨ys, h⟩, hvalues ys h⟩
  · rintro ⟨⟨zs, h⟩, rfl⟩
    rw [h, hvalues zs h]

theorem Except.toOption_eq_some {x : Except ε α} {a : α} : x.toOption = some a ↔ x = .ok a := by
  cases x <;> simp [Except.toOption]

theorem Except.exists_ok_ok_of_any {ε' : Type} {x : Except ε (Except ε' α)} {q : α → Bool}
    (h : (x.toOption.bind Except.toOption).any q) : ∃ a, x = .ok (.ok a) ∧ q a := by
  obtain ⟨a, hfound, hq⟩ := (Option.any_eq_true _ _).mp h
  obtain ⟨result, hresult, ha⟩ := Option.bind_eq_some_iff.mp hfound
  rw [Except.toOption_eq_some] at hresult ha
  exact ⟨a, ha ▸ hresult, hq⟩

/-- What is left of a list when failures are skipped comes from its members. -/
theorem Except.exists_ok_of_mem_filterMap {f : α → Except ε β} {xs : List α} {b : β}
    (h : b ∈ xs.filterMap fun a => (f a).toOption) : ∃ a ∈ xs, f a = .ok b := by
  obtain ⟨a, ha, hb⟩ := List.mem_filterMap.mp h
  exact ⟨a, ha, Except.toOption_eq_some.mp hb⟩

theorem map_congr_forall₂ {g : α → β} {like : α → α → Prop} {as bs : List α}
    (h : List.Forall₂ like as bs) (hg : ∀ a b, like a b → g a = g b) : as.map g = bs.map g := by
  induction h with
  | nil => rfl
  | cons hab _ ih => rw [List.map_cons, List.map_cons, hg _ _ hab, ih]

/-- Every member of a list has its partner in the other. -/
theorem exists_left_of_forall₂ {R : α → β → Prop} {xs : List α} {ys : List β}
    (h : List.Forall₂ R xs ys) {y : β} (hy : y ∈ ys) : ∃ x ∈ xs, R x y := by
  induction h with
  | nil => cases hy
  | cons hxy _ ih =>
    rcases List.mem_cons.mp hy with rfl | hy
    · exact ⟨_, List.mem_cons_self, hxy⟩
    · obtain ⟨x, hx, hR⟩ := ih hy
      exact ⟨x, List.mem_cons_of_mem _ hx, hR⟩

namespace Trace

theorem pure_bind (a : α) (f : α → Trace β) : (pure a >>= f) = f a := by
  show Trace.bind ⟨[], .ok a⟩ f = f a
  simp [Trace.bind]

instance : LawfulMonad Trace := LawfulMonad.mk' Trace
  (fun x => by
    obtain ⟨events, outcome⟩ := x
    cases outcome with
    | error fault => rfl
    | ok a => exact congrArg (fun es => Trace.mk es (.ok a)) (List.append_nil events))
  Trace.pure_bind
  (fun x f g => by
    show Trace.bind (Trace.bind x f) g = Trace.bind x fun a => Trace.bind (f a) g
    obtain ⟨events, outcome⟩ := x
    cases outcome with
    | error fault => rfl
    | ok a =>
      cases h : (f a).outcome with
      | error fault => simp [Trace.bind, h]
      | ok b => simp [Trace.bind, h])

@[simp] theorem outcome_map (f : α → β) (x : Trace α) : (f <$> x).outcome = f <$> x.outcome := by
  rw [map_eq_pure_bind, outcome_bind, map_eq_pure_bind]
  rfl

@[simp] theorem outcome_mapM (f : α → Trace β) (xs : List α) :
    (xs.mapM f).outcome = xs.mapM fun a => (f a).outcome := by
  induction xs with
  | nil => rfl
  | cons x xs ih =>
    simp only [List.mapM_cons, outcome_bind, ih]
    rfl

/-- Reporting never fails. -/
@[simp] theorem outcome_forM_emit (events : List Event) :
    (forM events emit).outcome = .ok () := by
  induction events with
  | nil => rfl
  | cons event rest ih =>
    rw [List.forM_cons, outcome_bind]
    exact ih

/-- A report in front of a computation leaves its outcome alone. -/
theorem outcome_ite_emit (b : Bool) (event : Event) (x : Trace α) :
    (if b then (do emit event; x) else x).outcome = x.outcome := by
  cases b <;> simp

end Trace
end SchemaAtlas
