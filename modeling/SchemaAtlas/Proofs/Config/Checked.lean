import Mathlib.Data.List.Forall2
import SchemaAtlas.Config.Validation

/-!
# Results of validation

When a check that is put together from others gives a valid result, and which problems stand in its
way.
-/

namespace SchemaAtlas

deriving instance DecidableEq for Checked

namespace Checked

variable {α β : Type}

def problems : Checked α → List ConfigProblem
  | valid _ => []
  | invalid problems => problems

/-- A result in whose way a problem stands is not valid. -/
theorem exists_invalid_of_mem_problems {x : Checked α} {p : ConfigProblem} (h : p ∈ x.problems) :
    ∃ problems, x = invalid problems ∧ p ∈ problems := by
  cases x with
  | valid a => cases h
  | invalid problems => exact ⟨problems, rfl, h⟩

@[simp] theorem problems_map (f : α → β) (x : Checked α) : (x.map f).problems = x.problems := by
  cases x <;> rfl

@[simp] theorem mem_problems_ap {f : Checked (α → β)} {x : Checked α} {p : ConfigProblem} :
    p ∈ (f.ap x).problems ↔ p ∈ f.problems ∨ p ∈ x.problems := by
  cases f <;> cases x <;> simp [ap, map, problems]

theorem mem_problems_andThen {x : Checked α} {f : α → Checked β} {p : ConfigProblem}
    (h : p ∈ x.problems) : p ∈ (x.andThen f).problems := by
  cases x with
  | valid a => cases h
  | invalid problems => exact h

theorem mem_problems_within {step : PlaceStep} {x : Checked α} {p : ConfigProblem}
    (h : p ∈ x.problems) :
    { p with place := step :: p.place } ∈ (x.within step).problems := by
  cases x with
  | valid a => cases h
  | invalid problems => exact List.mem_map_of_mem h

theorem map_eq_valid {f : α → β} {x : Checked α} {b : β} :
    x.map f = valid b ↔ ∃ a, x = valid a ∧ f a = b := by
  cases x <;> simp [map]

theorem ap_eq_valid {f : Checked (α → β)} {x : Checked α} {b : β} :
    f.ap x = valid b ↔ ∃ g, f = valid g ∧ ∃ a, x = valid a ∧ g a = b := by
  cases f <;> cases x <;> simp [ap, map]

/-- What holds of a valid result that others are applied to, holds by what they give. -/
theorem exists_ap_eq_valid {f : Checked (α → β)} {x : Checked α} {P : β → Prop} :
    (∃ b, f.ap x = valid b ∧ P b) ↔ ∃ g, f = valid g ∧ ∃ a, x = valid a ∧ P (g a) := by
  cases f <;> cases x <;> simp [ap, map]

theorem exists_map_eq_valid {f : α → β} {x : Checked α} {P : β → Prop} :
    (∃ b, x.map f = valid b ∧ P b) ↔ ∃ a, x = valid a ∧ P (f a) := by
  cases x <;> simp [map]

theorem andThen_eq_valid {f : α → Checked β} {x : Checked α} {b : β} :
    x.andThen f = valid b ↔ ∃ a, x = valid a ∧ f a = valid b := by
  cases x <;> simp [andThen]

@[simp] theorem complain_ne_valid (c : Complaint) (a : α) : complain c ≠ valid a := by
  simp [complain]

@[simp] theorem within_eq_valid {step : PlaceStep} {x : Checked α} {a : α} :
    x.within step = valid a ↔ x = valid a := by
  cases x <;> simp [within]

/-- A list is valid if its items are. -/
theorem items_eq_valid {check : Value → Checked α} {position : Nat} {values : List Value}
    {as : List α} : items check position values = valid as ↔
      List.Forall₂ (fun v a => check v = valid a) values as := by
  induction values generalizing position as with
  | nil => simp [items, eq_comm]
  | cons v rest ih =>
    simp only [items, ap_eq_valid, map_eq_valid, within_eq_valid, ih, List.forall₂_cons_left_iff]
    constructor
    · rintro ⟨_, ⟨a, ha, rfl⟩, as, has, rfl⟩
      exact ⟨a, as, ha, has, rfl⟩
    · rintro ⟨a, as, ha, has, rfl⟩
      exact ⟨_, ⟨a, ha, rfl⟩, as, has, rfl⟩

/-- Items that are checked alike make lists that are checked alike. -/
theorem items_map {check : Value → Checked α} {f : Value → Value} (h : ∀ v, check (f v) = check v)
    (position : Nat) (values : List Value) :
    items check position (values.map f) = items check position values := by
  induction values generalizing position with
  | nil => rfl
  | cons v rest ih => rw [List.map_cons, items, items, h, ih]

end Checked

end SchemaAtlas
