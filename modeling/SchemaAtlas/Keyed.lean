import SchemaAtlas.Text.Basic

/-!
# Values by key, in the order of first insertion

A key that is set again keeps its place and takes the new value.
-/

namespace SchemaAtlas

abbrev Keyed (α : Type) := List (Text × α)

namespace Keyed

variable {α : Type}

def get? (m : Keyed α) (key : Text) : Option α := m.lookup key

/-- Change the value of a key, which is none if the key is new. -/
def alter (key : Text) (f : Option α → α) : Keyed α → Keyed α
  | [] => [(key, f none)]
  | (k, v) :: rest => if k = key then (k, f (some v)) :: rest else (k, v) :: alter key f rest

def set (m : Keyed α) (key : Text) (value : α) : Keyed α := alter key (fun _ => value) m

def ofList (pairs : List (Text × α)) : Keyed α :=
  pairs.foldl (fun m (key, value) => m.set key value) []

@[simp] theorem get?_alter (m : Keyed α) (key other : Text) (f : Option α → α) :
    (alter key f m).get? other = if other = key then some (f (m.get? key)) else m.get? other := by
  induction m with
  | nil =>
    by_cases h : other = key
    · simp [alter, get?, h]
    · have : (other == key) = false := by simpa using h
      simp [alter, get?, List.lookup_cons, h, this]
  | cons p rest ih =>
    obtain ⟨k, v⟩ := p
    simp only [get?] at ih
    by_cases hk : k = key
    · subst hk
      by_cases h : other = k
      · simp [alter, get?, h]
      · have : (other == k) = false := by simpa using h
        simp [alter, get?, List.lookup_cons, h, this]
    · by_cases ho : other = k
      · subst ho
        simp [alter, get?, hk]
      · have : (other == k) = false := by simpa using ho
        have hk' : (key == k) = false := by simpa using fun h => hk h.symm
        simp [alter, get?, List.lookup_cons, hk, this, hk', ih]

@[simp] theorem get?_set (m : Keyed α) (key other : Text) (value : α) :
    (m.set key value).get? other = if other = key then some value else m.get? other := by
  simp [set]

end Keyed
end SchemaAtlas
