import Mathlib.Data.List.Induction
import SchemaAtlas.Keyed

/-!
# Look-up in values by key

What is found under a key after the keys of a list were set one after the other, in the part of a
list of pairs that a test on the keys selects, and in a list that holds every key once.
-/

namespace SchemaAtlas.Keyed

variable {α β : Type}

theorem get?_nil (key : Text) : get? ([] : Keyed α) key = none := rfl

theorem get?_cons (p : Text × α) (m : Keyed α) (key : Text) :
    get? (p :: m) key = if key = p.1 then some p.2 else get? m key := by
  obtain ⟨k, v⟩ := p
  by_cases h : key = k
  · simp [get?, h]
  · have hne : (key == k) = false := by simpa using h
    simp [get?, List.lookup_cons, h, hne]

/-- What is found under a key is paired with it. -/
theorem mem_of_get? {m : Keyed α} {key : Text} {value : α} (h : m.get? key = some value) :
    (key, value) ∈ m := by
  induction m with
  | nil => cases h
  | cons p rest ih =>
    rw [get?_cons] at h
    split at h
    · next hkey =>
      cases h
      exact hkey ▸ List.mem_cons_self
    · exact List.mem_cons_of_mem p (ih h)

def last? (pairs : List (Text × α)) (key : Text) : Option α :=
  ((pairs.filter (·.1 = key)).getLast?).map (·.2)

theorem last?_concat (pairs : List (Text × α)) (p : Text × α) (key : Text) :
    last? (pairs ++ [p]) key = if key = p.1 then some p.2 else last? pairs key := by
  by_cases h : p.1 = key
  · simp [last?, h, List.filter_append]
  · have h' : key ≠ p.1 := fun he => h he.symm
    simp [last?, h, h', List.filter_append]

theorem ofList_concat (pairs : List (Text × α)) (p : Text × α) :
    ofList (pairs ++ [p]) = (ofList pairs).set p.1 p.2 := by
  simp [ofList]

/-- A key that is set several times holds the last value. -/
theorem get?_ofList (pairs : List (Text × α)) (key : Text) :
    (ofList pairs).get? key = last? pairs key := by
  induction pairs using List.reverseRecOn with
  | nil => rfl
  | append_singleton pairs p ih => rw [ofList_concat, get?_set, ih, last?_concat]

/-- Setting a key keeps other pairs and adds no other. -/
theorem mem_of_mem_set {m : Keyed α} {key : Text} {value : α} {p : Text × α}
    (h : p ∈ m.set key value) : p ∈ m ∨ p = (key, value) := by
  induction m with
  | nil => exact .inr (List.mem_singleton.mp h)
  | cons q rest ih =>
    rw [set, alter] at h
    split at h
    · next hkey =>
      rcases List.mem_cons.mp h with rfl | h
      · exact .inr (hkey ▸ rfl)
      · exact .inl (List.mem_cons_of_mem q h)
    · rcases List.mem_cons.mp h with rfl | h
      · exact .inl List.mem_cons_self
      · exact (ih h).imp_left (List.mem_cons_of_mem q)

/-- Setting the keys of a list adds no pairs but its own. -/
theorem mem_of_mem_ofList {pairs : List (Text × α)} {p : Text × α} (h : p ∈ ofList pairs) :
    p ∈ pairs := by
  induction pairs using List.reverseRecOn with
  | nil => cases h
  | append_singleton pairs q ih =>
    rw [ofList_concat] at h
    rcases mem_of_mem_set h with h | rfl
    · exact List.mem_append_left _ (ih h)
    · exact List.mem_append_right _ List.mem_cons_self

theorem get?_append (m m' : Keyed α) (key : Text) :
    get? (m ++ m') key = (m.get? key).or (m'.get? key) :=
  List.lookup_append

theorem get?_map (f : α → β) (m : Keyed α) (key : Text) :
    get? (m.map fun p => (p.1, f p.2)) key = (m.get? key).map f := by
  induction m with
  | nil => rfl
  | cons p rest ih =>
    rw [List.map_cons, get?_cons, get?_cons, ih]
    split <;> rfl

/-- A test on keys hides the keys that fail it and leaves the others alone. -/
theorem get?_filter (q : Text → Bool) (m : Keyed α) (key : Text) :
    get? (m.filter fun p => q p.1) key = if q key then m.get? key else none := by
  induction m with
  | nil => simp [get?_nil]
  | cons p rest ih =>
    rw [get?_cons, List.filter_cons]
    by_cases hq : q p.1
    · rw [if_pos hq, get?_cons, ih]
      by_cases hk : key = p.1
      · simp [hk, hq]
      · simp [hk]
    · rw [if_neg hq, ih]
      by_cases hk : key = p.1
      · simp [hk, hq]
      · simp [hk]

/-- A value for a new key is put last. -/
theorem alter_of_notMem {m : Keyed α} {key : Text} (h : key ∉ m.map (·.1))
    (f : Option α → α) : alter key f m = m ++ [(key, f none)] := by
  induction m with
  | nil => rfl
  | cons p rest ih =>
    obtain ⟨hne, hrest⟩ := not_or.mp fun hmem => h (List.mem_cons.mpr hmem)
    rw [alter, if_neg fun he => hne he.symm, ih hrest, List.cons_append]

/-- Values that are altered alike before and after a change of all values. -/
theorem alter_map (f : α → β) {g : Option α → α} {g' : Option β → β}
    (h : ∀ old, g' (old.map f) = f (g old)) (key : Text) (m : Keyed α) :
    alter key g' (m.map fun p => (p.1, f p.2)) = (alter key g m).map fun p => (p.1, f p.2) := by
  induction m with
  | nil => exact congrArg (fun value => [(key, value)]) (h none)
  | cons p rest ih =>
    obtain ⟨k, value⟩ := p
    by_cases hk : k = key
    · simp only [List.map_cons, alter, if_pos hk]
      rw [← h (some value), Option.map_some]
    · simp only [List.map_cons, alter, if_neg hk, ih]

/-- With every key once, a key holds exactly the value that it is paired with. -/
theorem get?_eq_some_iff_mem {m : Keyed α} (h : (m.map (·.1)).Nodup) {key : Text} {value : α} :
    m.get? key = some value ↔ (key, value) ∈ m := by
  induction m with
  | nil => simp [get?_nil]
  | cons p rest ih =>
    obtain ⟨hfirst, hrest⟩ := List.nodup_cons.mp h
    rw [get?_cons, List.mem_cons]
    by_cases hkey : key = p.1
    · subst hkey
      have hnot : (p.1, value) ∉ rest := fun hmem =>
        hfirst (List.mem_map.mpr ⟨_, hmem, rfl⟩)
      simp only [if_true, Option.some.injEq, hnot, or_false]
      exact ⟨fun hvalue => hvalue ▸ rfl, fun hpair => (congrArg Prod.snd hpair).symm⟩
    · have hnot : (key, value) ≠ p := fun hpair => hkey (congrArg Prod.fst hpair)
      simp [hkey, hnot, ih hrest]

/-- With every key once, only one pair is left out with its key. -/
theorem filter_ne_of_nodup {before after : Keyed α} {p : Text × α}
    (h : ((before ++ p :: after).map (·.1)).Nodup) :
    (before ++ p :: after).filter (·.1 ≠ p.1) = before ++ after := by
  rw [List.map_append, List.map_cons] at h
  have hnew := (List.nodup_cons.mp (List.perm_middle.nodup_iff.mp h)).1
  rw [← List.map_append] at hnew
  rw [List.filter_append, List.filter_cons_of_neg (by simp), ← List.filter_append,
    List.filter_eq_self]
  intro x hx
  have hne : x.1 ≠ p.1 := fun he => hnew (he ▸ List.mem_map_of_mem hx)
  simpa using hne

end SchemaAtlas.Keyed
