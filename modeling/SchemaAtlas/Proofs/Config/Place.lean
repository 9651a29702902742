import SchemaAtlas.Proofs.Config.Checked
import SchemaAtlas.Proofs.Keyed

/-!
# Places in plain values

A place leads from a value to a part of it by keys and positions. A field of a map is the last entry
with its name as the key, so entries with other keys are not seen by those who know the names.
-/

namespace SchemaAtlas

/-- Among different keys, the last value is the only one. -/
theorem Keyed.last?_eq_some_iff_mem {α : Type} {m : Keyed α} (h : (m.map (·.1)).Nodup) {key : Text}
    {value : α} : last? m key = some value ↔ (key, value) ∈ m := by
  induction m using List.reverseRecOn with
  | nil => simp [last?]
  | append_singleton m p ih =>
    rw [List.map_append, List.nodup_append] at h
    obtain ⟨hm, -, hnew⟩ := h
    have hkey : ∀ value, (p.1, value) ∉ m := fun value hmem =>
      hnew p.1 (List.mem_map_of_mem (f := (·.1)) hmem) p.1 (by simp) rfl
    rw [last?_concat, List.mem_append, List.mem_singleton, ← ih hm]
    by_cases hp : key = p.1
    · subst hp
      simp only [if_true, ih hm, hkey, false_or]
      exact ⟨fun he => by cases he; rfl, fun he => by rw [← he]⟩
    · have hne : (key, value) ≠ p := fun he => hp (congrArg Prod.fst he)
      simp [hp, hne]

namespace Value

def at? : Value → List PlaceStep → Option Value
  | v, [] => some v
  | map entries, .key name :: rest => (field? entries name).bind fun v => v.at? rest
  | list items, .index i :: rest => items[i]?.bind fun v => v.at? rest
  | _, _ :: _ => none

def record (fields : Keyed Value) : Value := map (fields.map fun p => (text p.1, p.2))

/-- What is known of entries to one who knows some fields, and what is known of their values. -/
def knownEntries (fields : Keyed (Value → Value)) (entries : List (Value × Value)) :
    List (Value × Value) :=
  entries.filterMap fun (k, v) => match k with
    | text name => (fields.get? name).map fun known => (text name, known v)
    | _ => none

def knownFields (fields : Keyed (Value → Value)) : Value → Value
  | map entries => map (knownEntries fields entries)
  | v => v

def knownItems (known : Value → Value) : Value → Value
  | list items => list (items.map known)
  | v => v

theorem at?_cons (v : Value) (step : PlaceStep) (rest : List PlaceStep) :
    v.at? (step :: rest) = (v.at? [step]).bind fun part => part.at? rest := by
  cases v <;> cases step <;> simp [at?]

theorem at?_map_key (entries : List (Value × Value)) (name : Text) :
    (map entries).at? [.key name] = field? entries name := by
  simp [at?]

theorem field?_concat (entries : List (Value × Value)) (k v : Value) (name : Text) :
    field? (entries ++ [(k, v)]) name = match k with
      | text t => if t = name then some v else field? entries name
      | _ => field? entries name := by
  cases k <;> simp [field?]

theorem field?_record (fields : Keyed Value) (name : Text) :
    field? (fields.map fun p => (text p.1, p.2)) name = Keyed.last? fields name := by
  induction fields using List.reverseRecOn with
  | nil => rfl
  | append_singleton fields p ih =>
    rw [List.map_append, List.map_singleton, field?_concat, ih, Keyed.last?_concat]
    simp only [eq_comm]

/-- A field that is known is seen as far as its value is known, and other entries are not. -/
theorem field?_knownEntries (fields : Keyed (Value → Value)) (entries : List (Value × Value))
    (name : Text) : field? (knownEntries fields entries) name =
      (fields.get? name).bind fun known => (field? entries name).map known := by
  induction entries using List.reverseRecOn with
  | nil => cases fields.get? name <;> rfl
  | append_singleton entries p ih =>
    obtain ⟨k, v⟩ := p
    rw [field?_concat, knownEntries, List.filterMap_append, ← knownEntries]
    cases k with
    | text t =>
      cases hknown : fields.get? t with
      | none =>
        by_cases ht : t = name
        · subst ht
          simp [hknown, ih]
        · simp [hknown, ih, ht]
      | some known =>
        by_cases ht : t = name
        · subst ht
          simp [hknown, field?_concat]
        · simp [hknown, field?_concat, ih, ht]
    | _ => simpa using ih

end Value
end SchemaAtlas
