import SchemaAtlas.Proofs.Entity.Classification
import SchemaAtlas.Proofs.Relation.Settlement
import SchemaAtlas.Relation.OfDeclaration

/-!
# Relations as entries declare them

The helper, the target and the configuration of an entry settle a relation: its cardinality follows
from names and fields, its hint at itself from its label, and it is not resolved yet.
-/

namespace SchemaAtlas.Relation

variable {rules : HeuristicRules} {entry : Entry} {r : Relation}

def Declared (rules : HeuristicRules) (r : Relation) : Prop := ∃ entry, ofEntry rules entry = .ok r

/-- No list of names holds an empty name. -/
theorem nil_notMem_names (elements : List Expr) : [] ∉ names elements := by
  simp [names]

def helper? (entry : Entry) : Option Text :=
  match entry.value.unwrap with
  | .call _ (.identifier _ helper) _ => some helper
  | _ => none

def Suggests (entry : Entry) (c : Cardinality) : Prop :=
  (helper? entry = some ("one" : Text) ∧ c = .oneToOne) ∨
    (helper? entry = some ("many" : Text) ∧ c = .oneToMany)

theorem suggests_of_ofHelper? {helper : Text} {c : Cardinality}
    (hentry : helper? entry = some helper) (h : Cardinality.ofHelper? helper = some c) :
    Suggests entry c := by
  unfold Cardinality.ofHelper? at h
  split at h
  · next hone => exact .inl ⟨hone ▸ hentry, (Option.some.inj h).symm⟩
  · split at h
    · next hmany => exact .inr ⟨hmany ▸ hentry, (Option.some.inj h).symm⟩
    · cases h

structure Plain (entry : Entry) (tentative : Cardinality) (r : Relation) : Prop where
  suggests : Suggests entry tentative
  name_eq : r.name = entry.key
  finalTarget : r.finalTarget = none
  junctionTable : r.junctionTable = none
  fields : ∀ names, r.fields = some names → [] ∉ names
  references : ∀ names, r.references = some names → [] ∉ names

/-- A relation with its configuration, before anything is resolved. -/
theorem plain_withConfig {tentative : Cardinality} (h : Suggests entry tentative) (table : Text)
    (config : Option (List Entry)) :
    let bare : Relation := { name := entry.key, type := tentative, relatedTable := table }
    Plain entry tentative (match config with
      | some config => bare.withConfig config
      | none => bare) := by
  cases config with
  | none => exact ⟨h, rfl, rfl, rfl, by simp, by simp⟩
  | some config =>
    refine ⟨h, rfl, rfl, rfl, ?_, ?_⟩
    · intro found hfound
      obtain ⟨elements, -, rfl⟩ := Option.map_eq_some_iff.mp hfound
      exact nil_notMem_names elements
    · intro found hfound
      obtain ⟨elements, -, rfl⟩ := Option.map_eq_some_iff.mp hfound
      exact nil_notMem_names elements

/-- A declared relation is a plain one whose cardinality and hint are set by the rules. -/
theorem exists_plain_of_ofEntry (h : ofEntry rules entry = .ok r) :
    ∃ tentative plain, Plain entry tentative plain ∧ r = { plain with
      isSelfReferencing := plain.hintsAtSelf rules
      type := plain.refined rules tentative } := by
  unfold ofEntry at h
  split at h
  · next helper arguments hcall =>
    have hhelper : helper? entry = some helper := by rw [helper?, hcall]
    split at h
    · cases h
    · next tentative htentative =>
      split at h
      · cases h
      · split at h
        · cases h
        · cases h
          exact ⟨tentative, _, plain_withConfig (suggests_of_ofHelper? hhelper htentative) _ _, rfl⟩
  · cases h

/-- A declared relation is not resolved yet. -/
theorem Declared.unresolved_eq (h : r.Declared rules) : r.unresolved = r := by
  obtain ⟨entry, h⟩ := h
  obtain ⟨tentative, plain, hplain, rfl⟩ := exists_plain_of_ofEntry h
  exact unresolved_eq_self hplain.finalTarget hplain.junctionTable

/-- A declared relation is many-to-many iff a junction marker occurs in its target or its name. -/
theorem Declared.type_eq_manyToMany_iff (h : r.Declared rules) :
    r.type = .manyToMany ↔ ∃ marker ∈ rules.junctionMarkers,
      marker.lower <:+: r.name.lower ∨ marker.lower <:+: r.relatedTable.lower := by
  obtain ⟨entry, h⟩ := h
  obtain ⟨tentative, plain, hplain, rfl⟩ := exists_plain_of_ofEntry h
  have hmarker : rules.hasJunctionMarker [plain.relatedTable, plain.name] ↔
      ∃ marker ∈ rules.junctionMarkers,
        marker.lower <:+: plain.name.lower ∨ marker.lower <:+: plain.relatedTable.lower := by
    rw [HeuristicRules.hasJunctionMarker_iff]
    simp [or_comm]
  rw [← hmarker]
  show refined rules tentative plain = .manyToMany ↔ _
  unfold refined
  split
  · next hhas => simp [hhas]
  · next hhas =>
    rcases hplain.suggests with ⟨-, rfl⟩ | ⟨-, rfl⟩ <;> split <;> simp [hhas]

/-- The entry of a declared relation has its name and calls the helper of its cardinality. A single
record is many-to-one iff it is found by fields that refer to others. -/
theorem Declared.exists_entry (h : r.Declared rules) :
    ∃ entry, ofEntry rules entry = .ok r ∧ entry.key = r.name ∧
      (r.type = .oneToMany → helper? entry = some ("many" : Text)) ∧
      (r.type = .manyToOne → helper? entry = some ("one" : Text) ∧
        r.fields.isSome ∧ r.references.isSome) ∧
      (r.type = .oneToOne → helper? entry = some ("one" : Text) ∧
        ¬ (r.fields.isSome ∧ r.references.isSome)) := by
  obtain ⟨entry, h⟩ := h
  obtain ⟨tentative, plain, hplain, rfl⟩ := exists_plain_of_ofEntry h
  refine ⟨entry, h, hplain.name_eq.symm, ?_⟩
  show (refined rules tentative plain = .oneToMany → _) ∧
    (refined rules tentative plain = .manyToOne → _) ∧
    (refined rules tentative plain = .oneToOne → _)
  unfold refined
  split
  · simp
  · rcases hplain.suggests with ⟨hhelper, rfl⟩ | ⟨hhelper, rfl⟩
    · split
      · next hfields => simp [hhelper, hfields.2]
      · next hfields =>
        have hmissing : ¬ (plain.fields.isSome ∧ plain.references.isSome) :=
          fun hboth => hfields ⟨rfl, hboth⟩
        simpa [hhelper] using hmissing
    · simp [hhelper]

/-- The fields of a declared relation and those they refer to have names. -/
theorem Declared.nil_notMem (h : r.Declared rules) :
    (∀ names, r.fields = some names → [] ∉ names) ∧
      ∀ names, r.references = some names → [] ∉ names := by
  obtain ⟨entry, h⟩ := h
  obtain ⟨tentative, plain, hplain, rfl⟩ := exists_plain_of_ofEntry h
  exact ⟨hplain.fields, hplain.references⟩

/-- A declared relation hints at itself iff its label holds a marker for that. -/
theorem Declared.isSelfReferencing_iff (h : r.Declared rules) :
    r.isSelfReferencing ↔ ∃ label, r.relationName = some label ∧ label ≠ [] ∧
      ∃ marker ∈ rules.selfReferenceMarkers, marker <:+: label.lower := by
  obtain ⟨entry, h⟩ := h
  obtain ⟨tentative, plain, hplain, rfl⟩ := exists_plain_of_ofEntry h
  show plain.hintsAtSelf rules ↔ ∃ label, plain.relationName = some label ∧ _
  unfold hintsAtSelf
  cases plain.relationName with
  | none => simp
  | some label => simp [← Text.occursIn_iff]

end SchemaAtlas.Relation
