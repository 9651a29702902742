import Mathlib.Data.List.Induction
import SchemaAtlas.Entity.Classification

/-!
# What names say of entities and columns

A marker counts wherever it occurs in a name. A junction has few columns and no primary key, and the
column of an audit role is a column of the entity.
-/

namespace SchemaAtlas

/-- A text occurs in another iff it stands somewhere in it without a gap. -/
theorem Text.occursIn_iff (part t : Text) : part.occursIn t ↔ part <:+: t := by
  induction t with
  | nil => simp [occursIn]
  | cons c rest ih =>
    rw [List.infix_cons_iff, ← ih, ← List.isPrefixOf_iff_prefix]
    simp [occursIn]

/-- A junction marker counts in each of the names, in upper or lower case. -/
theorem HeuristicRules.hasJunctionMarker_iff (rules : HeuristicRules) (names : List Text) :
    rules.hasJunctionMarker names ↔
      ∃ marker ∈ rules.junctionMarkers, ∃ name ∈ names, marker.lower <:+: name.lower := by
  simp [hasJunctionMarker, ← Text.occursIn_iff]

/-- A junction has no key of its own and few columns. -/
theorem EntityType.of_classify_eq_junction {rules : HeuristicRules} {name tableName : Text}
    {columns : List Column} {primaryKeys : List Text}
    (h : classify rules name tableName columns primaryKeys = .junction) :
    primaryKeys = [] ∧ columns.length ≤ rules.junctionMaxColumns := by
  unfold classify at h
  split at h
  · next hjunction =>
    simp only [Bool.and_eq_true, decide_eq_true_eq, List.isEmpty_iff] at hjunction
    exact ⟨hjunction.2, hjunction.1.2⟩
  · split at h
    · cases h
    · split at h
      · cases h
      · split at h <;> cases h

namespace AuditColumns

/-- A column is noted in the role that it plays. -/
theorem get_noting (rules : List AuditRule) (found : AuditColumns) (column : Column)
    (role : AuditRole) : (noting rules found column).get role =
      if roleOf? rules column.name = some role then some column.name else found.get role := by
  unfold noting
  cases roleOf? rules column.name with
  | none => simp
  | some played => simp [eq_comm]

/-- A role is played by the last column that it fits. -/
theorem get_detect (rules : List AuditRule) (columns : List Column) (role : AuditRole) :
    (detect rules columns).get role =
      (columns.reverse.find? fun c => roleOf? rules c.name = some role).map (·.name) := by
  induction columns using List.reverseRecOn with
  | nil => cases role <;> rfl
  | append_singleton columns column ih =>
    have hstep : detect rules (columns ++ [column]) =
        noting rules (detect rules columns) column := by
      simp [detect]
    rw [hstep, get_noting, ih]
    by_cases hrole : roleOf? rules column.name = some role <;> simp [hrole]

/-- The column that plays a role is one of the columns. -/
theorem exists_column_of_get_detect {rules : List AuditRule} {columns : List Column}
    {role : AuditRole} {name : Text} (h : (detect rules columns).get role = some name) :
    ∃ c ∈ columns, c.name = name := by
  rw [get_detect, Option.map_eq_some_iff] at h
  obtain ⟨c, hc, hname⟩ := h
  exact ⟨c, List.mem_reverse.mp (List.mem_of_find?_eq_some hc), hname⟩

end AuditColumns
end SchemaAtlas
