import Mathlib.Data.List.Basic
import SchemaAtlas.Relation.Resolution

/-!
# Where resolutions come from

A resolution is found through a junction that joins two tables at least, the table of the resolved
relation and its final target among them. Of the other entities only their names matter for the
tables that a junction joins.
-/

namespace SchemaAtlas

def Column.link (c : Column) : Text × Option ColumnReference := (c.name, c.references)

def Named (entities : List Entity) (name : Text) : Prop := ∃ e ∈ entities, e.name = name

theorem firstNamed?_eq_some {entities : List Entity} {name : Text} {e : Entity}
    (h : firstNamed? entities name = some e) : e ∈ entities ∧ e.name = name := by
  have hname := List.find?_some h
  exact ⟨List.mem_of_find?_eq_some h, by simpa using hname⟩

theorem isSome_firstNamed? (entities : List Entity) (name : Text) :
    (firstNamed? entities name).isSome ↔ Named entities name := by
  rw [firstNamed?, List.find?_isSome]
  simp [Named]

section JoinedTables

variable {rules : HeuristicRules} {entities entities' : List Entity}

/-- Which table a column implies depends only on which names there are. -/
theorem impliedTable?_congr (h : ∀ name, Named entities name ↔ Named entities' name)
    (column : Text) :
    impliedTable? rules entities column = impliedTable? rules entities' column := by
  have hconst (name : Text) : (firstNamed? entities name).map (fun _ => name) =
      (firstNamed? entities' name).map fun _ => name := by
    have hsome : (firstNamed? entities name).isSome ↔ (firstNamed? entities' name).isSome := by
      rw [isSome_firstNamed?, isSome_firstNamed?, h]
    cases hfound : firstNamed? entities name <;> cases hfound' : firstNamed? entities' name <;>
      simp [hfound, hfound'] at hsome ⊢
  simp only [impliedTable?, hconst]

/-- The tables that a junction joins depend on the names and references of its columns and on the
names of the entities. -/
theorem joinedTables_congr_links {junction junction' : Entity}
    (h : ∀ name, Named entities name ↔ Named entities' name)
    (hlinks : junction.columns.map Column.link = junction'.columns.map Column.link) :
    joinedTables rules entities junction = joinedTables rules entities' junction' := by
  have himplied : impliedTable? rules entities = impliedTable? rules entities' :=
    funext (impliedTable?_congr h)
  have hreferenced (columns : List Column) :
      columns.filterMap (fun c => c.references.map (·.table)) =
        (columns.map Column.link).filterMap fun link => link.2.map (·.table) := by
    rw [List.filterMap_map]
    rfl
  have hstands (columns : List Column) :
      columns.filterMap (fun c => impliedTable? rules entities' c.name) =
        (columns.map Column.link).filterMap fun link => impliedTable? rules entities' link.1 := by
    rw [List.filterMap_map]
    rfl
  simp only [joinedTables, himplied, hreferenced, hstands, hlinks]

theorem joinedTables_congr {junction junction' : Entity}
    (h : ∀ name, Named entities name ↔ Named entities' name)
    (hcolumns : junction.columns = junction'.columns) :
    joinedTables rules entities junction = joinedTables rules entities' junction' :=
  joinedTables_congr_links h (congrArg (List.map Column.link) hcolumns)

/-- A table that a column stands for is the name of an entity. -/
theorem named_of_impliedTable? {column table : Text}
    (h : impliedTable? rules entities column = some table) : Named entities table := by
  unfold impliedTable? at h
  split at h
  · obtain ⟨e, he, rfl⟩ := Option.map_eq_some_iff.mp h
    obtain ⟨hmem, hname⟩ := firstNamed?_eq_some he
    exact ⟨e, hmem, hname⟩
  · cases h

/-- A junction with fewer than two references joins entities. -/
theorem named_of_mem_joinedTables {junction : Entity} (hcount : junction.foreignKeyCount < 2)
    {table : Text} (h : table ∈ joinedTables rules entities junction) : Named entities table := by
  have hreferenced : ¬ 2 ≤ (junction.columns.filterMap fun c =>
      c.references.map (·.table)).length := by
    rw [List.length_filterMap_eq_countP]
    simpa [Entity.foreignKeyCount] using hcount
  rw [joinedTables, if_neg hreferenced] at h
  obtain ⟨c, -, hc⟩ := List.mem_filterMap.mp h
  exact named_of_impliedTable? hc

end JoinedTables

namespace Resolution

structure FoundThrough (rules : HeuristicRules) (entities : List Entity) (junction : Entity)
    (res : Resolution) : Prop where
  mem : junction ∈ entities
  junctionType : junction.entityType = some .junction
  complete : 2 ≤ (joinedTables rules entities junction).length
  table_mem : res.table ∈ joinedTables rules entities junction
  target_mem : res.finalTarget ∈ joinedTables rules entities junction
  target_ne : res.finalTarget ≠ res.table
  junctionTable : res.junctionTable = junction.name
  place : ∃ e ∈ entities, e.name = res.table ∧ ∃ list, e.relations = some list ∧
    list.origin = res.origin ∧ ∃ r, list.items[res.position]? = some r ∧
      leadsThrough junction.name r

/-- Every resolution is found through some junction, as the one for its table. -/
theorem exists_foundThrough_of? {rules : HeuristicRules} {entities : List Entity}
    {res : Resolution} (h : res ∈ Junction.resolutions rules entities) :
    ∃ junction, FoundThrough rules entities junction res ∧
      of? entities junction.name (joinedTables rules entities junction) res.table = some res := by
  obtain ⟨junction, hjunction, hres⟩ := List.mem_flatMap.mp h
  obtain ⟨hjunction, hcomplete⟩ := List.mem_filter.mp hjunction
  obtain ⟨hmem, htype⟩ := List.mem_filter.mp hjunction
  obtain ⟨table, htable, hof⟩ := List.mem_filterMap.mp hres
  have hparts := hof
  simp only [of?, Option.bind_eq_bind, Option.bind_eq_some_iff] at hparts
  obtain ⟨e, he, list, hlist, position, hposition, r, hr, target, htarget, hfound⟩ := hparts
  cases hfound
  obtain ⟨hemem, rfl⟩ := firstNamed?_eq_some he
  refine ⟨junction, ⟨hmem, by simpa using htype, by simpa [Junction.isComplete] using hcomplete,
    htable, List.mem_of_find?_eq_some htarget, ?_, rfl, e, hemem, rfl, list, hlist, rfl, r, hr, ?_⟩,
    hof⟩
  · have hne := List.find?_some htarget
    simpa using hne
  · obtain ⟨hlt, hleads, -⟩ := List.findIdx?_eq_some_iff_getElem.mp hposition
    have hget := List.getElem?_eq_getElem hlt
    rw [hr] at hget
    rw [Option.some.inj hget]
    exact hleads

theorem exists_foundThrough {rules : HeuristicRules} {entities : List Entity} {res : Resolution}
    (h : res ∈ Junction.resolutions rules entities) :
    ∃ junction, FoundThrough rules entities junction res := by
  obtain ⟨junction, hthrough, -⟩ := exists_foundThrough_of? h
  exact ⟨junction, hthrough⟩

end Resolution
end SchemaAtlas
