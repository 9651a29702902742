import SchemaAtlas.Report.Trace

/-!
# Relations through junctions

A many-to-many relation names the junction that it goes through. Resolving it finds the table on the
other side. What is assigned depends only on columns, types and targets, none of which an assignment
changes; so the assignments are first collected and then made one after the other.
-/

namespace SchemaAtlas

/-- A simple plural: `category` becomes `categories`, `user` becomes `users`. -/
def pluralize (name : Text) : Text :=
  if name.getLast? = some 0x79 then name.dropLast ++ "ies" else name ++ "s"

def firstNamed? (entities : List Entity) (name : Text) : Option Entity :=
  entities.find? (·.name = name)

/-- The table that a column which looks like a key stands for, if there is an entity of its name. -/
def impliedTable? (rules : HeuristicRules) (entities : List Entity) (column : Text) :
    Option Text :=
  if rules.isIdColumn column then
    let table := pluralize (column.lower.dropEnd rules.idSuffix.length)
    (firstNamed? entities table).map fun _ => table
  else none

/-- The tables that a junction joins: those its columns refer to, if there are at least two, else
those that its columns stand for. -/
def joinedTables (rules : HeuristicRules) (entities : List Entity) (junction : Entity) :
    List Text :=
  let referenced := junction.columns.filterMap fun c => c.references.map (·.table)
  if 2 ≤ referenced.length then referenced
  else junction.columns.filterMap fun c => impliedTable? rules entities c.name

/-- The assignment of a target and a junction to one relation of the entities of a name. -/
structure Resolution where
  table : Text
  origin : Nat
  position : Nat
  relation : Text
  finalTarget : Text
  junctionTable : Text
  deriving DecidableEq, Repr

namespace Resolution

def leadsThrough (junction : Text) (r : Relation) : Bool :=
  r.relatedTable = junction && r.type = .manyToMany

def of? (entities : List Entity) (junction : Text) (joined : List Text) (table : Text) :
    Option Resolution := do
  let entity ← firstNamed? entities table
  let relations ← entity.relations
  let position ← relations.items.findIdx? (leadsThrough junction)
  let relation ← relations.items[position]?
  let target ← joined.find? (· ≠ table)
  return ⟨entity.name, relations.origin, position, relation.name, target, junction⟩

def resolve (r : Resolution) (relation : Relation) : Relation :=
  { relation with finalTarget := some r.finalTarget, junctionTable := some r.junctionTable }

/-- Make an assignment in a list of relations, if it is the list meant. -/
def applyToList (r : Resolution) (list : RelationList) : RelationList :=
  if list.origin = r.origin then
    { list with items := list.items.modify r.position r.resolve }
  else list

/-- Make an assignment in an entity, if its relations are the ones meant. -/
def applyTo (r : Resolution) (e : Entity) : Entity :=
  if e.name = r.table then { e with relations := e.relations.map r.applyToList } else e

end Resolution

namespace Junction

def junctions (entities : List Entity) : List Entity :=
  entities.filter (·.entityType = some .junction)

def isComplete (rules : HeuristicRules) (entities : List Entity) (junction : Entity) : Bool :=
  2 ≤ (joinedTables rules entities junction).length

/-- The resolutions through one junction, in the order of the joined tables. -/
def resolutionsThrough (rules : HeuristicRules) (entities : List Entity) (junction : Entity) :
    List Resolution :=
  let joined := joinedTables rules entities junction
  joined.filterMap (Resolution.of? entities junction.name joined)

def resolutions (rules : HeuristicRules) (entities : List Entity) : List Resolution :=
  ((junctions entities).filter (isComplete rules entities)).flatMap
    (resolutionsThrough rules entities)

/-- The reports of junctions that join fewer than two tables. -/
def reports (rules : HeuristicRules) (entities : List Entity) : List Event :=
  ((junctions entities).filter (!isComplete rules entities ·)).map fun e =>
    .junctionIncomplete e.name

def settle (resolutions : List Resolution) (e : Entity) : Entity :=
  resolutions.foldl (fun e r => r.applyTo e) e

/-- The number of relations resolved, told apart by table and name. -/
def count (resolutions : List Resolution) : Nat :=
  (resolutions.map fun r => (r.table, r.relation)).eraseDups.length

/-- Resolve the relations of entities; gives the entities and the number of relations resolved. -/
def resolve (rules : HeuristicRules) (entities : List Entity) : List Entity × Nat :=
  let found := resolutions rules entities
  (entities.map (settle found), count found)

end Junction
end SchemaAtlas
