import SchemaAtlas.Config.Basic

/-!
# Classification of entities

The type of an entity and the audit roles of its columns follow from names and counts alone. The
type does not depend on the order of the columns.
-/

namespace SchemaAtlas

namespace EntityType

def marked (markers : List Text) (t : Text) : Bool := markers.any (·.occursIn t)

/-- Whether an entity looks like a junction: by a marker in its names, or by enough columns that
look like keys. -/
def looksLikeJunction (rules : HeuristicRules) (name tableName : Text) (columns : List Column) :
    Bool :=
  rules.hasJunctionMarker [name, tableName]
    || rules.minJunctionIdColumns ≤ columns.countP fun c => rules.isIdColumn c.name

def looksLikeLookup (rules : HeuristicRules) (columns : List Column) : Bool :=
  columns.length ≤ rules.referenceMaxColumns
    && columns.any fun c => marked rules.referenceColumnMarkers c.name

/-- The type of an entity; the first rule that applies decides. -/
def classify (rules : HeuristicRules) (name tableName : Text) (columns : List Column)
    (primaryKeys : List Text) : EntityType :=
  if looksLikeJunction rules name tableName columns && columns.length ≤ rules.junctionMaxColumns
    && primaryKeys.isEmpty then .junction
  else if rules.associationMinForeignKeys ≤ columns.countP (·.references.isSome) then
    .association
  else if marked rules.auditNameMarkers name.lower then .audit
  else if looksLikeLookup rules columns || marked rules.referenceNameMarkers name.lower then
    .reference
  else .transactional

end EntityType

namespace AuditColumns

def roleOf? (rules : List AuditRule) (column : Text) : Option AuditRole :=
  (rules.find? (·.applies column)).map (·.role)

/-- Let a column play its role, if it has one. -/
def noting (rules : List AuditRule) (found : AuditColumns) (column : Column) : AuditColumns :=
  match roleOf? rules column.name with
  | some role => found.set role column.name
  | none => found

/-- The audit columns among the columns of an entity; of several with one role the last counts. -/
def detect (rules : List AuditRule) (columns : List Column) : AuditColumns :=
  columns.foldl (noting rules) {}

end AuditColumns
end SchemaAtlas
