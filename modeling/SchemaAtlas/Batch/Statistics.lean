import SchemaAtlas.Batch.Extraction

/-!
# Statistics of a batch

Counts over all entities of a batch. Each is a sum over the entities, so the statistics of two
batches add up.
-/

namespace SchemaAtlas

/-- Counts over a batch. The two count maps list only what occurs. -/
structure Statistics where
  totalEntities : Nat
  totalDocuments : Nat
  entityTypes : List (EntityType × Nat)
  totalRelations : Nat
  relationTypes : List (Cardinality × Nat)
  selfReferencing : Nat
  entitiesWithRelations : Nat
  auditColumns : List Text
  softDeletes : Nat
  foreignKeys : Nat
  deriving DecidableEq, Repr, Inhabited

namespace Statistics

/-- How often each value occurs, in the order of first occurrence. -/
def tally {α : Type} [BEq α] (values : List α) : List (α × Nat) :=
  values.eraseDups.map fun v => (v, values.count v)

def detectedColumns (e : Entity) : List (AuditRole × Text) :=
  (e.auditColumns.map AuditColumns.detected).getD []

def hasSoftDelete (e : Entity) : Bool := (detectedColumns e).any (·.1 = .deletedAt)

def total (counts : List Nat) : Nat := counts.foldr (· + ·) 0

def ofBatch (batch : Batch) : Statistics :=
  let entities := batch.flatMap (·.2)
  let relations := entities.flatMap Entity.relationItems
  { totalEntities := entities.length
    totalDocuments := batch.length
    entityTypes := tally (entities.filterMap (·.entityType))
    totalRelations := relations.length
    relationTypes := tally (relations.map (·.type))
    selfReferencing := relations.countP (·.isSelfReferencing)
    entitiesWithRelations := entities.countP fun e => !e.relationItems.isEmpty
    auditColumns :=
      (entities.flatMap fun e => (detectedColumns e).map (·.2)).eraseDups.mergeSort Text.le
    softDeletes := entities.countP hasSoftDelete
    foreignKeys := total (entities.map Entity.foreignKeyCount) }

end Statistics
end SchemaAtlas
