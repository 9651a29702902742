import SchemaAtlas.Batch.Statistics

/-!
# Catalogs

A catalog is a set of entities that is worked on step by step: entities are added, relations
attached and resolved, types and audit columns set. Every step that brings relations gives them an
origin of their own, so that only lists that were attached together change together.
-/

namespace SchemaAtlas

/-- An entity and the document it is filed under. -/
structure Filed where
  document : Text
  entity : Entity
  deriving DecidableEq, Repr, Inhabited

/-- Entities in the order of their addition, and the next origin of relations. -/
structure Catalog where
  entries : List Filed := []
  nextOrigin : Nat := 0
  deriving Inhabited

namespace Catalog

def entities (c : Catalog) : List Entity := c.entries.map (·.entity)

def find? (c : Catalog) (name : Text) : Option Entity := firstNamed? c.entities name

def mapEntities (c : Catalog) (f : Entity → Entity) : Catalog :=
  { c with entries := c.entries.map fun filed => { filed with entity := f filed.entity } }

/-- Add entities to a document; their relations get a new origin. -/
def add (c : Catalog) (document : Text) (entities : List Entity) : Catalog where
  entries := c.entries ++ entities.map fun e => ⟨document, e.withOrigin c.nextOrigin⟩
  nextOrigin := c.nextOrigin + 1

def attach (c : Catalog) (relations : Keyed (List Relation)) (onlyMissing : Bool) : Catalog :=
  let lists : Keyed RelationList :=
    relations.map fun (table, items) => (table, ⟨c.nextOrigin, items⟩)
  { c.mapEntities (Entity.attach lists onlyMissing) with nextOrigin := c.nextOrigin + 1 }

/-- Resolve many-to-many relations; also gives the number of relations resolved. -/
def resolve (c : Catalog) (rules : HeuristicRules) : Catalog × Nat :=
  let found := Junction.resolutions rules c.entities
  (c.mapEntities (Junction.settle found), Junction.count found)

def updateFirst (name : Text) (f : Entity → Entity) : List Filed → List Filed
  | [] => []
  | filed :: rest =>
    if filed.entity.name = name then { filed with entity := f filed.entity } :: rest
    else filed :: updateFirst name f rest

def update (c : Catalog) (name : Text) (f : Entity → Entity) : Catalog :=
  { c with entries := updateFirst name f c.entries }

def setType (c : Catalog) (name : Text) (type : EntityType) : Catalog :=
  c.update name fun e => { e with entityType := some type }

def classify (c : Catalog) (rules : HeuristicRules) (name : Text) : Catalog :=
  c.update name fun e => { e with
    entityType := some (EntityType.classify rules e.name e.tableName e.columns e.primaryKeys) }

def detectAudit (c : Catalog) (rules : HeuristicRules) (name : Text) : Catalog :=
  c.update name fun e => { e with
    auditColumns := some (AuditColumns.detect rules.auditColumns e.columns) }

def drop (c : Catalog) (name : Text) : Catalog :=
  { c with entries := c.entries.eraseP (·.entity.name = name) }

/-- The entities by document, in the order of the first entity of each. -/
def toBatch (c : Catalog) : Batch :=
  c.entries.foldl (fun batch filed =>
    batch.alter filed.document fun old => old.getD [] ++ [filed.entity]) []

end Catalog
end SchemaAtlas
