import SchemaAtlas.Batch.Source
import SchemaAtlas.Relation.Resolution

/-!
# Batches

A batch is read document by document; a document that fails counts as empty. Then relations are
attached across documents, to entities that have none yet and by the first document that declares
them, and many-to-many relations are resolved over all entities at once.
-/

namespace SchemaAtlas

/-- The entities of a batch by document. -/
abbrev Batch := Keyed (List Entity)

namespace ParsedDocument

/-- The relations of a document whose table is not among its own entities. -/
def foreignRelations (d : ParsedDocument) (origin : Nat) : Keyed RelationList :=
  (d.relationLists origin).filter fun (table, _) => !d.entities.any (·.name = table)

/-- Number the documents of a batch, so that their relation lists differ in origin. -/
def numbered (documents : List ParsedDocument) : List ParsedDocument :=
  documents.mapIdx fun i d => d.withOrigin i

/-- The foreign relations of all documents, in batch order. -/
def allForeign (documents : List ParsedDocument) : List (Keyed RelationList) :=
  documents.mapIdx fun i d => d.foreignRelations i

def attachForeign (documents : List ParsedDocument) : List ParsedDocument :=
  let foreign := allForeign documents
  let attachAll (e : Entity) : Entity := foreign.foldl (fun e lists => e.attach lists true) e
  documents.map fun d => { d with entities := d.entities.map attachAll }

/-- The entities of all documents, in order. -/
def allEntities (documents : List ParsedDocument) : List Entity := documents.flatMap (·.entities)

def resolved (rules : HeuristicRules) (documents : List ParsedDocument) : List ParsedDocument :=
  let found := Junction.resolutions rules (allEntities documents)
  documents.map fun d => { d with entities := d.entities.map (Junction.settle found) }

/-- The entities by document id; documents of one id are put together. -/
def toBatch (documents : List ParsedDocument) : Batch :=
  documents.foldl (fun batch d => batch.alter d.id fun old => old.getD [] ++ d.entities) []

end ParsedDocument

namespace Batch

open ParsedDocument

/-- The documents of a batch after everything that reaches across documents. -/
def linked (config : Config) (documents : List ParsedDocument) : List ParsedDocument :=
  let documents := numbered documents
  if config.options.extractRelations then
    let attached := attachForeign documents
    if config.options.resolveManyToMany then resolved config.heuristics attached else attached
  else documents

def linkEvents (config : Config) (documents : List ParsedDocument) : List Event :=
  if config.options.extractRelations && config.options.resolveManyToMany then
    let rules := config.heuristics
    let entities := allEntities (attachForeign (numbered documents))
    Junction.reports rules entities
      ++ [.relationsResolved (Junction.count (Junction.resolutions rules entities))]
  else []

def ofDocuments (config : Config) (documents : List ParsedDocument) : Trace Batch := do
  (linkEvents config documents).forM Trace.emit
  Trace.emit (.batchExtracted (allEntities documents).length documents.length)
  return toBatch (linked config documents)

def orEmpty (id : Text) (result : Except DocumentFailure ParsedDocument) : Trace ParsedDocument :=
  match result with
  | .ok parsed => pure parsed
  | .error failure => do
    Trace.emit (.documentFailed failure)
    return { id := id }

/-- Extract the entities of sources, each with its id. -/
def ofSources (reader : TreeReader) (config : Config) (sources : Keyed Source) : Trace Batch := do
  let documents ← sources.mapM fun (name, source) => do
    orEmpty name (← parseSource reader config name none source)
  ofDocuments config documents

/-- Extract the entities of files. -/
def ofFiles (reader : TreeReader) (config : Config) (system : FileSystem)
    (paths : List Path) (root : Option Path) : Trace Batch := do
  let documents ← paths.mapM fun path => do
    let name := path.documentId root
    orEmpty name (← parseFile reader config system path (some name))
  ofDocuments config documents

end Batch
end SchemaAtlas
