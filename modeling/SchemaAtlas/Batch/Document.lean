import SchemaAtlas.Relation.OfDeclaration
import SchemaAtlas.Table.OfDeclaration

/-!
# Parsed documents

What one document declares. Its enums are read first, then its tables, then its relations, so the
order of declarations of different kinds does not matter. Relations are attached to the entities of
the document that they describe.
-/

namespace SchemaAtlas

/-- Everything that one document declares. `relations` also holds the declarations whose table is in
another document. -/
structure ParsedDocument where
  id : Text
  entities : List Entity := []
  relations : Keyed (List Relation) := []
  enums : Enums := []
  deriving DecidableEq, Repr, Inhabited

namespace Entity

/-- Attach the relations that are declared for an entity. With `onlyMissing`, one that has relations
keeps them. -/
def attach (relations : Keyed RelationList) (onlyMissing : Bool) (e : Entity) : Entity :=
  if onlyMissing && e.relations.isSome then e
  else match relations.get? e.name with
    | some list => { e with relations := some list }
    | none => e

def withOrigin (origin : Nat) (e : Entity) : Entity :=
  { e with relations := e.relations.map fun list => { list with origin := origin } }

end Entity

namespace ParsedDocument

/-- The declarations of a kind, in order. -/
def ofKind (rules : DeclarationRules) (kind : DeclarationKind) (declarations : List Declaration) :
    List Declaration :=
  declarations.filter fun d => d.kind? rules = some kind

def enumsOf (declarations : List Declaration) : Enums :=
  Keyed.ofList (declarations.filterMap fun d => d.enumValues?.map (d.name, ·))

/-- The entities of table declarations, in order. A declaration of the wrong shape is skipped and
reported. -/
def entitiesOf (config : Config) (id : Text) (enums : Enums) :
    List Declaration → Trace (List Entity)
  | [] => pure []
  | d :: rest => do
    match ← Entity.ofDeclaration config enums d with
    | .ok entity =>
      Trace.emit entity.parsedEvent
      return entity :: (← entitiesOf config id enums rest)
    | .error cause =>
      Trace.emit (.tableSkipped id d.name d.line cause)
      entitiesOf config id enums rest

/-- The relations of relations declarations, in order. A declaration of the wrong shape is skipped
and reported, and one without relations leaves no trace. -/
def relationsOf (config : Config) (id : Text) :
    List Declaration → Trace (List (Text × List Relation))
  | [] => pure []
  | d :: rest => do
    match ← Relation.ofDeclaration config.declarations config.heuristics d with
    | .ok (table, relations) =>
      let others ← relationsOf config id rest
      return if relations.isEmpty then others else (table, relations) :: others
    | .error cause =>
      Trace.emit (.relationsSkipped id d.name d.line cause)
      relationsOf config id rest

def relationLists (d : ParsedDocument) (origin : Nat) : Keyed RelationList :=
  d.relations.map fun (table, items) => (table, ⟨origin, items⟩)

def ofDocument (config : Config) (id : Text) (document : Document) : Trace ParsedDocument := do
  if document.hasErrors then Trace.emit (.partialParse id)
  let declared (kind : DeclarationKind) := ofKind config.declarations kind document.declarations
  let enums := enumsOf (declared .enum)
  let entities ← entitiesOf config id enums (declared .table)
  if config.options.extractRelations then
    let relations ← relationsOf config id (declared .relations)
    let parsed : ParsedDocument := { id, entities, relations := Keyed.ofList relations, enums }
    return { parsed with entities := entities.map (Entity.attach (parsed.relationLists 0) false) }
  else return { id, entities, enums }

def withOrigin (origin : Nat) (d : ParsedDocument) : ParsedDocument :=
  { d with entities := d.entities.map (Entity.withOrigin origin) }

end ParsedDocument
end SchemaAtlas
