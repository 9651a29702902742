import SchemaAtlas.Number.Numeral

/-!
# Entities

The records of the extracted model: entities with their columns, keys, indexes and checks, and the
relations between them. What follows from other fields is a function, not a field: an index is
partial iff it has a condition, and the foreign keys of columns are counted from the columns.
-/

namespace SchemaAtlas

/-- The role that an entity plays among the others. -/
inductive EntityType where
  | reference
  | transactional
  | association
  | audit
  | junction
  deriving DecidableEq, Repr, Inhabited

namespace EntityType

def label : EntityType → String
  | .reference => "reference"
  | .transactional => "transactional"
  | .association => "association"
  | .audit => "audit"
  | .junction => "many-to-many-junction"

def all : List EntityType := [.reference, .transactional, .association, .audit, .junction]

def ofLabel? (t : Text) : Option EntityType := all.find? fun e => (e.label : Text) = t

end EntityType

/-- How many records stand on either side of a relation. -/
inductive Cardinality where
  | oneToOne
  | oneToMany
  | manyToOne
  | manyToMany
  deriving DecidableEq, Repr, Inhabited

namespace Cardinality

def label : Cardinality → String
  | .oneToOne => "one-to-one"
  | .oneToMany => "one-to-many"
  | .manyToOne => "many-to-one"
  | .manyToMany => "many-to-many"

def all : List Cardinality := [.oneToOne, .oneToMany, .manyToOne, .manyToMany]

def ofLabel? (t : Text) : Option Cardinality := all.find? fun c => (c.label : Text) = t

end Cardinality

/-- What happens to a referencing row when the referenced one goes or changes. -/
inductive ReferentialAction where
  | cascade
  | setNull
  | setDefault
  | restrict
  | noAction
  deriving DecidableEq, Repr, Inhabited

namespace ReferentialAction

/-- The words of an action, in lower case. -/
def words : ReferentialAction → String
  | .cascade => "cascade"
  | .setNull => "set null"
  | .setDefault => "set default"
  | .restrict => "restrict"
  | .noAction => "no action"

def sql : ReferentialAction → String
  | .cascade => "CASCADE"
  | .setNull => "SET NULL"
  | .setDefault => "SET DEFAULT"
  | .restrict => "RESTRICT"
  | .noAction => "NO ACTION"

def all : List ReferentialAction := [.cascade, .setNull, .setDefault, .restrict, .noAction]

def ofWords? (t : Text) : Option ReferentialAction := all.find? fun a => (a.words : Text) = t

/-- The action with the given SQL spelling. -/
def ofSql? (t : Text) : Option ReferentialAction := all.find? fun a => (a.sql : Text) = t

end ReferentialAction

inductive IndexMethod where
  | btree
  | hash
  | gin
  | gist
  deriving DecidableEq, Repr, Inhabited

namespace IndexMethod

def label : IndexMethod → String
  | .btree => "btree"
  | .hash => "hash"
  | .gin => "gin"
  | .gist => "gist"

def all : List IndexMethod := [.btree, .hash, .gin, .gist]

def ofLabel? (t : Text) : Option IndexMethod := all.find? fun m => (m.label : Text) = t

end IndexMethod

/-- A role that columns play by convention. -/
inductive AuditRole where
  | createdAt
  | updatedAt
  | deletedAt
  | version
  deriving DecidableEq, Repr, Inhabited

namespace AuditRole

def label : AuditRole → String
  | .createdAt => "created_at"
  | .updatedAt => "updated_at"
  | .deletedAt => "deleted_at"
  | .version => "version"

/-- All roles, in the order in which they are listed. -/
def all : List AuditRole := [.createdAt, .updatedAt, .deletedAt, .version]

def ofLabel? (t : Text) : Option AuditRole := all.find? fun r => (r.label : Text) = t

end AuditRole

/-- The column that plays each role, where there is one. -/
structure AuditColumns where
  createdAt : Option Text := none
  updatedAt : Option Text := none
  deletedAt : Option Text := none
  version : Option Text := none
  deriving DecidableEq, Repr, Inhabited

namespace AuditColumns

def get (a : AuditColumns) : AuditRole → Option Text
  | .createdAt => a.createdAt
  | .updatedAt => a.updatedAt
  | .deletedAt => a.deletedAt
  | .version => a.version

def set (a : AuditColumns) (role : AuditRole) (column : Text) : AuditColumns :=
  match role with
  | .createdAt => { a with createdAt := some column }
  | .updatedAt => { a with updatedAt := some column }
  | .deletedAt => { a with deletedAt := some column }
  | .version => { a with version := some column }

@[simp] theorem get_set (a : AuditColumns) (r s : AuditRole) (column : Text) :
    (a.set r column).get s = if s = r then some column else a.get s := by
  cases r <;> cases s <;> rfl

/-- The roles that are played by a column with a name that is not empty. -/
def detected (a : AuditColumns) : List (AuditRole × Text) :=
  AuditRole.all.filterMap fun role =>
    match a.get role with
    | some (c :: rest) => some (role, c :: rest)
    | _ => none

end AuditColumns

structure ColumnReference where
  table : Text
  column : Text
  onDelete : Option ReferentialAction := none
  onUpdate : Option ReferentialAction := none
  deriving DecidableEq, Repr, Inhabited

structure Column where
  name : Text
  type : Text := "unknown"
  nullable : Bool := true
  defaultValue : Option Text := none
  primaryKey : Bool := false
  unique : Bool := false
  length : Option Number := none
  precision : Option Number := none
  scale : Option Number := none
  enumValues : Option (List Text) := none
  references : Option ColumnReference := none
  comments : Option Text := none
  deriving DecidableEq, Repr, Inhabited

structure ForeignKeyTarget where
  table : Text
  columns : List Text
  deriving DecidableEq, Repr, Inhabited

/-- A foreign key, declared on a column or over several columns. -/
structure ForeignKey where
  columns : List Text
  references : ForeignKeyTarget
  onDelete : Option ReferentialAction := none
  onUpdate : Option ReferentialAction := none
  name : Option Text := none
  deriving DecidableEq, Repr, Inhabited

/-- An index or a uniqueness constraint. -/
structure Index where
  name : Text
  columns : List Text
  unique : Bool := false
  isPartial : Bool := false
  condition : Option Text := none
  method : Option IndexMethod := none
  deriving DecidableEq, Repr, Inhabited

/-- A check constraint and the columns it names. -/
structure Check where
  name : Text
  expression : Text
  columns : List Text
  deriving DecidableEq, Repr, Inhabited

/-- A named relation of an entity. The last two fields are filled in when the relation is resolved
through a junction entity. -/
structure Relation where
  name : Text
  type : Cardinality
  relatedTable : Text
  fields : Option (List Text) := none
  references : Option (List Text) := none
  relationName : Option Text := none
  isSelfReferencing : Bool := false
  finalTarget : Option Text := none
  junctionTable : Option Text := none
  deriving DecidableEq, Repr, Inhabited

/-- The relations of one declaration. Entities of one name that got their relations from the same
declaration have the same `origin`; resolving a relation of one resolves it in all of them. -/
structure RelationList where
  origin : Nat
  items : List Relation
  deriving DecidableEq, Repr, Inhabited

/-- A declared table with everything that belongs to it. -/
structure Entity where
  name : Text
  tableName : Text
  columns : List Column := []
  primaryKeys : List Text := []
  foreignKeys : List ForeignKey := []
  indexes : List Index := []
  checks : List Check := []
  relations : Option RelationList := none
  comments : Option Text := none
  entityType : Option EntityType := none
  auditColumns : Option AuditColumns := none
  deriving DecidableEq, Repr, Inhabited

namespace Entity

def foreignKeyCount (e : Entity) : Nat := e.columns.countP (·.references.isSome)

/-- The relations, or none. -/
def relationItems (e : Entity) : List Relation := (e.relations.map (·.items)).getD []

def column? (e : Entity) (name : Text) : Option Column := e.columns.find? (·.name = name)

end Entity
end SchemaAtlas
