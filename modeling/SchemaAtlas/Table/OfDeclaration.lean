import SchemaAtlas.Entity.Classification
import SchemaAtlas.Table.Extras

/-!
# Entities from table declarations

A table builder takes a name, a map of columns, given directly or returned by a function, and
optionally a function for indexes and constraints.
-/

namespace SchemaAtlas.Entity

def columnMap? (e : Expr) : Option (List Entry) :=
  match e.unwrap with
  | .function _ _ body => body.result?.bind Expr.properties?
  | .object _ entries => some entries
  | _ => none

/-- The parts of a table declaration that an entity is made of. -/
structure Shape where
  tableName : Text
  columns : List Entry
  extras : List (Option Text × Expr)

def shape (d : Declaration) : Except Mismatch Shape :=
  match d.arguments? with
  | some (name :: columns :: rest) =>
    match name.unwrap.string? with
    | none => .error .tableNameWithoutText
    | some [] => .error .tableNameEmpty
    | some tableName =>
      match columnMap? columns with
      | none => .error .tableWithoutColumns
      | some entries => .ok ⟨tableName, entries, (rest.head?.map Extra.entries).getD []⟩
  | _ => .error .tableWithoutArguments

def foreignKeyOf? (c : Column) : Option ForeignKey :=
  c.references.map fun r => {
    columns := [c.name]
    references := ⟨r.table, [r.column]⟩
    onDelete := r.onDelete
    onUpdate := r.onUpdate }

def ofParts (name tableName : Text) (columns : List Column) (extras : List Extra) : Entity where
  name := name
  tableName := tableName
  columns := columns
  primaryKeys := (columns.filter (·.primaryKey)).map (·.name)
  foreignKeys := columns.filterMap foreignKeyOf? ++ extras.filterMap Extra.foreignKey?
  indexes := extras.filterMap Extra.index?
  checks := extras.filterMap Extra.check?

/-- Add what the options ask for: comments, the type and the audit columns. -/
def described (config : Config) (d : Declaration) (e : Entity) : Entity :=
  let options := config.options
  let rules := config.heuristics
  { e with
    comments :=
      if options.includeComments then Comment.documentation? [d.statementComments, d.comments]
      else none
    entityType :=
      if options.classifyEntities then
        some (EntityType.classify rules e.name e.tableName e.columns e.primaryKeys)
      else none
    auditColumns :=
      if options.detectAuditColumns then some (AuditColumns.detect rules.auditColumns e.columns)
      else none }

def ofDeclaration (config : Config) (enums : Enums) (d : Declaration) :
    Trace (Except Mismatch Entity) :=
  match shape d with
  | .error cause => pure (.error cause)
  | .ok parts => do
    let columns ← Column.ofEntries config.options.includeComments enums parts.columns
    let extras ← Extra.ofEntries parts.tableName parts.extras
    return .ok ((ofParts d.name parts.tableName columns extras).described config d)

def parsedEvent (e : Entity) : Event :=
  .entityParsed e.name e.tableName e.entityType e.columns.length e.primaryKeys.length
    e.foreignKeyCount

end SchemaAtlas.Entity
