import SchemaAtlas.Entity.Basic
import SchemaAtlas.Text.LowerCase

/-!
# Configuration

Which stages of the extraction run, which markers tell declarations apart, and which names and
shapes classify entities and relations. Every setting has a default.
-/

namespace SchemaAtlas

/-- The stages of the extraction that can be switched off. -/
structure Options where
  includeComments : Bool := true
  classifyEntities : Bool := true
  detectAuditColumns : Bool := true
  extractRelations : Bool := true
  resolveManyToMany : Bool := true
  deriving DecidableEq, Repr, Inhabited

/-- The markers that tell table, enum and relations declarations apart. -/
structure DeclarationRules where
  tableBuilderMarker : Text := "Table"
  enumBuilderMarker : Text := "Enum"
  dialectMarkers : List Text := ["pg", "mysql", "sqlite"]
  relationHelper : Text := "relations"
  relationsSuffix : Text := "Relations"
  deriving DecidableEq, Repr, Inhabited

/-- Which columns play an audit role: those whose lower-case name holds all of some parts, or is one
of some names. -/
structure AuditRule where
  role : AuditRole
  containsAll : List Text := []
  exact : List Text := []
  deriving DecidableEq, Repr, Inhabited

def AuditRule.applies (rule : AuditRule) (column : Text) : Bool :=
  let name := column.lower
  rule.exact.contains name
    || (!rule.containsAll.isEmpty && rule.containsAll.all (·.occursIn name))

/-- The audit rules that hold unless others are given. -/
def AuditRule.defaults : List AuditRule := [
  { role := .createdAt, containsAll := ["created", "at"] },
  { role := .updatedAt, containsAll := ["updated", "at"] },
  { role := .deletedAt, containsAll := ["deleted", "at"] },
  { role := .version, exact := ["version", "_version"] }]

/-- The names and shapes by which entities and relations are classified. -/
structure HeuristicRules where
  junctionMarkers : List Text := ["to"]
  idSuffix : Text := "id"
  junctionMaxColumns : Nat := 6
  minJunctionIdColumns : Nat := 2
  associationMinForeignKeys : Nat := 2
  auditNameMarkers : List Text := ["log", "audit", "history"]
  referenceMaxColumns : Nat := 4
  referenceColumnMarkers : List Text := ["name", "title"]
  referenceNameMarkers : List Text := ["type", "status", "category"]
  selfReferenceMarkers : List Text := ["self", "parent", "child"]
  auditColumns : List AuditRule := AuditRule.defaults
  deriving DecidableEq, Repr, Inhabited

namespace HeuristicRules

def hasJunctionMarker (rules : HeuristicRules) (names : List Text) : Bool :=
  rules.junctionMarkers.any fun marker => names.any fun name => marker.lower.occursIn name.lower

/-- Whether a column name looks like a key: it ends with the suffix, ignoring case, and is more than
the suffix. -/
def isIdColumn (rules : HeuristicRules) (column : Text) : Bool :=
  let name := column.lower
  name.endsWith rules.idSuffix && name ≠ rules.idSuffix

end HeuristicRules

structure Config where
  options : Options := {}
  declarations : DeclarationRules := {}
  heuristics : HeuristicRules := {}
  deriving DecidableEq, Repr, Inhabited

end SchemaAtlas
