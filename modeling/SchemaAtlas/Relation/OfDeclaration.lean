import SchemaAtlas.Column.OfEntry

/-!
# Relations from relations declarations

A relations declaration names its table by its own name, less a suffix, and maps names to
`one(target, …)` or `many(target)`. The cardinality that the helper suggests is refined by the
names and by the fields given.
-/

namespace SchemaAtlas

namespace Cardinality

def ofHelper? (helper : Text) : Option Cardinality :=
  if helper = "one" then some .oneToOne
  else if helper = "many" then some .oneToMany
  else none

end Cardinality

namespace Relation

/-- The table that a relations declaration belongs to: its name without the suffix, where something
is left. -/
def owner? (rules : DeclarationRules) (declaration : Text) : Option Text :=
  let suffix := rules.relationsSuffix
  if declaration.endsWith suffix && declaration.length != suffix.length then
    some (declaration.dropEnd suffix.length)
  else none

/-- The table that an expression names: `users` or `schema.users`. -/
def tableName? : Expr → Option Text
  | .identifier _ name => some name
  | .memberAccess _ _ property => some property
  | _ => none

/-- The target of a relation: `users`, `schema.users`, or a function without parameters that returns
either. -/
def target? (e : Expr) : Option Text :=
  match e.unwrap with
  | .function _ [] body => body.result?.bind tableName?
  | e => tableName? e

/-- The names that the elements of an array stand for; empty names are left out. -/
def names (elements : List Expr) : List Text :=
  (elements.filterMap Expr.referencedName?).filter (!·.isEmpty)

def setting? (config : List Entry) (key : Text) : Option Expr :=
  (lastValue? config key).map Expr.unwrap

def withConfig (r : Relation) (config : List Entry) : Relation :=
  { r with
    fields := ((setting? config "fields").bind Expr.elements?).map names
    references := ((setting? config "references").bind Expr.elements?).map names
    relationName := (setting? config "relationName").bind Expr.string? }

/-- Whether the label of a relation hints at a relation of a table to itself. The tables are not
compared. -/
def hintsAtSelf (rules : HeuristicRules) (r : Relation) : Bool :=
  match r.relationName with
  | none => false
  | some label =>
    !label.isEmpty && rules.selfReferenceMarkers.any (·.occursIn label.lower)

/-- The cardinality of a relation whose helper suggests `tentative`: many-to-many if a junction
marker occurs in its target or name, many-to-one if it is a single record found by fields that refer
to others. -/
def refined (rules : HeuristicRules) (tentative : Cardinality) (r : Relation) : Cardinality :=
  if rules.hasJunctionMarker [r.relatedTable, r.name] then .manyToMany
  else if tentative = .oneToOne ∧ r.fields.isSome ∧ r.references.isSome then .manyToOne
  else tentative

def config? : List Expr → Option (List Entry)
  | _ :: config :: _ => config.unwrap.properties?
  | _ => none

def ofEntry (rules : HeuristicRules) (entry : Entry) : Except Mismatch Relation :=
  match entry.value.unwrap with
  | .call _ (.identifier _ helper) arguments =>
    match Cardinality.ofHelper? helper with
    | none => .error (.relationHelperUnknown helper)
    | some tentative =>
      match arguments with
      | [] => .error .relationWithoutTarget
      | first :: _ =>
        match target? first with
        | none => .error (.relationTargetUnknown first.text)
        | some table =>
          let bare : Relation := { name := entry.key, type := tentative, relatedTable := table }
          let r := match config? arguments with
            | some config => bare.withConfig config
            | none => bare
          .ok { r with
            isSelfReferencing := r.hintsAtSelf rules
            type := r.refined rules tentative }
  | _ => .error .relationWithoutCall

/-- The relations of a mapping, in order. An entry that is none is skipped and reported. -/
def ofEntries (rules : HeuristicRules) (table : Text) : List Entry → Trace (List Relation)
  | [] => pure []
  | entry :: rest =>
    match ofEntry rules entry with
    | .ok r => (r :: ·) <$> ofEntries rules table rest
    | .error cause => do
      Trace.emit (.relationSkipped entry.key table cause)
      ofEntries rules table rest

def mapping (rules : DeclarationRules) (d : Declaration) : Except Mismatch (Text × List Entry) :=
  match owner? rules d.name with
  | none => .error (.relationsWithoutSuffix rules.relationsSuffix)
  | some table =>
    match d.arguments? with
    | some (_ :: callback :: _) =>
      match callback.unwrap with
      | .function _ _ body =>
        match body.result? with
        | some (.object _ entries) => .ok (table, entries)
        | _ => .error .relationsWithoutMapping
      | _ => .error .relationsWithoutCallback
    | _ => .error .relationsWithoutArguments

def ofDeclaration (declarations : DeclarationRules) (heuristics : HeuristicRules)
    (d : Declaration) : Trace (Except Mismatch (Text × List Relation)) :=
  match mapping declarations d with
  | .error cause => pure (.error cause)
  | .ok (table, entries) =>
    (fun relations => .ok (table, relations)) <$> ofEntries heuristics table entries

end Relation
end SchemaAtlas
