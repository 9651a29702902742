import SchemaAtlas.Batch.Document
import SchemaAtlas.Proofs.Keyed
import SchemaAtlas.Proofs.Outcome
import SchemaAtlas.Proofs.Table.Extras

/-!
# What a parsed document holds

The readers of entries and declarations go through their lists and skip what has the wrong shape.
Without the reports they are filters, and a parsed document is put together from what they keep:
entities from table declarations, and for each table the last relations that are declared for it.
-/

namespace SchemaAtlas

/-- Extras that cannot be read are left out, and none ends the run. -/
theorem Extra.outcome_ofEntries (table : Text) (entries : List (Option Text × Expr)) :
    (ofEntries table entries).outcome = .ok (readable table entries) := by
  induction entries with
  | nil => rfl
  | cons e rest ih =>
    obtain ⟨key, value⟩ := e
    cases h : ofEntry table key value with
    | ok extra =>
      simp only [ofEntries, h, Trace.outcome_map, ih]
      simp [readable, h, Except.toOption]
    | error cause =>
      simp only [ofEntries, h, Trace.outcome_bind, ih]
      simp [readable, h, Except.toOption]

/-- Maps of columns whose entries are read alike, one by one, have the same columns. -/
theorem Column.outcome_ofEntries_congr {includeComments : Bool} {enums : Enums}
    {entries entries' : List Entry} (h : List.Forall₂ (fun entry entry' =>
      ofEntry includeComments enums entry' = ofEntry includeComments enums entry)
      entries entries') :
    (ofEntries includeComments enums entries').outcome =
      (ofEntries includeComments enums entries).outcome := by
  induction h with
  | nil => rfl
  | @cons entry entry' _ _ hentry _ ih =>
    rw [ofEntries, ofEntries, hentry]
    cases ofEntry includeComments enums entry with
    | ok column => simp [ih]
    | error problem => cases problem <;> simp [ih]

namespace Relation

/-- Relations that cannot be read are left out, and none ends the run. -/
theorem outcome_ofEntries (rules : HeuristicRules) (table : Text) (entries : List Entry) :
    (ofEntries rules table entries).outcome =
      .ok (entries.filterMap fun e => (ofEntry rules e).toOption) := by
  induction entries with
  | nil => rfl
  | cons e rest ih =>
    cases h : ofEntry rules e with
    | ok r =>
      simp only [ofEntries, h, Trace.outcome_map, ih]
      simp [h, Except.toOption]
    | error cause =>
      simp only [ofEntries, h, Trace.outcome_bind, ih]
      simp [h, Except.toOption]

/-- The table and the relations of a relations declaration, in source order and without the entries
that are no relations; none if the declaration has the wrong shape. -/
def declared? (config : Config) (d : Declaration) : Option (Text × List Relation) :=
  (mapping config.declarations d).toOption.map fun (table, entries) =>
    (table, entries.filterMap fun e => (ofEntry config.heuristics e).toOption)

end Relation

theorem Declaration.outcome_ofStatement (source : Bytes) (stack : Stack) (exported : Bool)
    (before : List Syntax.Tree) (node : Syntax.Tree) :
    (ofStatement source stack exported before node).outcome =
      List.filterMap id <$> (node.placedChildren.filter fun p =>
        p.2.named && p.2.kind == .variableDeclarator).mapM fun p =>
          (ofDeclarator source stack exported (Syntax.leadingComments source before)
            p.1 p.2).outcome := by
  rw [ofStatement, Trace.outcome_bind, Trace.outcome_mapM, map_eq_pure_bind]
  rfl

namespace Document

theorem outcome_ofTree (source : Bytes) (stack : Stack) (root : Syntax.Tree) (hasErrors : Bool) :
    (ofTree source stack root hasErrors).outcome = (Document.mk · hasErrors) <$> List.flatten <$>
      (root.placedChildren.filter fun p => p.2.named).mapM fun p =>
        (Declaration.ofTopLevel source stack p.1 p.2).outcome := by
  rw [ofTree, Trace.outcome_bind, Trace.outcome_mapM, Functor.map_map, map_eq_pure_bind]
  rfl

def relationPairs (config : Config) (document : Document) : List (Text × List Relation) :=
  ((ParsedDocument.ofKind config.declarations .relations document.declarations).filterMap
    (Relation.declared? config)).filter (!·.2.isEmpty)

/-- The relations that a document declares for a table: the last list that is not empty. -/
def relationsFor? (config : Config) (document : Document) (table : Text) :
    Option (List Relation) :=
  Keyed.last? (document.relationPairs config) table

/-- No list of relations that counts is empty. -/
theorem relationsFor?_ne_nil (config : Config) (document : Document) (table : Text) :
    document.relationsFor? config table ≠ some [] := by
  intro h
  obtain ⟨p, hp, hnil⟩ := Option.map_eq_some_iff.mp h
  have hmem := (List.mem_filter.mp (List.mem_of_getLast? hp)).1
  have hne := (List.mem_filter.mp hmem).2
  simp [hnil] at hne

def tables (config : Config) (document : Document) : List Declaration :=
  ParsedDocument.ofKind config.declarations .table document.declarations

def enums (config : Config) (document : Document) : Enums :=
  ParsedDocument.enumsOf (ParsedDocument.ofKind config.declarations .enum document.declarations)

end Document

namespace ParsedDocument

/-- Only relations declarations with relations in them are listed. -/
theorem outcome_relationsOf (config : Config) (id : Text) (ds : List Declaration) :
    (relationsOf config id ds).outcome =
      .ok ((ds.filterMap (Relation.declared? config)).filter (!·.2.isEmpty)) := by
  induction ds with
  | nil => rfl
  | cons d rest ih =>
    cases h : Relation.mapping config.declarations d with
    | error cause =>
      have hdeclared : Relation.declared? config d = none := by
        simp [Relation.declared?, h, Except.toOption]
      simp [relationsOf, Relation.ofDeclaration, h, hdeclared, ih]
    | ok found =>
      obtain ⟨table, entries⟩ := found
      have hdeclared : Relation.declared? config d = some (table,
          entries.filterMap fun e => (Relation.ofEntry config.heuristics e).toOption) := by
        simp [Relation.declared?, h, Except.toOption]
      simp only [relationsOf, Relation.ofDeclaration, h, Trace.outcome_bind, Trace.outcome_map,
        Relation.outcome_ofEntries, List.filterMap_cons, hdeclared, List.filter_cons]
      cases entries.filterMap fun e => (Relation.ofEntry config.heuristics e).toOption with
      | nil => simp [ih]
      | cons r others => simp [ih]

/-- Table declarations of the wrong shape are left out, unless one of them ends the run. -/
theorem outcome_entitiesOf (config : Config) (id : Text) (enums : Enums) (ds : List Declaration) :
    (entitiesOf config id enums ds).outcome =
      (List.filterMap Except.toOption) <$>
        ds.mapM fun d => (Entity.ofDeclaration config enums d).outcome := by
  induction ds with
  | nil => rfl
  | cons d rest ih =>
    simp only [entitiesOf, Trace.outcome_bind, List.mapM_cons]
    cases (Entity.ofDeclaration config enums d).outcome with
    | error fault => rfl
    | ok result =>
      cases result with
      | error cause =>
        simp only [Except.ok_bind, Trace.outcome_bind, Trace.outcome_emit, ih]
        cases rest.mapM fun d => (Entity.ofDeclaration config enums d).outcome <;> rfl
      | ok e =>
        simp only [Except.ok_bind, Trace.outcome_bind, Trace.outcome_emit, ih]
        cases rest.mapM fun d => (Entity.ofDeclaration config enums d).outcome <;> rfl

@[simp] theorem get?_relationLists (p : ParsedDocument) (origin : Nat) (table : Text) :
    (p.relationLists origin).get? table = (p.relations.get? table).map (RelationList.mk origin) :=
  Keyed.get?_map (RelationList.mk origin) p.relations table

end ParsedDocument

namespace Entity

/-- Relations that are attached come second to those that an entity has, or first. -/
theorem attach_eq (lists : Keyed RelationList) (onlyMissing : Bool) (e : Entity) :
    e.attach lists onlyMissing = { e with
      relations := if onlyMissing then e.relations.or (lists.get? e.name)
        else (lists.get? e.name).or e.relations } := by
  obtain ⟨name, _, _, _, _, _, _, relations, _, _, _⟩ := e
  simp only [attach]
  cases onlyMissing <;> cases relations <;> cases lists.get? name <;> rfl

def Shape.read (includeComments : Bool) (enums : Enums) (parts : Shape) :
    Text × Except Fault (List Column) × List Extra :=
  (parts.tableName, (Column.ofEntries includeComments enums parts.columns).outcome,
    Extra.readable parts.tableName parts.extras)

theorem outcome_ofDeclaration_eq (config : Config) (enums : Enums) (d : Declaration) :
    (ofDeclaration config enums d).outcome =
      match Shape.read config.options.includeComments enums <$> shape d with
      | .error cause => .ok (.error cause)
      | .ok (tableName, columns, extras) =>
        (fun columns => .ok ((ofParts d.name tableName columns extras).described config d)) <$>
          columns := by
  unfold ofDeclaration
  cases shape d with
  | error cause => rfl
  | ok parts =>
    simp only [Trace.outcome_bind, Extra.outcome_ofEntries, map_eq_pure_bind]
    rfl

/-- What a declaration gives depends on its name, on its comments if these are asked for, and on what
is read from its parts. -/
theorem outcome_ofDeclaration_congr {config : Config} {enums : Enums} {d d' : Declaration}
    (hname : d'.name = d.name)
    (hcomments : config.options.includeComments = true →
      d'.statementComments = d.statementComments ∧ d'.comments = d.comments)
    (h : Shape.read config.options.includeComments enums <$> shape d' =
      Shape.read config.options.includeComments enums <$> shape d) :
    (ofDeclaration config enums d').outcome = (ofDeclaration config enums d).outcome := by
  have hdescribed (e : Entity) : e.described config d' = e.described config d := by
    by_cases hoption : config.options.includeComments = true
    · obtain ⟨hstatement, hown⟩ := hcomments hoption
      simp only [described, hstatement, hown]
    · simp only [described, if_neg hoption]
  simp only [outcome_ofDeclaration_eq, h, hname, hdescribed]

/-- A declared entity is made of the columns and of the extras that can be read. -/
theorem eq_described_of_ofDeclaration {config : Config} {enums : Enums} {d : Declaration}
    {e : Entity} (h : (ofDeclaration config enums d).outcome = .ok (.ok e)) :
    ∃ parts columns, shape d = .ok parts ∧
      (Column.ofEntries config.options.includeComments enums parts.columns).outcome =
        .ok columns ∧
      e = (ofParts d.name parts.tableName columns
        (Extra.readable parts.tableName parts.extras)).described config d := by
  unfold ofDeclaration at h
  cases hshape : shape d with
  | error cause => simp [hshape] at h
  | ok parts =>
    simp only [hshape, Trace.outcome_bind, Except.bind_eq_ok, Extra.outcome_ofEntries] at h
    obtain ⟨columns, hcolumns, extras, hextras, he⟩ := h
    cases hextras
    cases he
    exact ⟨parts, columns, rfl, hcolumns, rfl⟩

/-- An entity starts without relations. -/
theorem relations_ofDeclaration {config : Config} {enums : Enums} {d : Declaration} {e : Entity}
    (h : (ofDeclaration config enums d).outcome = .ok (.ok e)) : e.relations = none := by
  obtain ⟨parts, columns, -, -, rfl⟩ := eq_described_of_ofDeclaration h
  rfl

/-- Attaching lists to an entity without relations. -/
theorem attach_of_none (lists : Keyed RelationList) {e : Entity} (h : e.relations = none) :
    e.attach lists false = { e with relations := lists.get? e.name } := by
  simp [attach_eq, h]

end Entity

namespace Document

def parsedWith (config : Config) (document : Document) (id : Text) (entities : List Entity) :
    ParsedDocument :=
  let relations : Keyed (List Relation) :=
    if config.options.extractRelations then Keyed.ofList (document.relationPairs config) else []
  { id, relations, enums := document.enums config
    entities := entities.map
      (Entity.attach (relations.map fun p => (p.1, RelationList.mk 0 p.2)) false) }

/-- Only reading the entities can fail, and nothing else depends on the order of declarations of
different kinds. -/
theorem outcome_ofDocument (config : Config) (id : Text) (document : Document) :
    (ParsedDocument.ofDocument config id document).outcome =
      document.parsedWith config id <$>
        (ParsedDocument.entitiesOf config id (document.enums config)
          (document.tables config)).outcome := by
  have hattach (entities : List Entity) : entities.map (Entity.attach [] false) = entities := by
    rw [List.map_id'' fun e => by simp [Entity.attach_eq, Keyed.get?_nil]]
  unfold ParsedDocument.ofDocument
  rw [Trace.outcome_ite_emit, Trace.outcome_bind]
  change (ParsedDocument.entitiesOf config id (document.enums config)
    (document.tables config)).outcome >>= _ = _
  cases (ParsedDocument.entitiesOf config id (document.enums config)
    (document.tables config)).outcome with
  | error fault => rfl
  | ok entities =>
    cases hrel : config.options.extractRelations with
    | false => simp [parsedWith, hrel, hattach, enums]
    | true =>
      simp [parsedWith, hrel, relationPairs, ParsedDocument.relationLists, enums,
        ParsedDocument.outcome_relationsOf]

/-- The entities of the table declarations of a document, without relations. -/
def ownEntities (config : Config) (document : Document) : Except Fault (List Entity) :=
  (List.filterMap Except.toOption) <$> (document.tables config).mapM fun d =>
    (Entity.ofDeclaration config (document.enums config) d).outcome

/-- The id of a document only names it. -/
theorem outcome_ofDocument_eq (config : Config) (id : Text) (document : Document) :
    (ParsedDocument.ofDocument config id document).outcome =
      document.parsedWith config id <$> document.ownEntities config := by
  rw [outcome_ofDocument, ParsedDocument.outcome_entitiesOf, ownEntities]

/-- A parsed document is what reading a document gives. -/
def ParsesTo (config : Config) (document : Document) (p : ParsedDocument) : Prop :=
  (ParsedDocument.ofDocument config p.id document).outcome = .ok p

variable {config : Config} {document : Document} {p : ParsedDocument}

/-- What a document is read as has the id under which it is read. -/
theorem parsesTo_of_outcome {id : Text}
    (h : (ParsedDocument.ofDocument config id document).outcome = .ok p) :
    p.id = id ∧ document.ParsesTo config p := by
  have hid : p.id = id := by
    rw [outcome_ofDocument, Except.map_eq_ok] at h
    obtain ⟨entities, -, rfl⟩ := h
    rfl
  exact ⟨hid, by rw [ParsesTo, hid, h]⟩

/-- A document without declarations parses to nothing. -/
theorem parsesTo_empty (config : Config) (id : Text) (hasErrors : Bool) :
    ParsesTo config ⟨[], hasErrors⟩ { id } := by
  rw [ParsesTo, outcome_ofDocument]
  cases hrel : config.options.extractRelations <;>
    simp [tables, ParsedDocument.ofKind, ParsedDocument.entitiesOf, parsedWith, hrel, enums,
      relationPairs, Keyed.ofList, ParsedDocument.enumsOf]

theorem ParsesTo.eq_parsedWith (h : document.ParsesTo config p) :
    ∃ results, (document.tables config).mapM
        (fun d => (Entity.ofDeclaration config (document.enums config) d).outcome) = .ok results ∧
      p = document.parsedWith config p.id (results.filterMap Except.toOption) := by
  rw [ParsesTo, outcome_ofDocument, ParsedDocument.outcome_entitiesOf, Except.map_eq_ok] at h
  obtain ⟨entities, hentities, hp⟩ := h
  obtain ⟨results, hresults, rfl⟩ := Except.map_eq_ok.mp hentities
  exact ⟨results, hresults, hp.symm⟩

/-- The relations of a parsed document are those that are declared last. -/
theorem ParsesTo.get?_relations (h : document.ParsesTo config p) (table : Text) :
    p.relations.get? table =
      if config.options.extractRelations then document.relationsFor? config table else none := by
  obtain ⟨results, -, hp⟩ := h.eq_parsedWith
  rw [hp, parsedWith]
  split
  · exact Keyed.get?_ofList _ table
  · rfl

/-- Every entity of a parsed document comes from a table declaration and has the relations that the
document declares for it. -/
theorem ParsesTo.exists_declaration (h : document.ParsesTo config p) {e : Entity}
    (he : e ∈ p.entities) :
    ∃ d ∈ document.tables config, ∃ e₀,
      (Entity.ofDeclaration config (document.enums config) d).outcome = .ok (.ok e₀) ∧
      e = { e₀ with relations := (p.relations.get? e₀.name).map (RelationList.mk 0) } := by
  obtain ⟨results, hresults, hp⟩ := h.eq_parsedWith
  have hrelations : p.relations =
      if config.options.extractRelations then Keyed.ofList (document.relationPairs config)
      else [] := by rw [hp, parsedWith]
  rw [hp, parsedWith, ← hrelations] at he
  obtain ⟨e₀, he₀, rfl⟩ := List.mem_map.mp he
  obtain ⟨result, hmem, hresult⟩ := List.mem_filterMap.mp he₀
  obtain ⟨d, hd, hread⟩ := exists_left_of_forall₂ (Except.mapM_eq_ok.mp hresults) hmem
  rw [Except.toOption_eq_some.mp hresult] at hread
  refine ⟨d, hd, e₀, hread, ?_⟩
  rw [Entity.attach_of_none _ (Entity.relations_ofDeclaration hread), Keyed.get?_map]

end Document
end SchemaAtlas
