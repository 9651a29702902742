import SchemaAtlas.Proofs.Batch.Attachment

/-!
# What a stage governs in an entity

A stage that is switched off leaves out of an entity the fields that it governs, and no other field:
what the stage would have found there is read by none of the others. The columns are read alike with
and without comments, and types and audit columns follow from names, keys and references alone.
-/

namespace SchemaAtlas

/-- A stage of the extraction that can be switched off. -/
inductive Stage where
  | comments
  | types
  | auditColumns
  | relations
  | resolution
  deriving DecidableEq, Repr

def Options.without (options : Options) : Stage → Options
  | .comments => { options with includeComments := false }
  | .types => { options with classifyEntities := false }
  | .auditColumns => { options with detectAuditColumns := false }
  | .relations => { options with extractRelations := false }
  | .resolution => { options with resolveManyToMany := false }

/-- The configuration with a stage switched off. -/
def Config.without (config : Config) (stage : Stage) : Config :=
  { config with options := config.options.without stage }

def Column.withoutComments (c : Column) : Column := { c with comments := none }

/-- The entity without the fields that a stage governs. Relations are resolved through junctions
only, so the types govern the resolution, too. -/
def Entity.without (stage : Stage) (e : Entity) : Entity :=
  match stage with
  | .comments => { e with comments := none, columns := e.columns.map Column.withoutComments }
  | .types => { e.unresolved with entityType := none }
  | .auditColumns => { e with auditColumns := none }
  | .relations => e.withoutRelations
  | .resolution => e.unresolved

namespace Column

variable {column next : Column}

/-- Options say nothing about comments. -/
theorem comments_applyOption (column : Column) (entry : Entry) :
    (applyOption column entry).comments = column.comments := by
  simp only [applyOption]
  split_ifs
  case pos => rfl
  case pos => rfl
  case pos => rfl
  case pos => cases entry.value.unwrap.elements? <;> rfl
  case neg => rfl

theorem comments_applyType (column : Column) (call : Expr.Link) :
    (applyType column call).comments = column.comments := by
  have hoptions (entries : List Entry) (column : Column) :
      (entries.foldl applyOption column).comments = column.comments := by
    induction entries generalizing column with
    | nil => rfl
    | cons entry rest ih => rw [List.foldl_cons, ih, comments_applyOption]
  rw [applyType, hoptions]

theorem comments_of_applyModifier {call : Expr.Link} (h : applyModifier column call = .ok next) :
    next.comments = column.comments := by
  unfold applyModifier at h
  split_ifs at h
  case pos => cases h; rfl -- the flags
  case pos => cases h; rfl
  case pos => cases h; rfl
  case pos =>
    cases hargs : call.arguments with
    | nil =>
      simp only [hargs] at h
      cases h
      rfl
    | cons value rest =>
      simp only [hargs] at h
      cases htext : defaultText? value with
      | none => simp [htext] at h
      | some text =>
        simp only [htext] at h
        cases h
        rfl
  case pos => cases h; rfl
  case pos => cases h; rfl
  case neg => cases h; rfl

/-- A chain says nothing about the comments of its column. -/
theorem comments_of_ofChain {name : Text} {modifiers : List Expr.Link} {type : Expr.Link}
    (h : ofChain name modifiers type = .ok column) : column.comments = none := by
  have hmodifiers (links : List Expr.Link) (first last : Column)
      (h : links.foldlM applyModifier first = .ok last) : last.comments = first.comments := by
    induction links generalizing first with
    | nil => cases h; rfl
    | cons link rest ih =>
      obtain ⟨next, hnext, hrest⟩ := Except.bind_eq_ok.mp h
      rw [ih next hrest, comments_of_applyModifier hnext]
  rw [hmodifiers _ _ _ h, comments_applyType]

theorem comments_withEnum (enums : Enums) (column : Column) :
    (column.withEnum enums).comments = column.comments := by
  unfold withEnum
  split <;> rfl

/-- To read a column without comments is to drop the comments of what is read. -/
theorem ofEntry_withoutComments (includeComments : Bool) (enums : Enums) (entry : Entry) :
    ofEntry false enums entry = withoutComments <$> ofEntry includeComments enums entry := by
  simp only [ofEntry]
  cases entry.value.unwrap.chain.getLast? with
  | none => rfl
  | some type =>
    cases hchain : ofChain entry.key entry.value.unwrap.chain.dropLast type with
    | error fault => simp only [hchain, Except.map_error]
    | ok column =>
      have hnone : (column.withEnum enums).comments = none := by
        rw [comments_withEnum, comments_of_ofChain hchain]
      have hsame : (column.withEnum enums).withoutComments = column.withEnum enums := by
        rw [withoutComments, ← hnone]
      simp only [hchain, Except.map_ok]
      cases includeComments
      · exact congrArg Except.ok hsame.symm
      · exact congrArg Except.ok hsame.symm

/-- Columns are read alike with and without comments, the comments apart. -/
theorem outcome_ofEntries_withoutComments (includeComments : Bool) (enums : Enums)
    (entries : List Entry) : (ofEntries false enums entries).outcome =
      (List.map withoutComments) <$> (ofEntries includeComments enums entries).outcome := by
  induction entries with
  | nil => rfl
  | cons entry rest ih =>
    simp only [ofEntries]
    rw [ofEntry_withoutComments includeComments enums entry]
    cases ofEntry includeComments enums entry with
    | ok column =>
      simp only [Except.map_ok, Trace.outcome_map, ih]
      cases (ofEntries includeComments enums rest).outcome <;> rfl
    | error problem =>
      cases problem with
      | mismatch cause => simpa using ih
      | fault fault => rfl

end Column

section Comments

variable (rules : HeuristicRules) (columns : List Column)

theorem EntityType.classify_withoutComments (name tableName : Text) (primaryKeys : List Text) :
    classify rules name tableName (columns.map Column.withoutComments) primaryKeys =
      classify rules name tableName columns primaryKeys := by
  simp only [classify, looksLikeJunction, looksLikeLookup, List.countP_map, List.any_map,
    List.length_map]
  rfl

theorem AuditColumns.detect_withoutComments :
    detect rules.auditColumns (columns.map Column.withoutComments) =
      detect rules.auditColumns columns := by
  rw [detect, List.foldl_map]
  rfl

end Comments

namespace Entity

/-- Comments of columns decide nothing else of an entity. -/
theorem ofParts_withoutComments (name tableName : Text) (columns : List Column)
    (extras : List Extra) :
    ofParts name tableName (columns.map Column.withoutComments) extras =
      { ofParts name tableName columns extras with
        columns := columns.map Column.withoutComments } := by
  have hkeys : ((columns.map Column.withoutComments).filter (·.primaryKey)).map (·.name) =
      (columns.filter (·.primaryKey)).map (·.name) := by
    rw [List.filter_map, List.map_map]
    rfl
  have hforeign : (columns.map Column.withoutComments).filterMap foreignKeyOf? =
      columns.filterMap foreignKeyOf? := by
    rw [List.filterMap_map]
    rfl
  rw [ofParts, hkeys, hforeign, ofParts]

/-- A declaration that is read with a stage switched off gives the entity without what the stage
governs. -/
theorem outcome_ofDeclaration_without (config : Config) (stage : Stage) (enums : Enums)
    (d : Declaration) : (ofDeclaration (config.without stage) enums d).outcome =
      (Except.map (Entity.without stage)) <$> (ofDeclaration config enums d).outcome := by
  unfold ofDeclaration
  cases shape d with
  | error cause => rfl
  | ok parts =>
    simp only [Trace.outcome_bind, Extra.outcome_ofEntries, Except.ok_bind]
    cases stage with
    | comments =>
      have hcolumns := Column.outcome_ofEntries_withoutComments config.options.includeComments
        enums parts.columns
      simp only [Config.without, Options.without, hcolumns]
      cases (Column.ofEntries config.options.includeComments enums parts.columns).outcome with
      | error fault => rfl
      | ok columns =>
        simp only [Except.map_ok, Except.ok_bind, ofParts_withoutComments]
        simp only [described, EntityType.classify_withoutComments,
          AuditColumns.detect_withoutComments]
        rfl
    | types | auditColumns | relations | resolution =>
      simp only [Config.without, Options.without]
      cases (Column.ofEntries config.options.includeComments enums parts.columns).outcome <;> rfl

end Entity
end SchemaAtlas
