import SchemaAtlas.Proofs.Batch.FinalTarget

/-!
# Extracted entities are well-formed

What holds of every entity of an extracted batch, whatever the sources and the configuration. The
table is well-formed as soon as its declaration is read, and attaching and resolving relations leave
it alone; the relations are well-formed as soon as their entries are read, and resolving fills in
two fields of theirs only.
-/

namespace SchemaAtlas

namespace Entity

/-- The SQL spellings of what may happen to a referencing row. -/
def sqlActions : List Text := ["CASCADE", "SET NULL", "SET DEFAULT", "RESTRICT", "NO ACTION"]

def indexMethods : List Text := ["btree", "hash", "gin", "gist"]

theorem sql_mem_sqlActions (a : ReferentialAction) : (a.sql : Text) ∈ sqlActions := by
  cases a <;> decide

theorem label_mem_indexMethods (m : IndexMethod) : (m.label : Text) ∈ indexMethods := by
  cases m <;> decide

/-- The well-formedness of the table of an entity, given the extras of its declaration. -/
structure TableWellFormed (rules : HeuristicRules) (extras : List (Option Text × Expr))
    (e : Entity) : Prop where
  tableName_ne : e.tableName ≠ []
  primaryKeys : e.primaryKeys = (e.columns.filter (·.primaryKey)).map (·.name)
  /-- The foreign keys of columns come first, then those of the extras. -/
  foreignKeys : ∃ own further, e.foreignKeys = own ++ further ∧
    own = e.columns.filterMap (fun c => c.references.map fun r =>
      { columns := [c.name], references := ⟨r.table, [r.column]⟩, onDelete := r.onDelete,
        onUpdate := r.onUpdate, name := none }) ∧
    own.length = e.foreignKeyCount ∧
    ∀ k ∈ further, ∃ x ∈ extras, Extra.ofEntry e.tableName x.1 x.2 = .ok (.foreignKey k) ∧
      x.2.chain.getLast?.bind (·.name) = some "foreignKey"
  columnActions : ∀ c ∈ e.columns, ∀ r, c.references = some r →
    ∀ a, r.onDelete = some a ∨ r.onUpdate = some a → (a.sql : Text) ∈ sqlActions
  keyActions : ∀ k ∈ e.foreignKeys,
    ∀ a, k.onDelete = some a ∨ k.onUpdate = some a → (a.sql : Text) ∈ sqlActions
  indexes : ∀ i ∈ e.indexes, (i.isPartial ↔ i.condition.isSome) ∧
    (∀ m, i.method = some m → (m.label : Text) ∈ indexMethods) ∧ [] ∉ i.columns
  checks : ∀ c ∈ e.checks, c.columns.Nodup ∧ [] ∉ c.columns
  auditColumns : ∀ found, e.auditColumns = some found →
    ∀ role name, found.get role = some name → ∃ c ∈ e.columns, c.name = name
  junction : e.entityType = some .junction →
    e.primaryKeys = [] ∧ e.columns.length ≤ rules.junctionMaxColumns

/-- The well-formedness of the relations of an entity. -/
structure RelationsWellFormed (rules : HeuristicRules) (e : Entity) : Prop where
  items_ne : ∀ list, e.relations = some list → list.items ≠ []
  manyToMany : ∀ r ∈ e.relationItems, r.type = .manyToMany ↔ ∃ marker ∈ rules.junctionMarkers,
    marker.lower <:+: r.name.lower ∨ marker.lower <:+: r.relatedTable.lower
  /-- The other cardinalities follow from the helper that the entry of a relation calls. -/
  entry : ∀ r ∈ e.relationItems, ∃ entry, Relation.ofEntry rules entry = .ok r.unresolved ∧
    entry.key = r.name ∧
    (r.type = .oneToMany → Relation.helper? entry = some ("many" : Text)) ∧
    (r.type = .manyToOne → Relation.helper? entry = some ("one" : Text) ∧
      r.fields.isSome ∧ r.references.isSome) ∧
    (r.type = .oneToOne → Relation.helper? entry = some ("one" : Text) ∧
      ¬ (r.fields.isSome ∧ r.references.isSome))
  fields : ∀ r ∈ e.relationItems, ∀ names, r.fields = some names → [] ∉ names
  references : ∀ r ∈ e.relationItems, ∀ names, r.references = some names → [] ∉ names
  selfReferencing : ∀ r ∈ e.relationItems, r.isSelfReferencing ↔
    ∃ label, r.relationName = some label ∧ label ≠ [] ∧
      ∃ marker ∈ rules.selfReferenceMarkers, marker <:+: label.lower
  /-- Only a many-to-many relation is resolved, and then in both of its fields. -/
  resolved : ∀ r ∈ e.relationItems, (r.finalTarget.isSome ↔ r.junctionTable.isSome) ∧
    (r.finalTarget.isSome → r.type = .manyToMany)

/-- A table declaration has a name that is not empty. -/
theorem tableName_ne_of_shape {d : Declaration} {parts : Shape} (h : shape d = .ok parts) :
    parts.tableName ≠ [] := by
  unfold shape at h
  split at h
  · split at h
    · cases h
    · cases h
    · next tableName hne _ =>
      split at h
      · cases h
      · cases h
        exact hne
  · cases h

/-- The foreign keys of an entity's columns are counted by its columns. -/
theorem length_filterMap_foreignKeyOf? (columns : List Column) :
    (columns.filterMap foreignKeyOf?).length = columns.countP (·.references.isSome) := by
  rw [List.length_filterMap_eq_countP]
  simp [foreignKeyOf?]

/-- A declared table is well-formed. -/
theorem tableWellFormed_of_ofDeclaration {config : Config} {enums : Enums} {d : Declaration}
    {e : Entity} (h : (ofDeclaration config enums d).outcome = .ok (.ok e)) :
    d.name = e.name ∧ ∃ parts, shape d = .ok parts ∧ parts.tableName = e.tableName ∧
      e.TableWellFormed config.heuristics parts.extras := by
  obtain ⟨parts, columns, hshape, -, rfl⟩ := eq_described_of_ofDeclaration h
  refine ⟨rfl, parts, hshape, rfl, ?_⟩
  constructor
  case tableName_ne => exact tableName_ne_of_shape hshape
  case primaryKeys => rfl
  case foreignKeys =>
    exact ⟨_, _, rfl, rfl, length_filterMap_foreignKeyOf? columns,
      fun _ hk => Extra.exists_foreignKey_entry_of_mem hk⟩
  case columnActions => exact fun _ _ _ _ a _ => sql_mem_sqlActions a
  case keyActions => exact fun _ _ a _ => sql_mem_sqlActions a
  case indexes =>
    intro i hi
    obtain ⟨hpartial, hcolumns⟩ := Extra.index_of_mem hi
    exact ⟨hpartial ▸ Iff.rfl, fun m _ => label_mem_indexMethods m, hcolumns⟩
  case checks => exact fun _ hc => Extra.check_columns_of_mem hc
  case auditColumns =>
    intro found hfound role name hname
    simp only [described] at hfound
    split at hfound
    · cases hfound
      exact AuditColumns.exists_column_of_get_detect hname
    · cases hfound
  case junction =>
    intro htype
    simp only [described] at htype
    split at htype
    · exact EntityType.of_classify_eq_junction (Option.some.inj htype)
    · cases htype

/-- Whether a table is well-formed does not depend on its relations. -/
theorem TableWellFormed.congr {rules : HeuristicRules} {extras : List (Option Text × Expr)}
    {e e' : Entity} (h : e.TableWellFormed rules extras)
    (hsame : e.withoutRelations = e'.withoutRelations) : e'.TableWellFormed rules extras := by
  cases e
  cases e'
  simp only [withoutRelations, mk.injEq] at hsame
  obtain ⟨rfl, rfl, rfl, rfl, rfl, rfl, rfl, -, rfl, rfl, rfl⟩ := hsame
  exact ⟨h.tableName_ne, h.primaryKeys, h.foreignKeys, h.columnActions, h.keyActions, h.indexes,
    h.checks, h.auditColumns, h.junction⟩

/-- Relations that entries declare are well-formed, whatever was filled in later. -/
theorem relationsWellFormed_of_declared {rules : HeuristicRules} {e : Entity}
    (hne : ∀ list, e.relations = some list → list.items ≠ [])
    (hdeclared : ∀ r ∈ e.relationItems, r.unresolved.Declared rules)
    (hresolved : ∀ r ∈ e.relationItems, (r.finalTarget.isSome ↔ r.junctionTable.isSome) ∧
      (r.finalTarget.isSome → r.type = .manyToMany)) :
    e.RelationsWellFormed rules where
  items_ne := hne
  manyToMany := fun r hr => (hdeclared r hr).type_eq_manyToMany_iff
  entry := fun r hr => (hdeclared r hr).exists_entry
  fields := fun r hr => (hdeclared r hr).nil_notMem.1
  references := fun r hr => (hdeclared r hr).nil_notMem.2
  selfReferencing := fun r hr => (hdeclared r hr).isSelfReferencing_iff
  resolved := hresolved

end Entity

namespace Batch

open ParsedDocument

variable {reader : TreeReader} {config : Config} {sources : Keyed Source} {batch : Batch}

/-- Relations of placed entities are well-formed once they are settled. -/
theorem relationsWellFormed_settle {documents : List Document} {parsed : List ParsedDocument}
    (h : List.Forall₂ (Document.ParsesTo config) documents parsed) {es : List Entity}
    {rs : List Resolution} (hplaced : ∀ e ∈ es, Placed parsed e)
    (hfound : ∀ res ∈ rs, res ∈ Junction.resolutions config.heuristics es) {e : Entity}
    (he : e ∈ es) : (Junction.settle rs e).RelationsWellFormed config.heuristics := by
  have hlists : ∀ e ∈ es, ∀ list, e.relations = some list →
      list.items ≠ [] ∧ ∀ r ∈ list.items, r.Declared config.heuristics :=
    fun e he _ hlist => declared_of_placed h (hplaced e he) hlist
  refine Entity.relationsWellFormed_of_declared ?_ ?_ ?_
  · intro list hlist
    rw [Junction.settle_eq] at hlist
    obtain ⟨list₀, hlist₀, rfl⟩ := Option.map_eq_some_iff.mp hlist
    simpa [Resolution.settledList] using (hlists e he list₀ hlist₀).1
  · intro r hr
    obtain ⟨list, hlist, position, r₀, hr₀, rfl⟩ := Junction.exists_of_mem_settle hr
    have hdeclared := (hlists e he list hlist).2 r₀ (List.mem_of_getElem? hr₀)
    rw [Resolution.unresolved_settled, hdeclared.unresolved_eq]
    exact hdeclared
  · intro r hr
    obtain ⟨hboth, hreaches⟩ := reaches_of_mem_settle hplaced hfound
      (fun e he list hlist => (hlists e he list hlist).2) (fun _ => Iff.rfl) he hr
    refine ⟨hboth, ?_⟩
    intro hsome
    obtain ⟨target, htarget⟩ := Option.isSome_iff_exists.mp hsome
    exact (hreaches target htarget).type_eq

/-- Every entity of an extracted batch comes from a table declaration of one of the sources, and its
table and its relations are well-formed. -/
theorem wellFormed_of_ofSources (h : (ofSources reader config sources).outcome = .ok batch)
    {e : Entity} (he : e ∈ batch.entities) :
    (∃ s ∈ sources, ∃ document, s.2.ReadAs reader s.1 document ∧
      ∃ d ∈ document.tables config, d.name = e.name ∧ ∃ parts, Entity.shape d = .ok parts ∧
        parts.tableName = e.tableName ∧ e.TableWellFormed config.heuristics parts.extras) ∧
    e.RelationsWellFormed config.heuristics := by
  obtain ⟨documents, parsed, hread, -, hparses, rfl⟩ := exists_documents h
  obtain ⟨es, rs, hplaced, hfound, hlinked⟩ :=
    allEntities_linked config (local_of_forall₂ hparses)
  rw [mem_entities_toBatch, hlinked] at he
  obtain ⟨e₀, he₀, rfl⟩ := List.mem_map.mp he
  refine ⟨?_, relationsWellFormed_settle hparses hplaced hfound he₀⟩
  obtain ⟨p, hp, e₁, he₁, hsame⟩ := (hplaced e₀ he₀).parsed
  obtain ⟨document, hdocument, hparse⟩ := exists_left_of_forall₂ hparses hp
  obtain ⟨s, hs, hreadAs⟩ := exists_left_of_forall₂ hread hdocument
  obtain ⟨d, hd, e₂, hof, rfl⟩ := hparse.exists_declaration he₁
  obtain ⟨hname, parts, hshape, htable, hwf⟩ := Entity.tableWellFormed_of_ofDeclaration hof
  have hsettled : e₂.withoutRelations = (Junction.settle rs e₀).withoutRelations := by
    rw [Junction.settle_eq]
    exact hsame
  have hnames := congrArg Entity.name hsettled
  have htables := congrArg Entity.tableName hsettled
  exact ⟨s, hs, document, hreadAs, d, hd, hname.trans hnames, parts, hshape, htable.trans htables,
    hwf.congr hsettled⟩

theorem wellFormed_of_schoolSources : ∃ batch : Batch,
    (ofSources grammarReader {} schoolSources).outcome = .ok batch ∧
    ∃ e ∈ batch.entities, ∃ s ∈ schoolSources, ∃ document,
      s.2.ReadAs grammarReader s.1 document ∧ (∃ d ∈ document.tables {}, ∃ parts,
        Entity.shape d = .ok parts ∧ e.TableWellFormed {} parts.extras) ∧
      e.relationItems ≠ [] ∧ e.RelationsWellFormed {} := by
  obtain ⟨batch, hbatch, e, he, r, hr, -⟩ := exists_schoolBatch
  obtain ⟨⟨s, hs, document, hread, d, hd, -, parts, hshape, -, htable⟩, hrelations⟩ :=
    wellFormed_of_ofSources hbatch he
  exact ⟨batch, hbatch, e, he, s, hs, document, hread, ⟨d, hd, parts, hshape, htable⟩,
    List.ne_nil_of_mem hr, hrelations⟩

end Batch
end SchemaAtlas
