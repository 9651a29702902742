import SchemaAtlas.Proofs.Table.WrittenExtra
import SchemaAtlas.Table.OfDeclaration

/-!
# Table declarations are read back exactly

A table is described by its columns, indexes, checks and foreign keys, and written as a call of a
table builder with a map of columns and a function that returns the extras in an array. Reading the
declaration gives the description back: nothing is lost, added, reordered or reported.
-/

namespace SchemaAtlas

/-- What a table declaration says. A column has no comments here, and the names that a reader would
take for missing when they are empty are not empty. -/
structure TableDescription where
  name : Text
  tableName : Text
  columns : List Column
  indexes : List Index
  checks : List Check
  foreignKeys : List ForeignKey
  tableName_ne : tableName ≠ []
  columns_plain : ∀ c ∈ columns, c.comments = none
  index_partial : ∀ i ∈ indexes, i.isPartial = i.condition.isSome
  index_columns : ∀ i ∈ indexes, [] ∉ i.columns
  check_name : ∀ c ∈ checks, c.name ≠ []
  check_columns : ∀ c ∈ checks, c.columns.Nodup ∧ [] ∉ c.columns
  foreignKey_columns : ∀ k ∈ foreignKeys, [] ∉ k.columns
  foreignKey_targets : ∀ k ∈ foreignKeys, k.references.columns ≠ [] ∧ [] ∉ k.references.columns

namespace TableDescription

variable (t : TableDescription)

/-- The extras of a description mixed into one list in any way that keeps the order of the indexes,
of the checks and of the foreign keys. -/
structure Mixes (extras : List Extra) : Prop where
  indexes : extras.filterMap Extra.index? = t.indexes
  checks : extras.filterMap Extra.check? = t.checks
  foreignKeys : extras.filterMap Extra.foreignKey? = t.foreignKeys

/-- The call of a table builder: the name of the table, the map of its columns with a label for
each, and a function of one parameter that returns the extras. -/
def written (builder : Written) (label : Column → Text) (extras : List Extra) : Written :=
  .call builder [.string t.tableName, .object (Column.writtenEntries label t.columns),
    .function ["t"] (.array (extras.map Extra.written))]

def declaration (builder : Written) (label : Column → Text) (extras : List Extra) (l : Layout)
    (d : Declaration) : Declaration :=
  { d with name := t.name, initializer := some (t.written builder label extras l) }

variable {t}

/-- All extras of a mix can be written. -/
theorem Mixes.proper {extras : List Extra} (h : t.Mixes extras) : ∀ e ∈ extras, e.Proper := by
  intro e hmem
  cases e with
  | index i =>
    have hi : i ∈ t.indexes := h.indexes ▸ List.mem_filterMap.mpr ⟨_, hmem, rfl⟩
    exact ⟨t.index_partial i hi, t.index_columns i hi⟩
  | check c =>
    have hc : c ∈ t.checks := h.checks ▸ List.mem_filterMap.mpr ⟨_, hmem, rfl⟩
    exact ⟨t.check_name c hc, t.check_columns c hc⟩
  | foreignKey k =>
    have hk : k ∈ t.foreignKeys := h.foreignKeys ▸ List.mem_filterMap.mpr ⟨_, hmem, rfl⟩
    exact ⟨t.foreignKey_columns k hk, t.foreignKey_targets k hk⟩
  | ignored => trivial

/-- The parts of a written declaration. -/
theorem shape_declaration (t : TableDescription) (builder : Written) (label : Column → Text)
    (extras : List Extra) (l : Layout) (d : Declaration) :
    ∃ l₁ l₂, Entity.shape (t.declaration builder label extras l d) = .ok
      ⟨t.tableName, Written.entries (Column.writtenEntries label t.columns) l₁,
        (Written.all (extras.map Extra.written) l₂).map (none, ·)⟩ := by
  obtain ⟨c, rest, hname⟩ := List.exists_cons_of_ne_nil t.tableName_ne
  refine ⟨l.rest.rest.first, l.rest.rest.rest.first.first, ?_⟩
  rw [hname]
  simp [Entity.shape, Declaration.arguments?, declaration, written, Written.call, Written.all,
    Written.string, Written.object, Written.function, Written.array, Entity.columnMap?,
    Extra.entries, Expr.unwrap, Expr.result?, Expr.string?, hname]

/-- A written table declaration is read without a report, and the entity has the described columns,
indexes, checks and foreign keys in their order. A column without values of its own gets those of
the enum of the document that its type names. -/
theorem ofDeclaration_declaration (config : Config) (enums : Enums) (t : TableDescription)
    (extras : List Extra) (hmix : t.Mixes extras) (builder : Written) (label : Column → Text)
    (l : Layout) (d : Declaration) :
    ∃ e, Entity.ofDeclaration config enums (t.declaration builder label extras l d)
        = pure (.ok e) ∧
      e.name = t.name ∧
      e.tableName = t.tableName ∧
      e.columns = t.columns.map (fun c =>
        { c with enumValues := c.enumValues.or (enums.get? c.type) }) ∧
      e.primaryKeys = (t.columns.filter (·.primaryKey)).map (·.name) ∧
      e.foreignKeys = t.columns.filterMap (fun c => c.references.map fun r =>
          { columns := [c.name], references := ⟨r.table, [r.column]⟩,
            onDelete := r.onDelete, onUpdate := r.onUpdate, name := none })
        ++ t.foreignKeys ∧
      e.indexes = t.indexes ∧
      e.checks = t.checks ∧
      e.relations = none := by
  obtain ⟨l₁, l₂, hshape⟩ := shape_declaration t builder label extras l d
  have hcolumns := Column.ofEntries_written config.options.includeComments enums label t.columns
    t.columns_plain l₁
  have hextras := Extra.ofEntries_written t.tableName extras hmix.proper l₂
  refine ⟨(Entity.ofParts t.name t.tableName (t.columns.map (Column.filled enums))
    extras).described config (t.declaration builder label extras l d), ?_, rfl, rfl, rfl, ?_, ?_,
    ?_, ?_, rfl⟩
  · simp only [Entity.ofDeclaration, hshape, hcolumns, hextras]
    rfl
  · simp [Entity.described, Entity.ofParts, List.filter_map, Function.comp_def, Column.filled]
  · simp only [Entity.described, Entity.ofParts, hmix.foreignKeys, List.filterMap_map]
    rfl
  · simpa [Entity.described, Entity.ofParts] using hmix.indexes
  · simpa [Entity.described, Entity.ofParts] using hmix.checks

def orderLines : TableDescription where
  name := "orderLines"
  tableName := "order_lines"
  columns := [
    { name := "orderId", type := "integer", nullable := false, primaryKey := true,
      references := some { table := "orders", column := "id", onDelete := some .cascade } },
    { name := "state", type := "varchar", defaultValue := some "new", unique := true,
      length := some (.integer 20), enumValues := some ["new", "sent"] }]
  indexes := [
    { name := "state_idx", columns := ["state"], isPartial := true,
      condition := some "state = 'new'", method := some .hash },
    { name := "line_unique", columns := ["orderId", "state"], unique := true }]
  checks := [{ name := "known", expression := "state <> ''", columns := ["state"] }]
  foreignKeys := [
    { columns := ["orderId", "state"], references := ⟨"orders", ["id", "state"]⟩,
      onUpdate := some .noAction, name := some "order_fk" }]
  tableName_ne := by decide
  columns_plain := by decide
  index_partial := by decide
  index_columns := by decide
  check_name := by decide
  check_columns := by decide
  foreignKey_columns := by decide
  foreignKey_targets := by decide

def orderLineExtras : List Extra :=
  orderLines.foreignKeys.map .foreignKey ++ (orderLines.indexes.take 1).map .index
    ++ orderLines.checks.map .check ++ (orderLines.indexes.drop 1).map .index

/-- The order lines, read back from their declaration. -/
theorem ofDeclaration_orderLines :
    orderLines.Mixes orderLineExtras ∧
    ∃ e, Entity.ofDeclaration {} [] (orderLines.declaration (.identifier "pgTable") (·.name)
        orderLineExtras default default) = pure (.ok e) ∧
      e.columns = orderLines.columns ∧ e.primaryKeys = [("orderId" : Text)] ∧
      e.foreignKeys.length = 2 ∧ e.indexes = orderLines.indexes ∧ e.checks = orderLines.checks := by
  have hmix : orderLines.Mixes orderLineExtras := ⟨by decide, by decide, by decide⟩
  obtain ⟨e, he, -, -, hcolumns, hkeys, hforeign, hindexes, hchecks, -⟩ :=
    ofDeclaration_declaration {} [] orderLines orderLineExtras hmix (.identifier "pgTable")
      (·.name) default default
  refine ⟨hmix, e, he, ?_, ?_, ?_, hindexes, hchecks⟩
  · rw [hcolumns]
    decide
  · rw [hkeys]
    decide
  · rw [hforeign]
    decide

end TableDescription
end SchemaAtlas
