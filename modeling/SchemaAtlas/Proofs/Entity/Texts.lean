import SchemaAtlas.Column.OfEntry
import SchemaAtlas.Proofs.Expr.CodePoints
import SchemaAtlas.Proofs.Keyed

/-!
# The texts of the extracted model

Every text that a column, an index, a constraint, a relation or an entity holds. Those of a column
are texts of the entry it is read from, values of enums, or made of scalar values: the type of a
column without one, the time of insertion, the text of a number. So a test on code points that
scalar values pass holds of a column if it holds of the entry and of the enums.
-/

namespace SchemaAtlas

/-- The SQL spellings of what happens when a referenced row goes or changes. -/
def ReferentialAction.spellings (onDelete onUpdate : Option ReferentialAction) : List Text :=
  (onDelete.toList ++ onUpdate.toList).map fun a => (a.sql : Text)

def ColumnReference.texts (r : ColumnReference) : List Text :=
  r.table :: r.column :: ReferentialAction.spellings r.onDelete r.onUpdate

def Column.texts (c : Column) : List Text :=
  c.name :: c.type :: (c.defaultValue.toList ++ c.enumValues.getD [] ++
    c.references.toList.flatMap ColumnReference.texts ++ c.comments.toList)

def ForeignKey.texts (k : ForeignKey) : List Text :=
  k.columns ++ k.references.table :: k.references.columns ++
    ReferentialAction.spellings k.onDelete k.onUpdate ++ k.name.toList

def Index.texts (i : Index) : List Text :=
  i.name :: (i.columns ++ i.condition.toList ++ i.method.toList.map fun m => (m.label : Text))

def Check.texts (c : Check) : List Text := c.name :: c.expression :: c.columns

def Relation.texts (r : Relation) : List Text :=
  r.name :: r.type.label :: r.relatedTable :: (r.fields.getD [] ++ r.references.getD [] ++
    r.relationName.toList ++ r.finalTarget.toList ++ r.junctionTable.toList)

def Entity.texts (e : Entity) : List Text :=
  e.name :: e.tableName :: (e.columns.flatMap Column.texts ++ e.primaryKeys ++
    e.foreignKeys.flatMap ForeignKey.texts ++ e.indexes.flatMap Index.texts ++
    e.checks.flatMap Check.texts ++ e.relationItems.flatMap Relation.texts ++ e.comments.toList ++
    e.entityType.toList.map (fun type => (type.label : Text)) ++
    e.auditColumns.toList.flatMap fun found => AuditRole.all.filterMap found.get)

variable {P : CodePoint → Prop}

theorem ReferentialAction.within_spellings (hP : HoldsOfScalars P)
    (onDelete onUpdate : Option ReferentialAction) :
    ∀ t ∈ spellings onDelete onUpdate, t.Within P := by
  intro t ht
  obtain ⟨a, -, rfl⟩ := List.mem_map.mp ht
  exact Text.within_ofString hP a.sql

/-! ## Columns -/

/-- All values of enums pass a test on code points, and so do their names. -/
def Enums.Within (P : CodePoint → Prop) (enums : Enums) : Prop :=
  ∀ pair ∈ enums, pair.1.Within P ∧ ∀ value ∈ pair.2, value.Within P

/-- All texts of a column pass a test on code points. -/
structure Column.Within (P : CodePoint → Prop) (c : Column) : Prop where
  name : c.name.Within P
  type : c.type.Within P
  defaultValue : ∀ t ∈ c.defaultValue, t.Within P
  enumValues : ∀ values ∈ c.enumValues, ∀ t ∈ values, t.Within P
  references : ∀ r ∈ c.references, r.table.Within P ∧ r.column.Within P
  comments : ∀ t ∈ c.comments, t.Within P

/-- The texts of a column are within bounds if its names, values and reference are. -/
theorem Column.Within.texts (hP : HoldsOfScalars P) {c : Column} (h : c.Within P) :
    ∀ t ∈ c.texts, t.Within P := by
  have hreferences : ∀ r ∈ c.references, ∀ t ∈ r.texts, t.Within P := by
    intro r hr
    obtain ⟨htable, hcolumn⟩ := h.references r hr
    simp only [ColumnReference.texts, List.forall_mem_cons]
    exact ⟨htable, hcolumn, ReferentialAction.within_spellings hP _ _⟩
  have henum : ∀ t ∈ c.enumValues.getD [], t.Within P := by
    cases hvalues : c.enumValues with
    | none => simp
    | some values => exact h.enumValues values hvalues
  simp only [Column.texts, List.forall_mem_cons, List.forall_mem_append, List.forall_mem_flatMap,
    Option.mem_toList]
  exact ⟨h.name, h.type, ⟨⟨h.defaultValue, henum⟩, hreferences⟩, h.comments⟩

namespace ColumnReference

theorem within_ofTarget? {e : Expr} (h : e.Within P) :
    ∀ r ∈ ofTarget? e, r.table.Within P ∧ r.column.Within P := by
  intro r hr
  have hunwrap := h.unwrap
  unfold ofTarget? at hr
  split at hr
  · next x body hfunction =>
    rw [hfunction] at hunwrap
    cases hunwrap with
    | function _ _ hbody =>
      have hbody := hbody.unwrap
      split at hr
      · next y receiver property hmember =>
        rw [hmember] at hbody
        cases hbody with
        | memberAccess _ hreceiver hproperty =>
          have hreceiver := hreceiver.unwrap
          split at hr
          · next z table htable =>
            rw [htable] at hreceiver
            cases hreceiver with
            | identifier _ hname =>
              cases hr
              exact ⟨hname, hproperty⟩
          · cases hr
      · cases hr
  · cases hr

theorem within_ofArguments? {es : List Expr} (h : ∀ e ∈ es, e.Within P) :
    ∀ r ∈ ofArguments? es, r.table.Within P ∧ r.column.Within P := by
  intro r hr
  cases es with
  | nil => cases hr
  | cons target rest =>
    have htarget := within_ofTarget? (h target List.mem_cons_self)
    cases rest with
    | nil => exact htarget r hr
    | cons actions rest =>
      rw [ofArguments?] at hr
      split at hr
      · next reference entries hreference _ =>
        cases hr
        exact htarget reference hreference
      · exact htarget r hr

end ColumnReference

theorem within_defaultText? (hP : HoldsOfScalars P) {e : Expr} (h : e.Within P) :
    ∀ t ∈ defaultText? e, t.Within P := by
  intro t ht
  have hunwrap := h.unwrap
  unfold defaultText? at ht
  split at ht
  · exact Number.within_canonical? hP ht
  · next extent value hboolean =>
    rw [hboolean] at hunwrap
    cases hunwrap with
    | boolean htext =>
      cases ht
      exact htext
  · cases ht
    exact hunwrap.literalText

/-- The string literals among expressions. -/
theorem within_filterMap_string? {es : List Expr} (h : ∀ e ∈ es, e.Within P) :
    ∀ t ∈ es.filterMap Expr.string?, t.Within P := by
  intro t ht
  obtain ⟨e, he, hstring⟩ := List.mem_filterMap.mp ht
  exact (h e he).string? t hstring

namespace Column

theorem Within.applyOption {c : Column} (h : c.Within P) {entry : Entry}
    (hentry : entry.Within P) : (c.applyOption entry).Within P := by
  unfold Column.applyOption
  simp only
  split_ifs
  · exact { h with }
  · exact { h with }
  · exact { h with }
  · split
    · next elements helements =>
      refine { h with enumValues := ?_ }
      intro values hvalues
      cases hvalues
      exact within_filterMap_string? (hentry.value.unwrap.elements? elements helements)
    · exact h
  · exact h

theorem Within.foldl_applyOption {c : Column} (h : c.Within P) {entries : List Entry}
    (hentries : ∀ entry ∈ entries, entry.Within P) :
    (entries.foldl Column.applyOption c).Within P := by
  induction entries generalizing c with
  | nil => exact h
  | cons entry rest ih =>
    obtain ⟨hentry, hrest⟩ := List.forall_mem_cons.mp hentries
    exact ih (h.applyOption hentry) hrest

theorem within_options? {es : List Expr} (h : ∀ e ∈ es, e.Within P) :
    ∀ entries ∈ options? es, ∀ entry ∈ entries, entry.Within P := by
  intro entries hentries
  unfold options? at hentries
  split at hentries
  · cases hentries
    exact (h _ (List.mem_cons_of_mem _ List.mem_cons_self)).properties? _ rfl
  · cases hentries
    exact (h _ List.mem_cons_self).properties? _ rfl
  · cases hentries

theorem Within.applyType {c : Column} (h : c.Within P) {call : Expr.Link} (hcall : call.Within P) :
    (c.applyType call).Within P := by
  have htyped : Within P { c with type := call.name.getD c.type } := by
    refine { h with type := ?_ }
    cases hname : call.name with
    | none => exact h.type
    | some name => exact hcall.name name hname
  refine htyped.foldl_applyOption ?_
  cases hentries : options? call.arguments with
  | none => simp
  | some entries => exact within_options? hcall.arguments entries hentries

/-- A modifier brings only its own texts into a column. -/
theorem Within.applyModifier (hP : HoldsOfScalars P) {c c' : Column} (h : c.Within P)
    {call : Expr.Link} (hcall : call.Within P) (happly : c.applyModifier call = .ok c') :
    c'.Within P := by
  have hdefault (text : Text) (htext : text.Within P) :
      Within P { c with defaultValue := some text } := by
    refine { h with defaultValue := fun t ht => ?_ }
    cases ht
    exact htext
  have harguments := hcall.arguments
  unfold Column.applyModifier at happly
  split at happly
  · cases happly
    exact { h with }
  split at happly
  · cases happly
    exact { h with }
  split at happly
  · cases happly
    exact { h with }
  split at happly
  · split at happly
    · cases happly
      exact h
    · next value rest hvalues =>
      rw [hvalues] at harguments
      split at happly
      · next text htext =>
        cases happly
        have hvalue := harguments value List.mem_cons_self
        exact hdefault text (within_defaultText? hP hvalue text htext)
      · cases happly
  split at happly
  · cases happly
    exact hdefault _ (Text.within_ofString hP _)
  split at happly
  · cases happly
    exact { h with references := ColumnReference.within_ofArguments? harguments }
  · cases happly
    exact h

theorem Within.foldlM_applyModifier (hP : HoldsOfScalars P) {c c' : Column} (h : c.Within P)
    {calls : List Expr.Link} (hcalls : ∀ call ∈ calls, call.Within P)
    (happly : calls.foldlM Column.applyModifier c = .ok c') : c'.Within P := by
  induction calls generalizing c with
  | nil =>
    cases happly
    exact h
  | cons call rest ih =>
    obtain ⟨hcall, hrest⟩ := List.forall_mem_cons.mp hcalls
    rw [List.foldlM_cons] at happly
    obtain ⟨next, hnext, happly⟩ := Except.bind_eq_ok.mp happly
    exact ih (h.applyModifier hP hcall hnext) hrest happly

theorem Within.withEnum {c : Column} (h : c.Within P) {enums : Enums} (henums : enums.Within P) :
    (c.withEnum enums).Within P := by
  unfold Column.withEnum
  split
  · exact h
  · refine { h with enumValues := ?_ }
    intro values hvalues
    exact (henums _ (Keyed.mem_of_get? hvalues)).2

/-- A column that is read from an entry. -/
theorem within_ofEntry (hP : HoldsOfScalars P) {includeComments : Bool} {enums : Enums}
    (henums : enums.Within P) {entry : Entry} (hentry : entry.Within P) {c : Column}
    (h : ofEntry includeComments enums entry = .ok c) : c.Within P := by
  have hchain := hentry.value.unwrap.chain
  unfold ofEntry at h
  simp only at h
  split at h
  · cases h
  · next type htype =>
    split at h
    · cases h
    · next column hcolumn =>
      have hbare : Within P { name := entry.key } := by
        refine ⟨hentry.key, Text.within_ofString hP _, ?_, ?_, ?_, ?_⟩ <;> simp
      have hread : (column.withEnum enums).Within P := by
        refine Within.withEnum ?_ henums
        exact (hbare.applyType (hchain type (List.mem_of_getLast? htype))).foldlM_applyModifier hP
          (fun call hcall => hchain call (List.dropLast_subset _ hcall)) hcolumn
      cases h
      split
      · refine { hread with comments := fun t ht => ?_ }
        refine Comment.within_documentation? hP (fun group hgroup => ?_) ht
        rw [List.mem_singleton.mp hgroup]
        exact hentry.comments
      · exact hread

/-- Columns have their texts from their entries and from the enums. -/
theorem within_ofEntries (hP : HoldsOfScalars P) {includeComments : Bool} {enums : Enums}
    (henums : enums.Within P) {entries : List Entry} (hentries : ∀ entry ∈ entries, entry.Within P)
    {columns : List Column}
    (h : (ofEntries includeComments enums entries).outcome = .ok columns) :
    ∀ c ∈ columns, c.Within P := by
  induction entries generalizing columns with
  | nil =>
    cases h
    simp
  | cons entry rest ih =>
    obtain ⟨hentry, hrest⟩ := List.forall_mem_cons.mp hentries
    rw [ofEntries] at h
    split at h
    · next column hcolumn =>
      rw [Trace.outcome_map] at h
      obtain ⟨others, hothers, rfl⟩ := Except.map_eq_ok.mp h
      exact List.forall_mem_cons.mpr ⟨within_ofEntry hP henums hentry hcolumn, ih hrest hothers⟩
    · rw [Trace.outcome_bind] at h
      exact ih hrest h
    · cases h

end Column
end SchemaAtlas
