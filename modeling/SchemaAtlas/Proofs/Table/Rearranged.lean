import SchemaAtlas.Proofs.Column.Modifiers
import SchemaAtlas.Proofs.Entity.Classification
import SchemaAtlas.Proofs.Table.Respelled

/-!
# Columns in another order

The order of the entries in a map of columns is kept in the columns and in what is listed by column,
and matters for nothing else. The type of an entity is found by counting columns and by asking
whether there is one of some kind; an audit role is played iff there is a column for it.
-/

namespace SchemaAtlas

/-- Two computations end alike: with the same error, or with results that are related. -/
inductive Alike {ε α β : Type} (R : α → β → Prop) : Except ε α → Except ε β → Prop where
  | error (e : ε) : Alike R (.error e) (.error e)
  | ok {a : α} {b : β} (h : R a b) : Alike R (.ok a) (.ok b)

namespace Column

/-- What the type of an entity depends on in a column. -/
def sketch (c : Column) : Text × Bool := (c.name, c.references.isSome)

/-- The column that an entry gives, if any. -/
def given? (includeComments : Bool) (enums : Enums) (entry : Entry) : Option Column :=
  (ofEntry includeComments enums entry).toOption

def faults (includeComments : Bool) (enums : Enums) (entry : Entry) : Bool :=
  match ofEntry includeComments enums entry with
  | .error (.fault _) => true
  | _ => false

section Read

variable (includeComments : Bool) (enums : Enums)

/-- Only an integer that cannot be written ends the run. -/
theorem fault_of_ofEntry {entry : Entry} {fault : Fault}
    (h : ofEntry includeComments enums entry = .error (.fault fault)) :
    fault = .integerBeyondDigitLimit := by
  unfold ofEntry at h
  cases hlast : entry.value.unwrap.chain.getLast? with
  | none => simp [hlast] at h
  | some type =>
    have hmodifiers := foldlM_applyModifier_reverse entry.value.unwrap.chain.dropLast.reverse
      (applyType { name := entry.key } type)
    rw [List.reverse_reverse] at hmodifiers
    simp only [hlast, ofChain, hmodifiers] at h
    split at h
    · next hfault =>
      split_ifs at hfault
      cases hfault
      cases h
      rfl
    · cases h

/-- The columns of a map are read entry by entry, unless one of the entries ends the run. -/
theorem outcome_ofEntries_eq (entries : List Entry) :
    (ofEntries includeComments enums entries).outcome =
      if entries.any (faults includeComments enums) then .error .integerBeyondDigitLimit
      else .ok (entries.filterMap (given? includeComments enums)) := by
  induction entries with
  | nil => rfl
  | cons entry rest ih =>
    rw [ofEntries, List.any_cons, List.filterMap_cons]
    cases hentry : ofEntry includeComments enums entry with
    | ok column =>
      simp only [Trace.outcome_map, ih, faults, given?, hentry, Bool.false_or, Except.toOption]
      split_ifs <;> rfl
    | error problem =>
      cases problem with
      | mismatch cause =>
        simp [ih, faults, given?, hentry, Except.toOption]
      | fault fault =>
        simp [faults, hentry, fault_of_ofEntry includeComments enums hentry]

/-- Maps with the same entries end the run together or give the same columns in another order. -/
theorem alike_ofEntries_of_perm {entries entries' : List Entry} (h : entries'.Perm entries) :
    Alike (fun columns columns' =>
        columns = entries.filterMap (given? includeComments enums) ∧
        columns' = entries'.filterMap (given? includeComments enums))
      (ofEntries includeComments enums entries).outcome
      (ofEntries includeComments enums entries').outcome := by
  rw [outcome_ofEntries_eq, outcome_ofEntries_eq, h.any_eq]
  split_ifs
  · exact .error _
  · exact .ok ⟨rfl, rfl⟩

end Read

end Column

namespace EntityType

variable {columns columns' : List Column}

theorem countP_of_sketch (p : Text × Bool → Bool)
    (h : (columns'.map Column.sketch).Perm (columns.map Column.sketch)) :
    columns'.countP (fun c => p c.sketch) = columns.countP fun c => p c.sketch := by
  have hcount := h.countP_eq p
  rwa [List.countP_map, List.countP_map] at hcount

theorem any_of_sketch (p : Text × Bool → Bool)
    (h : (columns'.map Column.sketch).Perm (columns.map Column.sketch)) :
    columns'.any (fun c => p c.sketch) = columns.any fun c => p c.sketch := by
  have hany := h.any_eq (f := p)
  rwa [List.any_map, List.any_map] at hany

/-- The type of an entity follows from how often each name occurs with and without a reference, and
from whether there is a primary key. -/
theorem classify_of_sketch (rules : HeuristicRules) (name tableName : Text)
    (h : (columns'.map Column.sketch).Perm (columns.map Column.sketch)) {keys keys' : List Text}
    (hkeys : keys' = [] ↔ keys = []) :
    classify rules name tableName columns' keys' = classify rules name tableName columns keys := by
  have hlength : columns'.length = columns.length := by simpa using h.length_eq
  have hids := countP_of_sketch (fun s => rules.isIdColumn s.1) h
  have hreferences := countP_of_sketch (fun s => s.2) h
  have hmarked := any_of_sketch (fun s => marked rules.referenceColumnMarkers s.1) h
  have hempty : keys'.isEmpty = keys.isEmpty := by
    rw [Bool.eq_iff_iff, List.isEmpty_iff, List.isEmpty_iff, hkeys]
  simp only [Column.sketch] at hids hreferences hmarked
  unfold classify looksLikeJunction looksLikeLookup
  rw [hlength, hids, hreferences, hmarked, hempty]

end EntityType

namespace AuditColumns

/-- Which roles are played does not depend on the order of the columns. -/
theorem isSome_get_detect_of_perm (rules : List AuditRule) {columns columns' : List Column}
    (h : columns'.Perm columns) (role : AuditRole) :
    ((detect rules columns').get role).isSome = ((detect rules columns).get role).isSome := by
  have hany (columns : List Column) : ((detect rules columns).get role).isSome =
      columns.any fun c => roleOf? rules c.name = some role := by
    rw [get_detect, Option.isSome_map, Bool.eq_iff_iff, List.find?_isSome]
    simp
  rw [hany, hany, h.any_eq]

end AuditColumns

/-- Two declarations of a table that differ in the order of the entries in their maps of columns. -/
structure Declaration.Rearranged (entries entries' : List Entry) (d d' : Declaration) : Prop where
  head : SameHead d d'
  arguments : ∃ name columns columns' rest,
    d.arguments? = some (name :: columns :: rest) ∧
    d'.arguments? = some (name :: columns' :: rest) ∧
    Entity.columnMap? columns = some entries ∧ Entity.columnMap? columns' = some entries'
  perm : entries'.Perm entries

namespace Entity

/-- Two entities whose columns are read from the same entries in another order. The keys and foreign
keys of columns follow their columns, the same foreign keys over several columns come behind them,
the same audit roles are played, and all other fields agree. -/
structure Rearranged (column? : Entry → Option Column) (entries entries' : List Entry)
    (e e' : Entity) : Prop where
  columns : e.columns = entries.filterMap column?
  columns' : e'.columns = entries'.filterMap column?
  perm : e'.columns.Perm e.columns
  primaryKeys : e.primaryKeys = (e.columns.filter (·.primaryKey)).map (·.name)
  primaryKeys' : e'.primaryKeys = (e'.columns.filter (·.primaryKey)).map (·.name)
  foreignKeys : ∃ composite, e.foreignKeys = e.columns.filterMap foreignKeyOf? ++ composite ∧
    e'.foreignKeys = e'.columns.filterMap foreignKeyOf? ++ composite
  auditColumns : Option.Rel (fun a a' => ∀ role, (a'.get role).isSome = (a.get role).isSome)
    e.auditColumns e'.auditColumns
  others : { e' with
    columns := e.columns
    primaryKeys := e.primaryKeys
    foreignKeys := e.foreignKeys
    auditColumns := e.auditColumns } = e

/-- Tables that differ in the order of their columns have shapes that do. -/
theorem shape_of_rearranged {entries entries' : List Entry} {d d' : Declaration}
    (h : Declaration.Rearranged entries entries' d d') :
    (∃ cause, shape d = .error cause ∧ shape d' = .error cause) ∨
      ∃ tableName extras, shape d = .ok ⟨tableName, entries, extras⟩ ∧
        shape d' = .ok ⟨tableName, entries', extras⟩ := by
  obtain ⟨name, columns, columns', rest, harguments, harguments', hmap, hmap'⟩ := h.arguments
  simp only [shape, harguments, harguments', hmap, hmap']
  cases name.unwrap.string? with
  | none => exact .inl ⟨_, rfl, rfl⟩
  | some tableName =>
    cases tableName with
    | nil => exact .inl ⟨_, rfl, rfl⟩
    | cons c rest => exact .inr ⟨_, _, rfl, rfl⟩

/-- An entity is described alike with its columns in another order. -/
theorem rearranged_described (config : Config) {d d' : Declaration}
    (hhead : Declaration.SameHead d d') (tableName : Text) (extras : List Extra)
    (column? : Entry → Option Column) {entries entries' : List Entry} (h : entries'.Perm entries) :
    Rearranged column? entries entries'
      ((ofParts d.name tableName (entries.filterMap column?) extras).described config d)
      ((ofParts d'.name tableName (entries'.filterMap column?) extras).described config d') := by
  have hcolumns : (entries'.filterMap column?).Perm (entries.filterMap column?) :=
    h.filterMap column?
  have hperm := (hcolumns.filter (·.primaryKey)).map (·.name)
  have hkeys : ((entries'.filterMap column?).filter (·.primaryKey)).map (·.name) = [] ↔
      ((entries.filterMap column?).filter (·.primaryKey)).map (·.name) = [] := by
    rw [← List.length_eq_zero_iff, hperm.length_eq, List.length_eq_zero_iff]
  refine ⟨rfl, rfl, hcolumns, rfl, rfl, ⟨_, rfl, rfl⟩, ?_, ?_⟩
  · simp only [described]
    split_ifs
    · exact .some (AuditColumns.isSome_get_detect_of_perm _ hcolumns)
    · exact .none
  · have htype := EntityType.classify_of_sketch config.heuristics d.name tableName
      (hcolumns.map Column.sketch) hkeys
    simp only [described, ofParts, hhead.name_eq, hhead.statementComments_eq,
      hhead.comments_eq] at htype ⊢
    rw [htype]

/-- The order of the columns is kept and changes nothing else, and the type of an entity depends on
no more of its columns than how often each name occurs with and without a reference. -/
theorem outcome_ofDeclaration_of_rearranged (config : Config) (enums : Enums)
    {entries entries' : List Entry} {d d' : Declaration}
    (h : Declaration.Rearranged entries entries' d d') {columns columns' : List Column}
    (hcolumns : (columns'.map Column.sketch).Perm (columns.map Column.sketch))
    {keys keys' : List Text} (hkeys : keys' = [] ↔ keys = []) :
    Alike (Alike (Rearranged (Column.given? config.options.includeComments enums) entries entries'))
        (ofDeclaration config enums d).outcome (ofDeclaration config enums d').outcome ∧
      ∀ rules name tableName, EntityType.classify rules name tableName columns' keys' =
        EntityType.classify rules name tableName columns keys := by
  refine ⟨?_, fun rules name tableName =>
    EntityType.classify_of_sketch rules name tableName hcolumns hkeys⟩
  rw [outcome_ofDeclaration_eq, outcome_ofDeclaration_eq]
  rcases shape_of_rearranged h with ⟨cause, hshape, hshape'⟩ | ⟨tableName, extras, hshape, hshape'⟩
  · rw [hshape, hshape']
    exact .ok (.error cause)
  · have hread := Column.alike_ofEntries_of_perm config.options.includeComments enums h.perm
    simp only [hshape, hshape', Except.map_ok, Shape.read]
    generalize (Column.ofEntries config.options.includeComments enums entries).outcome = read,
      (Column.ofEntries config.options.includeComments enums entries').outcome = read' at hread
    cases hread with
    | error fault => exact .error fault
    | ok hcolumns =>
      obtain ⟨rfl, rfl⟩ := hcolumns
      exact .ok (.ok (rearranged_described config h.head tableName _ _ h.perm))

/-- The columns of a junction, an entry that is no column among them. -/
def memberEntries : List Entry := [
  entryOf "group_id" (.call default (.identifier default "integer") []),
  entryOf "note" (.string default "none"),
  entryOf "createdAt" (.call default (.identifier default "timestamp") []),
  entryOf "user_id" (.call default (.memberAccess default
    (.call default (.identifier default "integer") []) "references")
    [.function default [] (.memberAccess default (.identifier default "users") "id")])]

def memberColumns : List Column := [{ name := "group_id" }, { name := "user_id" }]

theorem rearranged_memberEntries : Declaration.Rearranged memberEntries memberEntries.reverse
    (usersTable 1 (.object default memberEntries) listedExtras)
    (usersTable 1 (.object default memberEntries.reverse) listedExtras) :=
  ⟨⟨rfl, rfl, rfl⟩, ⟨_, _, _, _, rfl, rfl, rfl, rfl⟩, memberEntries.reverse_perm⟩

/-- A table of members with its columns in two orders. -/
theorem outcome_ofDeclaration_of_rearranged_memberEntries :
    let d := usersTable 1 (.object default memberEntries) listedExtras
    let d' := usersTable 1 (.object default memberEntries.reverse) listedExtras
    ∃ e e', (ofDeclaration {} [] d).outcome = .ok (.ok e) ∧
      (ofDeclaration {} [] d').outcome = .ok (.ok e') ∧
      Rearranged (Column.given? true []) memberEntries memberEntries.reverse e e' ∧
      e.columns.map (·.name) = [("group_id" : Text), "createdAt", "user_id"] ∧
      e'.columns.map (·.name) = [("user_id" : Text), "createdAt", "group_id"] ∧
      e'.entityType = some .junction ∧
      EntityType.classify {} "members" "members" memberColumns.reverse ["user_id"] =
        EntityType.classify {} "members" "members" memberColumns ["group_id"] := by
  intro d d'
  have hcolumns : (memberColumns.reverse.map Column.sketch).Perm
      (memberColumns.map Column.sketch) := memberColumns.reverse_perm.map _
  have hkeys : [("user_id" : Text)] = [] ↔ [("group_id" : Text)] = [] := by decide
  obtain ⟨hsame, hclassify⟩ :=
    outcome_ofDeclaration_of_rearranged {} [] rearranged_memberEntries hcolumns hkeys
  obtain ⟨e, he⟩ : ∃ e, (ofDeclaration {} [] d).outcome = .ok (.ok e) := ⟨_, rfl⟩
  obtain ⟨e', he', htype⟩ : ∃ e', (ofDeclaration {} [] d').outcome = .ok (.ok e') ∧
    e'.entityType = some .junction := ⟨_, rfl, by decide +kernel⟩
  rw [he, he'] at hsame
  cases hsame with
  | ok hsame =>
    cases hsame with
    | ok h =>
      refine ⟨e, e', he, he', h, ?_, ?_, htype, hclassify {} "members" "members"⟩
      · rw [h.columns]
        decide +kernel
      · rw [h.columns']
        decide +kernel

end Entity
end SchemaAtlas
