import SchemaAtlas.Proofs.Batch.Parsed
import SchemaAtlas.Proofs.Entity.Classification
import SchemaAtlas.Proofs.Expr.Returned

/-!
# Relations read back from their spellings

The target of a relation, the elements of its lists and the function that returns the mapping may be
spelled in several ways, each on its own, and entries that declare no relation may stand anywhere
between the others. In all spellings the relations are read that are described, in their order.
-/

namespace SchemaAtlas

/-- The helpers that declare relations: to a single record, or to several. -/
inductive RelationHelper where
  | one
  | many
  deriving DecidableEq

namespace RelationHelper

def name : RelationHelper → Text
  | one => "one"
  | many => "many"

def cardinality : RelationHelper → Cardinality
  | one => .oneToOne
  | many => .oneToMany

/-- The names that declare relations are those of the two helpers. -/
theorem ofHelper?_eq_some_iff {helper : Text} {c : Cardinality} :
    Cardinality.ofHelper? helper = some c ↔
      ∃ h : RelationHelper, h.name = helper ∧ h.cardinality = c := by
  constructor
  · intro h
    unfold Cardinality.ofHelper? at h
    split at h
    · next hone => exact ⟨one, hone.symm, Option.some.inj h⟩
    · split at h
      · next hmany => exact ⟨many, hmany.symm, Option.some.inj h⟩
      · cases h
  · rintro ⟨h, rfl, rfl⟩
    cases h <;> rfl

end RelationHelper

/-- A relation as a mapping describes it. The names that its lists hold are not empty. -/
structure RelationDescription where
  key : Text
  helper : RelationHelper
  target : Text
  fields : Option (List Text) := none
  references : Option (List Text) := none
  relationName : Option Text := none
  nil_notMem_fields : ∀ names, fields = some names → [] ∉ names
  nil_notMem_references : ∀ names, references = some names → [] ∉ names

namespace Relation

/-- A spelling of a table: `users`, or `schema.users`. -/
inductive SpellsTable (table : Text) : Expr → Prop
  | identifier (x : Extent) : SpellsTable table (.identifier x table)
  | member (x : Extent) (schema : Expr) : SpellsTable table (.memberAccess x schema table)

theorem tableName?_eq_some_iff {e : Expr} {table : Text} :
    tableName? e = some table ↔ SpellsTable table e := by
  constructor
  · intro h
    cases e <;> cases h
    · exact .identifier _
    · exact .member _ _
  · rintro (⟨x⟩ | ⟨x, schema⟩) <;> rfl

/-- A spelling of a target: a table, or a function without parameters that returns one. -/
inductive SpellsTarget (table : Text) (e : Expr) : Prop
  | direct (h : SpellsTable table e.unwrap)
  | returned {body result : Expr} (x : Extent) (h : e.unwrap = .function x [] body)
      (hbody : body.Yields result) (hresult : SpellsTable table result)

/-- A table is named in exactly the given spellings. -/
theorem target?_eq_some_iff {e : Expr} {table : Text} :
    target? e = some table ↔ SpellsTarget table e := by
  constructor
  · intro h
    unfold target? at h
    split at h
    · next x body hfunction =>
      obtain ⟨result, hresult, htable⟩ := Option.bind_eq_some_iff.mp h
      exact .returned x hfunction (Expr.yields_of_result?_eq hresult)
        (tableName?_eq_some_iff.mp htable)
    · exact .direct (tableName?_eq_some_iff.mp h)
  · rintro (h | ⟨x, hfunction, hbody, htable⟩)
    · unfold target?
      generalize e.unwrap = u at h
      cases h <;> rfl
    · have hresult := hbody.result?_eq (by rintro y statements rfl; cases htable)
      rw [target?, hfunction]
      simp only [hresult, Option.bind_some, tableName?_eq_some_iff.mpr htable]

/-- A spelling of an element of a list: `id`, `users.id` or `"id"`. -/
inductive SpellsElement (name : Text) (e : Expr) : Prop
  | identifier (x : Extent) (h : e.unwrap = .identifier x name)
  | member (x : Extent) (object : Expr) (h : e.unwrap = .memberAccess x object name)
  | string (x : Extent) (h : e.unwrap = .string x name)

def SpellsList (names : List Text) (e : Expr) : Prop :=
  ∃ x elements, e.unwrap = .array x elements ∧ List.Forall₂ SpellsElement names elements

def SpellsLabel (label : Text) (e : Expr) : Prop := ∃ x, e.unwrap = .string x label

/-- A configuration in which the last entry with a key spells a value, or no entry has the key. -/
inductive SpellsSetting {α : Type} (spells : α → Expr → Prop) (key : Text) :
    Option α → List Entry → Prop
  | absent {config : List Entry} (h : ∀ p ∈ config, p.key ≠ key) :
      SpellsSetting spells key none config
  | given {a : α} {before after : List Entry} {entry : Entry} (hkey : entry.key = key)
      (hafter : ∀ p ∈ after, p.key ≠ key) (h : spells a entry.value) :
      SpellsSetting spells key (some a) (before ++ entry :: after)

theorem referencedName?_of_spells {name : Text} {e : Expr} (h : SpellsElement name e) :
    e.referencedName? = some name := by
  rcases h with ⟨x, h⟩ | ⟨x, object, h⟩ | ⟨x, h⟩ <;> rw [Expr.referencedName?, h]

/-- Elements that spell names are read as these. -/
theorem names_of_spells {found : List Text} {elements : List Expr}
    (h : List.Forall₂ SpellsElement found elements) (hnames : [] ∉ found) :
    names elements = found := by
  have hread : elements.filterMap Expr.referencedName? = found := by
    clear hnames
    induction h with
    | nil => rfl
    | cons h _ ih => rw [List.filterMap_cons_some (referencedName?_of_spells h), ih]
  rw [names, hread, List.filter_eq_self]
  intro name hname
  cases name with
  | nil => exact absurd hname hnames
  | cons c rest => rfl

section Setting

variable {α : Type} {spells : α → Expr → Prop} {key : Text} {config : List Entry}

theorem setting?_of_absent (h : ∀ p ∈ config, p.key ≠ key) : setting? config key = none := by
  have hfind : config.reverse.find? (·.key = key) = none :=
    List.find?_eq_none.mpr fun p hp => by simpa using h p (List.mem_reverse.mp hp)
  rw [setting?, lastValue?, hfind]
  rfl

theorem setting?_of_given {before after : List Entry} {entry : Entry} (hkey : entry.key = key)
    (hafter : ∀ p ∈ after, p.key ≠ key) :
    setting? (before ++ entry :: after) key = some entry.value.unwrap := by
  have hfind : after.reverse.find? (·.key = key) = none :=
    List.find?_eq_none.mpr fun p hp => by simpa using hafter p (List.mem_reverse.mp hp)
  simp [setting?, lastValue?, List.find?_append, hfind, hkey]

/-- What spells a value is read as the value. -/
theorem setting?_bind_of_spells {given : Option α} (h : SpellsSetting spells key given config)
    {read : Expr → Option α}
    (hread : ∀ a e, given = some a → spells a e → read e.unwrap = some a) :
    (setting? config key).bind read = given := by
  cases h with
  | absent h => rw [setting?_of_absent h, Option.bind_none]
  | given hkey hafter h => rw [setting?_of_given hkey hafter, Option.bind_some, hread _ _ rfl h]

theorem names_of_spellsSetting {given : Option (List Text)}
    (h : SpellsSetting SpellsList key given config)
    (hnames : ∀ found, given = some found → [] ∉ found) :
    ((setting? config key).bind Expr.elements?).map names = given := by
  rw [Option.map_bind]
  refine setting?_bind_of_spells h ?_
  rintro found e hgiven ⟨x, elements, harray, helements⟩
  rw [Function.comp_apply, harray]
  exact congrArg some (names_of_spells helements (hnames found hgiven))

theorem label_of_spellsSetting {given : Option Text}
    (h : SpellsSetting SpellsLabel key given config) :
    (setting? config key).bind Expr.string? = given := by
  refine setting?_bind_of_spells h ?_
  rintro label e - ⟨x, hstring⟩
  rw [hstring]
  rfl

end Setting

/-- A spelling of the arguments of a helper: the target, and a configuration if there is anything to
configure. -/
inductive SpellsArguments (description : RelationDescription) : List Expr → Prop
  | bare {target : Expr} (htarget : SpellsTarget description.target target)
      (hfields : description.fields = none) (hreferences : description.references = none)
      (hlabel : description.relationName = none) : SpellsArguments description [target]
  | configured {target settings : Expr} (rest : List Expr) (x : Extent) {config : List Entry}
      (htarget : SpellsTarget description.target target)
      (hsettings : settings.unwrap = .object x config)
      (hfields : SpellsSetting SpellsList "fields" description.fields config)
      (hreferences : SpellsSetting SpellsList "references" description.references config)
      (hlabel : SpellsSetting SpellsLabel "relationName" description.relationName config) :
      SpellsArguments description (target :: settings :: rest)

/-- A spelling of a relation: its key, and a call of its helper. -/
structure SpellsRelation (description : RelationDescription) (entry : Entry) : Prop where
  key_eq : entry.key = description.key
  exists_call : ∃ x y arguments,
    entry.value.unwrap = .call x (.identifier y description.helper.name) arguments ∧
      SpellsArguments description arguments

def CallsHelper (entry : Entry) : Prop :=
  ∃ x y target rest table, ∃ helper : RelationHelper,
    entry.value.unwrap = .call x (.identifier y helper.name) (target :: rest) ∧
      SpellsTarget table target

/-- A spelling of relations in their order, with entries in between that are none. -/
inductive SpellsRelations : List RelationDescription → List Entry → Prop
  | nil : SpellsRelations [] []
  | relation {description : RelationDescription} {entry : Entry}
      {descriptions : List RelationDescription} {entries : List Entry}
      (h : SpellsRelation description entry) (hrest : SpellsRelations descriptions entries) :
      SpellsRelations (description :: descriptions) (entry :: entries)
  | other {entry : Entry} {descriptions : List RelationDescription} {entries : List Entry}
      (h : ¬ CallsHelper entry) (hrest : SpellsRelations descriptions entries) :
      SpellsRelations descriptions (entry :: entries)

/-- Whether a junction marker occurs in the target or in the key, in upper or lower case. -/
def MarksJunction (rules : HeuristicRules) (description : RelationDescription) : Prop :=
  ∃ marker ∈ rules.junctionMarkers,
    marker.lower <:+: description.target.lower ∨ marker.lower <:+: description.key.lower

theorem hasJunctionMarker_iff_marksJunction (rules : HeuristicRules)
    (description : RelationDescription) :
    rules.hasJunctionMarker [description.target, description.key] ↔
      MarksJunction rules description := by
  rw [HeuristicRules.hasJunctionMarker_iff]
  simp [MarksJunction]

instance (rules : HeuristicRules) (description : RelationDescription) :
    Decidable (MarksJunction rules description) :=
  decidable_of_iff _ (hasJunctionMarker_iff_marksJunction rules description)

/-- Whether a description is that of the side that holds the keys: a single record, with both lists
given. -/
def HoldsKeys (description : RelationDescription) : Prop :=
  description.helper = .one ∧ description.fields.isSome ∧ description.references.isSome

instance (description : RelationDescription) : Decidable (HoldsKeys description) :=
  inferInstanceAs (Decidable (_ ∧ _))

/-- A relation that is as described. A junction marker makes it many-to-many, whatever the helper
is; else the side that holds the keys is many-to-one, and the helper decides what is left. -/
structure AsDescribed (rules : HeuristicRules) (description : RelationDescription) (r : Relation) :
    Prop where
  name_eq : r.name = description.key
  relatedTable_eq : r.relatedTable = description.target
  fields_eq : r.fields = description.fields
  references_eq : r.references = description.references
  relationName_eq : r.relationName = description.relationName
  type_of_marker : MarksJunction rules description → r.type = .manyToMany
  type_of_keys : ¬ MarksJunction rules description → HoldsKeys description → r.type = .manyToOne
  type_of_helper : ¬ MarksJunction rules description → ¬ HoldsKeys description →
    r.type = description.helper.cardinality

variable (rules : HeuristicRules) {description : RelationDescription} {entry : Entry}

/-- A relation with what is described gets the cardinality that is described. -/
theorem asDescribed_refined {r : Relation} (hname : r.name = description.key)
    (htable : r.relatedTable = description.target) (hfields : r.fields = description.fields)
    (hreferences : r.references = description.references)
    (hlabel : r.relationName = description.relationName) :
    AsDescribed rules description { r with
      isSelfReferencing := r.hintsAtSelf rules
      type := r.refined rules description.helper.cardinality } := by
  have hmarker : rules.hasJunctionMarker [r.relatedTable, r.name] ↔
      MarksJunction rules description := by
    rw [hname, htable, hasJunctionMarker_iff_marksJunction]
  have hkeys : (description.helper.cardinality = .oneToOne ∧ r.fields.isSome ∧
      r.references.isSome) ↔ HoldsKeys description := by
    rw [hfields, hreferences, HoldsKeys]
    cases description.helper <;> simp [RelationHelper.cardinality]
  exact {
    name_eq := hname
    relatedTable_eq := htable
    fields_eq := hfields
    references_eq := hreferences
    relationName_eq := hlabel
    type_of_marker := fun h => if_pos (hmarker.mpr h)
    type_of_keys := fun h hk => by
      show refined rules _ r = _
      rw [refined, if_neg (hmarker.not.mpr h), if_pos (hkeys.mpr hk)]
    type_of_helper := fun h hk => by
      show refined rules _ r = _
      rw [refined, if_neg (hmarker.not.mpr h), if_neg (hkeys.not.mpr hk)] }

/-- A relation is read back from each of its spellings. -/
theorem exists_ofEntry_of_spells (h : SpellsRelation description entry) :
    ∃ r, ofEntry rules entry = .ok r ∧ AsDescribed rules description r := by
  obtain ⟨x, y, arguments, hcall, harguments⟩ := h.exists_call
  have hhelper := RelationHelper.ofHelper?_eq_some_iff.mpr ⟨description.helper, rfl, rfl⟩
  cases harguments with
  | bare htarget hfields hreferences hlabel =>
    have htable := target?_eq_some_iff.mpr htarget
    rw [ofEntry, hcall]
    -- a single argument is no configuration, so that nothing is added to the bare relation
    simp only [hhelper, htable]
    exact ⟨_, rfl, asDescribed_refined rules h.key_eq rfl hfields.symm hreferences.symm hlabel.symm⟩
  | configured rest z htarget hsettings hfields hreferences hlabel =>
    have htable := target?_eq_some_iff.mpr htarget
    have hfields' := names_of_spellsSetting hfields description.nil_notMem_fields
    have hreferences' := names_of_spellsSetting hreferences description.nil_notMem_references
    have hlabel' := label_of_spellsSetting hlabel
    rw [ofEntry, hcall]
    simp only [hhelper, htable, config?, hsettings, Expr.properties?]
    exact ⟨_, rfl, asDescribed_refined rules h.key_eq rfl hfields' hreferences' hlabel'⟩

/-- An entry that calls no helper with a target is no relation. -/
theorem exists_error_of_not_callsHelper (h : ¬ CallsHelper entry) :
    ∃ cause, ofEntry rules entry = .error cause := by
  unfold ofEntry
  split
  · next x y helper arguments hcall =>
    split
    · exact ⟨_, rfl⟩
    · next tentative htentative =>
      obtain ⟨helper, rfl, -⟩ := RelationHelper.ofHelper?_eq_some_iff.mp htentative
      split
      · exact ⟨_, rfl⟩
      · next target rest =>
        split
        · exact ⟨_, rfl⟩
        · next table htable =>
          exact absurd ⟨x, y, target, rest, table, helper, hcall, target?_eq_some_iff.mp htable⟩ h
  · exact ⟨_, rfl⟩

/-- The entries of a mapping are read as the relations that they spell. -/
theorem exists_filterMap_of_spells {descriptions : List RelationDescription} {entries : List Entry}
    (h : SpellsRelations descriptions entries) :
    ∃ relations, entries.filterMap (fun e => (ofEntry rules e).toOption) = relations ∧
      List.Forall₂ (AsDescribed rules) descriptions relations := by
  induction h with
  | nil => exact ⟨[], rfl, .nil⟩
  | relation h _ ih =>
    obtain ⟨r, hread, hr⟩ := exists_ofEntry_of_spells rules h
    obtain ⟨relations, hrest, hrelations⟩ := ih
    refine ⟨r :: relations, ?_, .cons hr hrelations⟩
    rw [List.filterMap_cons_some (by rw [hread]; rfl), hrest]
  | other h _ ih =>
    obtain ⟨cause, hcause⟩ := exists_error_of_not_callsHelper rules h
    obtain ⟨relations, hrest, hrelations⟩ := ih
    refine ⟨relations, ?_, hrelations⟩
    rw [List.filterMap_cons_none (by rw [hcause]; rfl), hrest]

/-- A spelling of the relations of a table in a declaration. -/
structure SpellsDeclaration (rules : DeclarationRules) (owner : Text)
    (descriptions : List RelationDescription) (d : Declaration) : Prop where
  name_eq : d.name = owner ++ rules.relationsSuffix
  exists_mapping : ∃ table callback rest x parameters body y entries,
    d.arguments? = some (table :: callback :: rest) ∧
      callback.unwrap = .function x parameters body ∧ body.Yields (.object y entries) ∧
      SpellsRelations descriptions entries

theorem owner?_append {owner : Text} (rules : DeclarationRules) (h : owner ≠ []) :
    owner? rules (owner ++ rules.relationsSuffix) = some owner := by
  have hlength : owner.length ≠ 0 := fun h' => h (List.length_eq_zero_iff.mp h')
  simp [owner?, Text.endsWith, Text.dropEnd, hlength]

/-- Relations are read back from every spelling of their declaration: the table and, in their order,
exactly the relations that are described. -/
theorem ofDeclaration_of_spells {declarations : DeclarationRules} {owner : Text}
    {descriptions : List RelationDescription} {d : Declaration} (howner : owner ≠ [])
    (h : SpellsDeclaration declarations owner descriptions d) (rules : HeuristicRules) :
    ∃ relations, (ofDeclaration declarations rules d).outcome = .ok (.ok (owner, relations)) ∧
      List.Forall₂ (AsDescribed rules) descriptions relations := by
  obtain ⟨table, callback, rest, x, parameters, body, y, entries, harguments, hcallback, hbody,
    hentries⟩ := h.exists_mapping
  have hresult := hbody.result?_eq (by simp)
  have hmapping : mapping declarations d = .ok (owner, entries) := by
    rw [mapping, h.name_eq, owner?_append declarations howner, harguments]
    simp only [hcallback, hresult]
  obtain ⟨relations, hread, hrelations⟩ := exists_filterMap_of_spells rules hentries
  refine ⟨relations, ?_, hrelations⟩
  rw [ofDeclaration, hmapping]
  simp only [Trace.outcome_map, outcome_ofEntries, hread, Except.map_ok]

/-- Many posts, and a manager who is found by one field that refers to none. -/
def userDescriptions : List RelationDescription := [
  { key := "posts", helper := .many, target := "posts"
    nil_notMem_fields := by simp
    nil_notMem_references := by simp },
  { key := "manager", helper := .one, target := "users"
    fields := some ["manager_id"]
    references := some []
    relationName := some "reports"
    nil_notMem_fields := by simp [Text.ofString]
    nil_notMem_references := by simp }]

/-- The same relations in a block, with an entry between them that is none. -/
def userRelations : Declaration where
  name := "usersRelations"
  initializer := some (.call default (.identifier default "relations") [
    .identifier default "users",
    .function default [] (.block default [.returned default (some (.object default [
      ⟨default, "posts", .call default (.identifier default "many")
        [.identifier default "posts"], []⟩,
      ⟨default, "note", .string default "none", []⟩,
      ⟨default, "manager", .call default (.identifier default "one") [
        .function default [] (.parenthesized default
          (.memberAccess default (.identifier default "schema") "users")),
        .object default [
          ⟨default, "fields", .array default [.string default "manager_id"], []⟩,
          ⟨default, "references", .array default [], []⟩,
          ⟨default, "relationName", .string default "reports", []⟩]], []⟩]))])])
  exported := true
  line := 1

theorem spellsDeclaration_userRelations :
    SpellsDeclaration {} "users" userDescriptions userRelations where
  name_eq := rfl
  exists_mapping := by
    refine ⟨_, _, _, _, _, _, _, _, rfl, rfl, .of_returned .., .relation ?_ (.other ?_
      (.relation ?_ .nil))⟩
    · exact ⟨rfl, _, _, _, rfl, .bare (.direct (.identifier _)) rfl rfl rfl⟩
    · rintro ⟨x, y, target, rest, table, helper, hcall, -⟩
      cases hcall
    · refine ⟨rfl, _, _, _, rfl, .configured _ _ ?_ rfl ?_ ?_ ?_⟩
      · exact .returned _ rfl (.expression rfl) (.member _ _)
      · exact @SpellsSetting.given _ _ _ _ [] _ _ rfl (by decide)
          ⟨_, _, rfl, .cons (.string _ rfl) .nil⟩
      · exact @SpellsSetting.given _ _ _ _ [_] _ _ rfl (by decide) ⟨_, _, rfl, .nil⟩
      · exact @SpellsSetting.given _ _ _ _ [_, _] _ _ rfl (by decide) ⟨_, rfl⟩

/-- A relation to many posts, and one to a manager with an empty list of references. -/
theorem ofDeclaration_of_spells_userRelations :
    ∃ posts manager, (ofDeclaration {} {} userRelations).outcome =
        .ok (.ok ("users", [posts, manager])) ∧
      posts.type = .oneToMany ∧ manager.type = .manyToOne ∧ manager.references = some [] := by
  obtain ⟨relations, hread, hrelations⟩ :=
    ofDeclaration_of_spells (by decide) spellsDeclaration_userRelations {}
  cases hrelations with
  | cons hposts hrest =>
    cases hrest with
    | cons hmanager hnil =>
      cases hnil
      refine ⟨_, _, hread, ?_, ?_, hmanager.references_eq⟩
      · exact hposts.type_of_helper (by decide +kernel) (by decide)
      · exact hmanager.type_of_keys (by decide +kernel) (by decide)

end Relation
end SchemaAtlas
