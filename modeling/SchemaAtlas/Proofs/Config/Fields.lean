import SchemaAtlas.Proofs.Config.Form

/-!
# The fields of configurations

Configurations and their parts are records: each field with its name, its form and its default. So
they are written out, and what is known of a plain value to those who read configurations is what
stands under the names of fields. The results of validation are exactly the sound configurations.
-/

namespace SchemaAtlas

open Checked Value

theorem Value.checkFields_eq_valid {α : Type} {check : List (Value × Value) → Checked α} {v : Value}
    {a : α} : checkFields check v = .valid a ↔
      ∃ entries, v = .map entries ∧ check entries = .valid a := by
  cases v <;> simp [checkFields]

def Options.record : Record Options where
  fields := [
    { name := "include_comments", form := .flag, get := (·.includeComments) },
    { name := "classify_entities", form := .flag, get := (·.classifyEntities) },
    { name := "detect_audit_columns", form := .flag, get := (·.detectAuditColumns) },
    { name := "extract_relations", form := .flag, get := (·.extractRelations) },
    { name := "resolve_many_to_many", form := .flag, get := (·.resolveManyToMany) }]
  base := {}
  check := Options.ofValue
  nodup_names := by decide
  meets_base := by simp
  check_eq_valid_iff := by
    simp only [Options.ofValue, checkFields_eq_valid]
    refine exists_congr fun entries => and_congr_right fun _ => ?_
    -- the fields are applied one after the other, so they are taken apart from the outside in
    simp only [↓ap_eq_valid, ↓exists_ap_eq_valid, ↓exists_map_eq_valid]
    simp only [List.forall_mem_cons, Field.read_optional, Form.check_flag]
    constructor
    · rintro ⟨_, hcomments, _, hclassify, _, haudit, _, hextract, _, hresolve, rfl⟩
      exact ⟨⟨hcomments, hclassify, haudit, hextract, hresolve, List.forall_mem_nil _⟩, trivial⟩
    · rintro ⟨⟨hcomments, hclassify, haudit, hextract, hresolve, -⟩, -⟩
      exact ⟨_, hcomments, _, hclassify, _, haudit, _, hextract, _, hresolve, rfl⟩
  check_congr h := by
    simp only [List.forall_mem_cons, Field.read_optional, Form.check_flag] at h
    simp only [Options.ofValue, checkFields, h]
  mem_problems := by
    simp +contextual [Field.read_optional, Options.ofValue, checkFields]

@[simp] theorem Options.check_form : record.form.check = ofValue := rfl

@[simp] theorem Options.meets_form (options : Options) : record.form.Meets options := by
  simp [Record.meets_form, record]

/-- What the rules for declarations have to meet: at least one dialect, and no blank where a marker
is needed. -/
structure DeclarationRules.Sound (rules : DeclarationRules) : Prop where
  tableBuilderMarker : rules.tableBuilderMarker.isBlank = false
  dialectMarkers : rules.dialectMarkers ≠ []
  relationHelper : rules.relationHelper.isBlank = false
  relationsSuffix : rules.relationsSuffix.isBlank = false

theorem DeclarationRules.sound_default : Sound {} := by
  constructor <;> decide

def DeclarationRules.record : Record DeclarationRules where
  fields := [
    { name := "table_builder_marker", form := .marker, get := (·.tableBuilderMarker) },
    { name := "enum_builder_marker", form := .text, get := (·.enumBuilderMarker) },
    { name := "dialect_markers", form := .dialects, get := (·.dialectMarkers) },
    { name := "relation_helper", form := .marker, get := (·.relationHelper) },
    { name := "relations_suffix", form := .marker, get := (·.relationsSuffix) }]
  base := {}
  check := DeclarationRules.ofValue
  nodup_names := by decide
  meets_base := by
    obtain ⟨htable, hdialects, hhelper, hsuffix⟩ := DeclarationRules.sound_default
    simp only [List.forall_mem_cons, Form.meets_marker, Form.meets_text, Form.meets_dialects]
    exact ⟨fun _ => htable, fun _ => trivial, fun _ => hdialects, fun _ => hhelper,
      fun _ => hsuffix, List.forall_mem_nil _⟩
  check_eq_valid_iff := by
    simp only [DeclarationRules.ofValue, checkFields_eq_valid]
    refine exists_congr fun entries => and_congr_right fun _ => ?_
    simp only [↓ap_eq_valid, ↓exists_ap_eq_valid, ↓exists_map_eq_valid]
    simp only [List.forall_mem_cons, Field.read_optional, Form.check_text, Form.check_marker,
      Form.check_dialects]
    constructor
    · rintro ⟨_, htable, _, henum, _, hdialects, _, hhelper, _, hsuffix, rfl⟩
      exact ⟨⟨htable, henum, hdialects, hhelper, hsuffix, List.forall_mem_nil _⟩, trivial⟩
    · rintro ⟨⟨htable, henum, hdialects, hhelper, hsuffix, -⟩, -⟩
      exact ⟨_, htable, _, henum, _, hdialects, _, hhelper, _, hsuffix, rfl⟩
  check_congr h := by
    simp only [List.forall_mem_cons, Field.read_optional, Form.check_text, Form.check_marker,
      Form.check_dialects] at h
    simp only [DeclarationRules.ofValue, checkFields, h]
  mem_problems := by
    simp +contextual [Field.read_optional, DeclarationRules.ofValue, checkFields]

@[simp] theorem DeclarationRules.check_form : record.form.check = ofValue := rfl

@[simp] theorem DeclarationRules.meets_form {rules : DeclarationRules} :
    record.form.Meets rules ↔ rules.Sound := by
  simp only [Record.meets_form, record, List.forall_mem_cons, Form.meets_marker, Form.meets_text,
    Form.meets_dialects]
  constructor
  · rintro ⟨⟨htable, -, hdialects, hhelper, hsuffix, -⟩, -⟩
    exact ⟨htable, hdialects, hhelper, hsuffix⟩
  · rintro ⟨htable, hdialects, hhelper, hsuffix⟩
    exact ⟨⟨htable, trivial, hdialects, hhelper, hsuffix, List.forall_mem_nil _⟩, trivial⟩

def AuditRule.HasMatcher (rule : AuditRule) : Prop := rule.containsAll ≠ [] ∨ rule.exact ≠ []

instance (rule : AuditRule) : Decidable rule.HasMatcher :=
  inferInstanceAs (Decidable (rule.containsAll ≠ [] ∨ rule.exact ≠ []))

def AuditRule.record : Record AuditRule where
  fields := [
    { name := "role", form := .role, get := (·.role), required := true },
    { name := "contains_all", form := .texts, get := (·.containsAll) },
    { name := "exact", form := .texts, get := (·.exact) }]
  base := { role := .version }
  check := AuditRule.ofValue
  Holds := AuditRule.HasMatcher
  nodup_names := by decide
  meets_base := by simp
  check_eq_valid_iff := by
    simp only [AuditRule.ofValue, checkFields_eq_valid]
    refine exists_congr fun entries => and_congr_right fun _ => ?_
    simp only [↓andThen_eq_valid, ↓exists_ap_eq_valid, ↓exists_map_eq_valid]
    simp only [List.forall_mem_cons, Field.read_optional, Field.read_required, Form.check_role,
      Form.check_texts]
    constructor
    · rintro ⟨_, hrole, _, hparts, _, hexact, h⟩
      split at h
      · exact absurd h (complain_ne_valid _ _)
      · next hmatcher =>
        cases h
        refine ⟨⟨hrole, hparts, hexact, List.forall_mem_nil _⟩, ?_⟩
        simpa [AuditRule.HasMatcher, or_iff_not_imp_left] using hmatcher
    · rintro ⟨⟨hrole, hparts, hexact, -⟩, hmatcher⟩
      refine ⟨_, hrole, _, hparts, _, hexact, if_neg ?_⟩
      simpa [AuditRule.HasMatcher, or_iff_not_imp_left] using hmatcher
  check_congr h := by
    simp only [List.forall_mem_cons, Field.read_optional, Field.read_required, Form.check_role,
      Form.check_texts] at h
    simp only [AuditRule.ofValue, checkFields, h]
  mem_problems := by
    intro entries p f hf hp
    refine mem_problems_andThen ?_
    revert f
    simp +contextual [Field.read_optional, Field.read_required]

@[simp] theorem AuditRule.check_form : record.form.check = ofValue := rfl

@[simp] theorem AuditRule.meets_form {rule : AuditRule} :
    record.form.Meets rule ↔ rule.HasMatcher := by
  simp [Record.meets_form, record]

/-- What the heuristic rules have to meet: no empty marker or suffix, the suffix in lower case,
limits of at least one, and audit rules that can match. -/
structure HeuristicRules.Sound (rules : HeuristicRules) : Prop where
  markers : ∀ markers ∈ [rules.junctionMarkers, rules.auditNameMarkers,
    rules.referenceColumnMarkers, rules.referenceNameMarkers, rules.selfReferenceMarkers],
      [] ∉ markers
  idSuffix : rules.idSuffix ≠ [] ∧ rules.idSuffix.lower = rules.idSuffix
  limits : ∀ limit ∈ [rules.junctionMaxColumns, rules.minJunctionIdColumns,
    rules.associationMinForeignKeys, rules.referenceMaxColumns], 1 ≤ limit
  auditColumns : ∀ rule ∈ rules.auditColumns, rule.HasMatcher

theorem HeuristicRules.sound_default : Sound {} where
  markers := by decide
  idSuffix := by decide +kernel
  limits := by decide
  auditColumns := by decide

def HeuristicRules.record : Record HeuristicRules where
  fields := [
    { name := "junction_markers", form := .markers, get := (·.junctionMarkers) },
    { name := "id_suffix", form := .suffix, get := (·.idSuffix) },
    { name := "junction_max_columns", form := .positive, get := (·.junctionMaxColumns) },
    { name := "min_junction_id_columns", form := .positive, get := (·.minJunctionIdColumns) },
    { name := "association_min_foreign_keys", form := .positive,
      get := (·.associationMinForeignKeys) },
    { name := "audit_name_markers", form := .markers, get := (·.auditNameMarkers) },
    { name := "reference_max_columns", form := .positive, get := (·.referenceMaxColumns) },
    { name := "reference_column_markers", form := .markers, get := (·.referenceColumnMarkers) },
    { name := "reference_name_markers", form := .markers, get := (·.referenceNameMarkers) },
    { name := "self_reference_markers", form := .markers, get := (·.selfReferenceMarkers) },
    { name := "audit_columns", form := .listOf AuditRule.record.form, get := (·.auditColumns) }]
  base := {}
  check := HeuristicRules.ofValue
  nodup_names := by decide
  meets_base := by
    obtain ⟨hmarkers, hsuffix, hlimits, hrules⟩ := HeuristicRules.sound_default
    simp only [List.forall_mem_cons] at hmarkers hlimits
    simp only [List.forall_mem_cons, Form.meets_markers, Form.meets_suffix, Form.meets_positive,
      Form.meets_listOf, AuditRule.meets_form]
    exact ⟨fun _ => hmarkers.1, fun _ => hsuffix, fun _ => hlimits.1, fun _ => hlimits.2.1,
      fun _ => hlimits.2.2.1, fun _ => hmarkers.2.1, fun _ => hlimits.2.2.2.1,
      fun _ => hmarkers.2.2.1, fun _ => hmarkers.2.2.2.1, fun _ => hmarkers.2.2.2.2.1,
      fun _ => hrules, List.forall_mem_nil _⟩
  check_eq_valid_iff := by
    simp only [HeuristicRules.ofValue, checkFields_eq_valid]
    refine exists_congr fun entries => and_congr_right fun _ => ?_
    simp only [↓ap_eq_valid, ↓exists_ap_eq_valid, ↓exists_map_eq_valid]
    simp only [List.forall_mem_cons, Field.read_optional, Form.check_markers, Form.check_suffix,
      Form.check_positive, Form.check_listOf, AuditRule.check_form]
    constructor
    · rintro ⟨_, hjunction, _, hsuffix, _, hmaxColumns, _, hminIds, _, hminKeys, _, haudit,
        _, hreferenceMax, _, hcolumnMarkers, _, hnameMarkers, _, hself, _, hrules, rfl⟩
      exact ⟨⟨hjunction, hsuffix, hmaxColumns, hminIds, hminKeys, haudit, hreferenceMax,
        hcolumnMarkers, hnameMarkers, hself, hrules, List.forall_mem_nil _⟩, trivial⟩
    · rintro ⟨⟨hjunction, hsuffix, hmaxColumns, hminIds, hminKeys, haudit, hreferenceMax,
        hcolumnMarkers, hnameMarkers, hself, hrules, -⟩, -⟩
      exact ⟨_, hjunction, _, hsuffix, _, hmaxColumns, _, hminIds, _, hminKeys, _, haudit,
        _, hreferenceMax, _, hcolumnMarkers, _, hnameMarkers, _, hself, _, hrules, rfl⟩
  check_congr h := by
    simp only [List.forall_mem_cons, Field.read_optional, Form.check_markers, Form.check_suffix,
      Form.check_positive, Form.check_listOf, AuditRule.check_form] at h
    simp only [HeuristicRules.ofValue, checkFields, h]
  mem_problems := by
    simp +contextual [Field.read_optional, HeuristicRules.ofValue, checkFields]

@[simp] theorem HeuristicRules.check_form : record.form.check = ofValue := rfl

@[simp] theorem HeuristicRules.meets_form {rules : HeuristicRules} :
    record.form.Meets rules ↔ rules.Sound := by
  rw [Record.meets_form]
  simp only [record, List.forall_mem_cons, Form.meets_markers, Form.meets_suffix,
    Form.meets_positive, Form.meets_listOf, AuditRule.meets_form]
  constructor
  · rintro ⟨⟨hjunction, hsuffix, hmaxColumns, hminIds, hminKeys, haudit, hreferenceMax,
      hcolumnMarkers, hnameMarkers, hself, hrules, -⟩, -⟩
    exact ⟨by simp [hjunction, haudit, hcolumnMarkers, hnameMarkers, hself], hsuffix,
      by simp [hmaxColumns, hminIds, hminKeys, hreferenceMax], hrules⟩
  · rintro ⟨hmarkers, hsuffix, hlimits, hrules⟩
    simp only [List.forall_mem_cons] at hmarkers hlimits
    exact ⟨⟨hmarkers.1, hsuffix, hlimits.1, hlimits.2.1, hlimits.2.2.1, hmarkers.2.1,
      hlimits.2.2.2.1, hmarkers.2.2.1, hmarkers.2.2.2.1, hmarkers.2.2.2.2.1, hrules,
      List.forall_mem_nil _⟩, trivial⟩

/-- What a configuration has to meet. -/
structure Config.Sound (c : Config) : Prop where
  declarations : c.declarations.Sound
  heuristics : c.heuristics.Sound

def Config.record : Record Config where
  fields := [
    { name := "options", form := Options.record.form, get := (·.options) },
    { name := "declarations", form := DeclarationRules.record.form, get := (·.declarations) },
    { name := "heuristics", form := HeuristicRules.record.form, get := (·.heuristics) }]
  base := {}
  check := Config.ofValue
  nodup_names := by decide
  meets_base := by
    simp [DeclarationRules.sound_default, HeuristicRules.sound_default]
  check_eq_valid_iff := by
    simp only [Config.ofValue, checkFields_eq_valid]
    refine exists_congr fun entries => and_congr_right fun _ => ?_
    simp only [↓ap_eq_valid, ↓exists_ap_eq_valid, ↓exists_map_eq_valid]
    simp only [List.forall_mem_cons, Field.read_optional]
    constructor
    · rintro ⟨_, hoptions, _, hdeclarations, _, hheuristics, rfl⟩
      exact ⟨⟨hoptions, hdeclarations, hheuristics, List.forall_mem_nil _⟩, trivial⟩
    · rintro ⟨⟨hoptions, hdeclarations, hheuristics, -⟩, -⟩
      exact ⟨_, hoptions, _, hdeclarations, _, hheuristics, rfl⟩
  check_congr h := by
    simp only [List.forall_mem_cons, Field.read_optional, Options.check_form,
      DeclarationRules.check_form, HeuristicRules.check_form] at h
    simp only [Config.ofValue, checkFields, h]
  mem_problems := by
    simp +contextual [Field.read_optional, Config.ofValue, checkFields]

namespace Config

@[simp] theorem check_form : record.form.check = ofValue := rfl

@[simp] theorem meets_form {c : Config} : record.form.Meets c ↔ c.Sound := by
  rw [Record.meets_form]
  simp only [record, List.forall_mem_cons, Options.meets_form, DeclarationRules.meets_form,
    HeuristicRules.meets_form]
  constructor
  · rintro ⟨⟨-, hdeclarations, hheuristics, -⟩, -⟩
    exact ⟨hdeclarations, hheuristics⟩
  · rintro ⟨hdeclarations, hheuristics⟩
    exact ⟨⟨trivial, hdeclarations, hheuristics, List.forall_mem_nil _⟩, trivial⟩

/-- The plain value of a configuration, with all its settings. -/
def toValue (c : Config) : Value := record.form.write c

/-- What is left of a plain value without the entries that name no setting. -/
def known (v : Value) : Value := record.form.known v

/-- Validation gives sound configurations. -/
theorem sound_of_ofValue {v : Value} {c : Config} (h : ofValue v = .valid c) : c.Sound :=
  meets_form.mp (record.form.meets_of_check h)

/-- A sound configuration is the configuration that its plain value is validated to. -/
theorem ofValue_toValue {c : Config} (h : c.Sound) : ofValue c.toValue = .valid c :=
  record.form.check_write (meets_form.mpr h)

/-- Entries that name no setting do not count. -/
theorem ofValue_known (v : Value) : ofValue (known v) = ofValue v := record.form.check_known v

example : known (.record [("options", .record [("verbose", .null)]), ("extra", .list [])]) =
    .record [("options", .record [])] := by rfl

end Config
end SchemaAtlas
