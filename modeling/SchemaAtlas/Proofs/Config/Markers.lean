import SchemaAtlas.Declaration.Kind
import SchemaAtlas.Proofs.Config.Fields
import SchemaAtlas.Proofs.Entity.AuditRoles

/-!
# Markers that occur in every name

Only the empty text occurs in every name. Validation lets no marker be empty, but for those of the
dialects and the parts of audit rules.
-/

namespace SchemaAtlas

open Checked Value

theorem Text.occursIn_eq_false_iff {part t : Text} : part.occursIn t = false ↔ ¬ part <:+: t := by
  rw [← Bool.not_eq_true, Text.occursIn_iff]

/-- A text that is not empty does not occur in a name of one digit, over and over. -/
theorem Text.exists_digits {part : Text} (h : part ≠ []) (n : Nat) :
    ∃ name : Text, name.length = n + 1 ∧ name.lower = name ∧ part.occursIn name = false := by
  obtain ⟨c, rest, rfl⟩ := List.exists_cons_of_ne_nil h
  obtain ⟨digit, hdigit, hc⟩ : ∃ digit : CodePoint, digit.IsLowered ∧ c ≠ digit := by
    by_cases hzero : c = 0x30
    · exact ⟨0x31, by decide +kernel, by rw [hzero]; decide⟩
    · exact ⟨0x30, by decide +kernel, hzero⟩
  refine ⟨List.replicate (n + 1) digit, List.length_replicate, ?_, ?_⟩
  · exact Text.lower_eq_self fun d hd => List.eq_of_mem_replicate hd ▸ hdigit
  · rw [Text.occursIn_eq_false_iff]
    exact fun hoccurs => hc (List.eq_of_mem_replicate (hoccurs.mem (.head _)))

namespace EntityType

variable {markers : List Text}

theorem marked_eq_false_iff {t : Text} :
    marked markers t = false ↔ ∀ marker ∈ markers, marker.occursIn t = false := by
  simp [marked]

/-- Markers leave the empty name out if none of them is empty. -/
theorem marked_nil_eq_false_iff : marked markers [] = false ↔ [] ∉ markers := by
  simp only [marked_eq_false_iff, Text.occursIn_eq_false_iff, List.infix_nil]
  exact ⟨fun h hmem => h [] hmem rfl, fun h marker hmarker hnil => h (hnil ▸ hmarker)⟩

/-- Markers that leave out any name leave out the empty one. -/
theorem exists_marked_eq_false_iff : (∃ name, marked markers name = false) ↔ [] ∉ markers := by
  refine ⟨?_, fun h => ⟨[], marked_nil_eq_false_iff.mpr h⟩⟩
  rintro ⟨name, hname⟩ hmem
  exact Text.occursIn_eq_false_iff.mp (marked_eq_false_iff.mp hname [] hmem) List.nil_infix

end EntityType

/-- Some names are without a marker of junctions unless the empty text is one. -/
theorem HeuristicRules.exists_hasJunctionMarker_eq_false_iff {rules : HeuristicRules} :
    (∃ name tableName, rules.hasJunctionMarker [name, tableName] = false) ↔
      [] ∉ rules.junctionMarkers := by
  simp only [← Bool.not_eq_true, hasJunctionMarker_iff, not_exists, not_and]
  constructor
  · rintro ⟨name, tableName, h⟩ hmem
    exact h [] hmem name (.head _) (Text.lower_eq_nil_iff.mpr rfl ▸ List.nil_infix)
  · refine fun h => ⟨[], [], fun marker hmarker name hname hoccurs => h ?_⟩
    have hnil : name = [] := by simpa using hname
    rw [hnil, Text.lower_eq_nil_iff.mpr rfl, List.infix_nil, Text.lower_eq_nil_iff] at hoccurs
    exact hoccurs ▸ hmarker

/-- An audit rule leaves a column out if it has no parts, or one that is not empty. -/
theorem AuditRule.exists_applies_eq_false_iff {rule : AuditRule} :
    (∃ column ≠ [], rule.applies column = false) ↔
      rule.containsAll = [] ∨ ∃ part ∈ rule.containsAll, part ≠ [] := by
  simp only [← Bool.not_eq_true, applies_iff, Matches, not_or, not_and]
  constructor
  · rintro ⟨column, -, -, hparts⟩
    by_cases hnone : rule.containsAll = []
    · exact .inl hnone
    · by_contra hempty
      simp only [hnone, false_or, not_exists, not_and, not_not] at hempty
      exact hparts hnone fun part hpart => hempty part hpart ▸ List.nil_infix
  · intro h
    -- the name is longer than all those that are matched as a whole
    obtain ⟨part, hpart, hmisses⟩ : ∃ part : Text, part ≠ [] ∧
        (rule.containsAll = [] ∨ part ∈ rule.containsAll) := by
      rcases h with hnone | ⟨part, hmem, hpart⟩
      · exact ⟨[space], List.cons_ne_nil _ _, .inl hnone⟩
      · exact ⟨part, hpart, .inr hmem⟩
    obtain ⟨column, hlength, hlower, hnot⟩ :=
      Text.exists_digits hpart rule.exact.flatten.length
    rw [Text.occursIn_eq_false_iff] at hnot
    refine ⟨column, List.ne_nil_of_length_eq_add_one hlength, fun hexact => ?_,
      fun hsome hall => ?_⟩
    · have hle := (List.sublist_flatten_of_mem hexact).length_le
      rw [hlower] at hle
      omega
    · exact hnot (hlower ▸ hall part (hmisses.resolve_left hsome))

namespace Config

open EntityType

/-- Which tests for markers leave a name out; and each marker of a list leaves out a name that is
not empty. -/
structure Selective (c : Config) : Prop where
  tableBuilderMarker : ∃ callee ≠ [], c.declarations.tableBuilderMarker.occursIn callee = false
  dialectMarkers : (∃ callee, marked c.declarations.dialectMarkers callee = false) ↔
    [] ∉ c.declarations.dialectMarkers
  junctionMarkers : ∃ name tableName, c.heuristics.hasJunctionMarker [name, tableName] = false
  auditNameMarkers : ∃ name : Text, marked c.heuristics.auditNameMarkers name.lower = false
  referenceColumnMarkers : ∃ column, marked c.heuristics.referenceColumnMarkers column = false
  referenceNameMarkers : ∃ name : Text, marked c.heuristics.referenceNameMarkers name.lower = false
  selfReferenceMarkers :
    ∃ label : Text, marked c.heuristics.selfReferenceMarkers label.lower = false
  auditColumns : ∀ rule ∈ c.heuristics.auditColumns,
    (∃ column ≠ [], rule.applies column = false) ↔
      rule.containsAll = [] ∨ ∃ part ∈ rule.containsAll, part ≠ []
  marker : ∀ markers ∈ [c.heuristics.junctionMarkers, c.heuristics.auditNameMarkers,
    c.heuristics.referenceColumnMarkers, c.heuristics.referenceNameMarkers,
    c.heuristics.selfReferenceMarkers], ∀ marker ∈ markers, ∀ part ∈ [marker, marker.lower],
      ∃ name : Text, name ≠ [] ∧ name.lower = name ∧ part.occursIn name = false

def Rejects (v : Value) (place : List PlaceStep) (objection : Objection) : Prop :=
  ∃ problems, ofValue v = .invalid problems ∧ ⟨place, .valueError objection⟩ ∈ problems

/-- Which markers are rejected since they would mark every name. -/
structure Refuses (v : Value) : Prop where
  tableBuilderMarker : ∀ marker,
    v.at? [.key "declarations", .key "table_builder_marker"] = some (.text marker) →
      (∀ callee, marker.occursIn callee) →
        Rejects v [.key "declarations", .key "table_builder_marker"] .markerBlank
  junctionMarkers : ∀ markers,
    v.at? [.key "heuristics", .key "junction_markers"] = some (.list (markers.map .text)) →
      (∀ name tableName, HeuristicRules.hasJunctionMarker { junctionMarkers := markers }
        [name, tableName]) →
        Rejects v [.key "heuristics", .key "junction_markers"] .markerEmpty
  markers : ∀ field ∈ (["audit_name_markers", "reference_column_markers", "reference_name_markers",
    "self_reference_markers"] : List Text), ∀ markers,
      v.at? [.key "heuristics", .key field] = some (.list (markers.map .text)) →
        (∀ name : Text, marked markers name.lower) →
          Rejects v [.key "heuristics", .key field] .markerEmpty

variable {v : Value} {c : Config}

/-- The markers and rules of a sound configuration each leave something out. -/
theorem selective_of_sound (h : c.Sound) : c.Selective := by
  have hsome : c.declarations.tableBuilderMarker ≠ [] := fun hnil => by
    have hblank := h.declarations.tableBuilderMarker
    rw [hnil] at hblank
    cases hblank
  have hmarkers := h.heuristics.markers
  have hmarked := hmarkers
  simp only [List.forall_mem_cons, ← marked_nil_eq_false_iff] at hmarked
  obtain ⟨-, haudit, hcolumn, hreference, hself, -⟩ := hmarked
  obtain ⟨callee, hcallee, -, htable⟩ := Text.exists_digits hsome 0
  refine
    { tableBuilderMarker := ⟨callee, List.ne_nil_of_length_eq_add_one hcallee, htable⟩
      dialectMarkers := exists_marked_eq_false_iff
      junctionMarkers :=
        HeuristicRules.exists_hasJunctionMarker_eq_false_iff.mpr (hmarkers _ (.head _))
      auditNameMarkers := ⟨[], haudit⟩
      referenceColumnMarkers := ⟨[], hcolumn⟩
      referenceNameMarkers := ⟨[], hreference⟩
      selfReferenceMarkers := ⟨[], hself⟩
      auditColumns := fun rule _ => AuditRule.exists_applies_eq_false_iff
      marker := ?_ }
  intro markers hlist marker hmarker part hpart
  have hfull : part ≠ [] := by
    rintro rfl
    have hnil : marker = [] := by
      rcases List.mem_pair.mp hpart with hnil | hnil
      · exact hnil.symm
      · exact Text.lower_eq_nil_iff.mp hnil.symm
    exact hmarkers markers hlist (hnil ▸ hmarker)
  obtain ⟨name, hlength, hlower, hnot⟩ := Text.exists_digits hfull 0
  exact ⟨name, List.ne_nil_of_length_eq_add_one hlength, hlower, hnot⟩

/-- An empty marker in a list of the heuristic rules is objected to. -/
theorem rejects_of_mem {name : Text} {get : HeuristicRules → List Text} {markers : List Text}
    (hf : { name, form := .markers, get } ∈ HeuristicRules.record.fields)
    (hgiven : v.at? [.key "heuristics", .key name] = some (.list (markers.map .text)))
    (h : [] ∈ markers) : Rejects v [.key "heuristics", .key name] .markerEmpty := by
  refine exists_invalid_of_mem_problems (record.mem_problems_of_given_within
    (p := ⟨[], .valueError .markerEmpty⟩) rfl (.tail _ (.tail _ (.head _))) hf hgiven ?_)
  have htexts : checkTexts (.list (markers.map .text)) = .valid markers :=
    Form.texts.check_write fun _ _ => trivial
  have hany : markers.any List.isEmpty = true := List.any_eq_true.mpr ⟨[], h, rfl⟩
  simp only [Form.check_markers, checkMarkers, htexts, andThen, hany, if_true]
  exact .head _

/-- Markers that would match everything are rejected in their place. -/
theorem refuses (v : Value) : Refuses v where
  tableBuilderMarker marker hgiven hmatches := by
    have hnil : marker = [] := by
      have hmatch := hmatches []
      rwa [Text.occursIn_iff, List.infix_nil] at hmatch
    subst hnil
    refine exists_invalid_of_mem_problems (record.mem_problems_of_given_within
      (p := ⟨[], .valueError .markerBlank⟩) rfl (.tail _ (.head _)) (.head _) hgiven ?_)
    exact .head _
  junctionMarkers markers hgiven hmatches := by
    refine rejects_of_mem (List.mem_of_getElem? (i := 0) rfl) hgiven ?_
    by_contra hfull
    obtain ⟨name, tableName, h⟩ : ∃ name tableName,
        HeuristicRules.hasJunctionMarker { junctionMarkers := markers } [name, tableName] = false :=
      HeuristicRules.exists_hasJunctionMarker_eq_false_iff.mpr hfull
    exact Bool.false_ne_true (h.symm.trans (hmatches name tableName))
  markers := by
    have hmem : ∀ {markers : List Text}, (∀ name : Text, marked markers name.lower) →
        [] ∈ markers := fun hmatches => by
      by_contra hfull
      exact Bool.false_ne_true ((marked_nil_eq_false_iff.mpr hfull).symm.trans (hmatches []))
    simp only [List.forall_mem_cons]
    exact ⟨fun _ hgiven h => rejects_of_mem (List.mem_of_getElem? (i := 5) rfl) hgiven (hmem h),
      fun _ hgiven h => rejects_of_mem (List.mem_of_getElem? (i := 7) rfl) hgiven (hmem h),
      fun _ hgiven h => rejects_of_mem (List.mem_of_getElem? (i := 8) rfl) hgiven (hmem h),
      fun _ hgiven h => rejects_of_mem (List.mem_of_getElem? (i := 9) rfl) hgiven (hmem h),
      List.forall_mem_nil _⟩

/-- A configuration that is validated has no marker for names, and no list of them, that marks every
name, except that the markers of dialects mark every callee iff one of them is empty, and an audit
rule with parts applies to every column iff all of them are empty. A marker or list of markers for
names that would mark every name is rejected. -/
theorem selective_and_refuses (v : Value) :
    (∀ c, ofValue v = .valid c → c.Selective) ∧ Refuses v :=
  ⟨fun _ h => selective_of_sound (sound_of_ofValue h), refuses v⟩

def partlyEmptyValue : Value := .record [("heuristics", .record [
  ("audit_columns", .list [.record [
    ("role", .text "version"), ("contains_all", .list [.text "", .text "rev"])]])])]

def emptyMarkerValue : Value := .record [("heuristics", .record [
  ("junction_markers", .list [.text "to", .text ""])])]

/-- A rule with an empty part among others, and a configuration with an empty marker. -/
theorem selective_partlyEmptyValue_and_refuses_emptyMarkerValue :
    (∃ column ≠ [],
      AuditRule.applies { role := .version, containsAll := ["", "rev"] } column = false) ∧
      Rejects emptyMarkerValue [.key "heuristics", .key "junction_markers"] .markerEmpty := by
  have hvalid : ofValue partlyEmptyValue = .valid { heuristics :=
      { auditColumns := [{ role := .version, containsAll := ["", "rev"] }] } } := by decide +kernel
  have hselective := (selective_and_refuses partlyEmptyValue).1 _ hvalid
  have hrefuses := (selective_and_refuses emptyMarkerValue).2
  refine ⟨(hselective.auditColumns _ (.head _)).mpr (.inr ⟨"rev", ?_, ?_⟩),
    hrefuses.junctionMarkers ["to", ""] rfl fun name tableName => ?_⟩
  · exact .tail _ (.head _)
  · decide
  · exact (HeuristicRules.hasJunctionMarker_iff _ _).mpr
      ⟨[], .tail _ (.head _), name, .head _, List.nil_infix⟩

/-- Empty markers where they are not objected to. -/
def vacuousValue : Value := .record [
  ("declarations", .record [("dialect_markers", .list [.text ""])]),
  ("heuristics", .record [("audit_columns", .list [.record [
    ("role", .text "version"), ("contains_all", .list [.text ""])]])])]

def vacuous : Config where
  declarations := { dialectMarkers := [""] }
  heuristics := { auditColumns := [{ role := .version, containsAll := [""] }] }

theorem vacuous_marks_every_name : ofValue vacuousValue = .valid vacuous ∧
    (∀ callee, marked vacuous.declarations.dialectMarkers callee) ∧
      ∀ rule ∈ vacuous.heuristics.auditColumns, ∀ column, rule.applies column := by
  refine ⟨by decide +kernel, fun callee => ?_, List.forall_mem_singleton.mpr fun column => ?_⟩
  · exact List.any_eq_true.mpr ⟨[], .head _, (Text.occursIn_iff [] callee).mpr List.nil_infix⟩
  · exact (AuditRule.applies_iff _ column).mpr
      (.inr ⟨List.cons_ne_nil _ _, List.forall_mem_singleton.mpr List.nil_infix⟩)

end Config
end SchemaAtlas
