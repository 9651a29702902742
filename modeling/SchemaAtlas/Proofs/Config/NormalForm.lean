import SchemaAtlas.Proofs.Config.Fields

/-!
# Validated configurations are normal forms

A validated configuration is written out as a value that is validated to it again. Settings that are
not given have their defaults at each level, whatever else is given, and entries that name no
setting do not count.
-/

namespace SchemaAtlas

namespace Config

open Value

/-- Whether what a plain value does not give is left at the defaults: the parts of the
configuration, the settings of each part, whether or not the part is given, and the fields of each
audit rule that is given. -/
structure Completes (c : Config) (v : Value) : Prop where
  parts : ∀ f ∈ record.fields, v.at? [.key f.name] = none → f.get c = f.get {}
  options : ∀ f ∈ Options.record.fields,
    v.at? [.key "options", .key f.name] = none → f.get c.options = f.get {}
  declarations : ∀ f ∈ DeclarationRules.record.fields,
    v.at? [.key "declarations", .key f.name] = none → f.get c.declarations = f.get {}
  heuristics : ∀ f ∈ HeuristicRules.record.fields,
    v.at? [.key "heuristics", .key f.name] = none → f.get c.heuristics = f.get {}
  auditColumns : ∀ i item,
    v.at? [.key "heuristics", .key "audit_columns", .index i] = some item →
      ∃ rule, c.heuristics.auditColumns[i]? = some rule ∧
        ∀ f ∈ AuditRule.record.fields, item.at? [.key f.name] = none →
          f.required = false ∧ f.get rule = f.get AuditRule.record.base

variable {v : Value} {c : Config}

/-- A configuration has from a value what the value gives, and the defaults in all else. -/
theorem completes_of_ofValue (h : ofValue v = .valid c) : c.Completes v where
  parts _ hf habsent := (record.get_eq_of_absent h hf habsent).2
  options _ hf habsent := record.get_eq_of_absent_within rfl rfl h (.head _) hf habsent
  declarations _ hf habsent :=
    record.get_eq_of_absent_within rfl rfl h (.tail _ (.head _)) hf habsent
  heuristics _ hf habsent :=
    record.get_eq_of_absent_within rfl rfl h (.tail _ (.tail _ (.head _))) hf habsent
  auditColumns i item hitem := by
    rw [at?_cons, Option.bind_eq_some_iff] at hitem
    obtain ⟨given, hgiven, hitem⟩ := hitem
    rw [at?_cons, Option.bind_eq_some_iff] at hitem
    obtain ⟨rules, hrules, hitem⟩ := hitem
    have hheuristics : HeuristicRules.ofValue given = .valid c.heuristics :=
      record.check_of_given h (.tail _ (.tail _ (.head _))) hgiven
    have hlist := HeuristicRules.record.check_of_given hheuristics
      (List.mem_of_getElem? (i := 10) rfl) hrules
    obtain ⟨rule, hrule, hcheck⟩ := Form.exists_check_of_item hlist hitem
    exact ⟨rule, hrule, fun f hf habsent => AuditRule.record.get_eq_of_absent hcheck hf habsent⟩

/-- Validated configurations are normal forms. The configurations that meet all the requirements are
those that are validated, written out, to themselves. What a value is validated to is one of them;
in it, what is not given is left at the defaults, and any value of which the same is known is
validated to it as well. -/
theorem normal_of_ofValue (c : Config) :
    (c.Sound ↔ ofValue c.toValue = .valid c) ∧
    ∀ v, ofValue v = .valid c →
      c.Sound ∧ ofValue c.toValue = .valid c ∧ c.Completes v ∧
        ∀ w, known w = known v → ofValue w = .valid c := by
  refine ⟨⟨ofValue_toValue, sound_of_ofValue⟩, fun v h => ?_⟩
  have hsound := sound_of_ofValue h
  refine ⟨hsound, ofValue_toValue hsound, completes_of_ofValue h, fun w hw => ?_⟩
  rw [← ofValue_known w, hw, ofValue_known v, h]

/-- A value that gives a setting here and there, some by other words, and some that are none. -/
def sparseValue : Value := .record [
  ("options", .record [("include_comments", .text "Off"), ("verbose", .boolean true)]),
  ("heuristics", .record [
    ("id_suffix", .text "İD"),
    ("junction_max_columns", .text " 4.0 "),
    ("audit_columns", .list [.record [
      ("role", .text "version"), ("exact", .list [.text "rev"]), ("note", .null)]])]),
  ("extra", .list [])]

def sparse : Config where
  options := { includeComments := false }
  heuristics := {
    idSuffix := [0x69, 0x307, 0x64]
    junctionMaxColumns := 4
    auditColumns := [{ role := .version, exact := ["rev"] }] }

theorem normal_of_sparseValue : ofValue sparseValue = .valid sparse ∧
    sparse.Sound ∧ ofValue sparse.toValue = .valid sparse ∧ sparse.Completes sparseValue ∧
      ofValue (known sparseValue) = .valid sparse := by
  have hvalid : ofValue sparseValue = .valid sparse := by decide +kernel
  obtain ⟨hsound, hagain, hcompletes, hknown⟩ := (normal_of_ofValue sparse).2 sparseValue hvalid
  exact ⟨hvalid, hsound, hagain, hcompletes, hknown (known sparseValue) rfl⟩

end Config
end SchemaAtlas
