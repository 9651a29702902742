import SchemaAtlas.Proofs.Entity.Classification
import SchemaAtlas.Proofs.Expr.Pruned

/-!
# Which columns play the audit roles

A column gets the role of the first rule that matches its name, and a role goes to the last column
that gets it. So no name plays two roles, columns that no rule matches may stand anywhere, and a rule
is never reached behind others that match all of its names.
-/

namespace SchemaAtlas

/-- A rule matches a name that is one of its exact names in lower case, or that holds all of its
parts, where it has parts. -/
def AuditRule.Matches (rule : AuditRule) (name : Text) : Prop :=
  name.lower ∈ rule.exact ∨
    rule.containsAll ≠ [] ∧ ∀ part ∈ rule.containsAll, part <:+: name.lower

theorem AuditRule.applies_iff (rule : AuditRule) (name : Text) :
    rule.applies name ↔ rule.Matches name := by
  simp [applies, Matches, ← Text.occursIn_iff]

instance (rule : AuditRule) (name : Text) : Decidable (rule.Matches name) :=
  decidable_of_iff (rule.applies name) (rule.applies_iff name)

namespace AuditColumns

/-- The first of the rules that match a name has the given role. -/
def Assigns (rules : List AuditRule) (name : Text) (role : AuditRole) : Prop :=
  ∃ before rule after, rules = before ++ rule :: after ∧
    (∀ earlier ∈ before, ¬ earlier.Matches name) ∧ rule.Matches name ∧ rule.role = role

/-- The role of a name is that of the first rule that matches it. -/
theorem roleOf?_eq_some_iff (rules : List AuditRule) (name : Text) (role : AuditRole) :
    roleOf? rules name = some role ↔ Assigns rules name role := by
  simp only [roleOf?, Option.map_eq_some_iff, List.find?_eq_some_iff_append, AuditRule.applies_iff,
    Bool.not_eq_true', ← Bool.not_eq_true]
  constructor
  · rintro ⟨rule, ⟨hmatch, before, after, rfl, hbefore⟩, hrole⟩
    exact ⟨before, rule, after, rfl, hbefore, hmatch, hrole⟩
  · rintro ⟨before, rule, after, rfl, hbefore, hmatch, hrole⟩
    exact ⟨rule, ⟨hmatch, before, after, rfl, hbefore⟩, hrole⟩

instance (rules : List AuditRule) (name : Text) (role : AuditRole) :
    Decidable (Assigns rules name role) :=
  decidable_of_iff _ (roleOf?_eq_some_iff rules name role)

theorem roleOf?_eq_none_iff (rules : List AuditRule) (name : Text) :
    roleOf? rules name = none ↔ ∀ rule ∈ rules, ¬ rule.Matches name := by
  simp [roleOf?, ← AuditRule.applies_iff]

/-- A role goes to the last column that gets it. -/
theorem get_detect_eq_some_iff (rules : List AuditRule) (columns : List Column) (role : AuditRole)
    (name : Text) : (detect rules columns).get role = some name ↔
      ∃ before c after, columns = before ++ c :: after ∧ c.name = name ∧
        Assigns rules c.name role ∧ ∀ later ∈ after, ¬ Assigns rules later.name role := by
  simp only [get_detect, Option.map_eq_some_iff, List.find?_eq_some_iff_append,
    decide_eq_true_eq, roleOf?_eq_some_iff, Bool.not_eq_true', decide_eq_false_iff_not]
  constructor
  · rintro ⟨c, ⟨hassigns, after, before, hcolumns, hafter⟩, hname⟩
    refine ⟨before.reverse, c, after.reverse, ?_, hname, hassigns, ?_⟩
    · simpa using congrArg List.reverse hcolumns
    · simpa using hafter
  · rintro ⟨before, c, after, rfl, hname, hassigns, hafter⟩
    exact ⟨c, ⟨hassigns, after.reverse, before.reverse, by simp, by simpa using hafter⟩, hname⟩

theorem get_detect_eq_none_iff (rules : List AuditRule) (columns : List Column)
    (role : AuditRole) : (detect rules columns).get role = none ↔
      ∀ c ∈ columns, ¬ Assigns rules c.name role := by
  simp [get_detect, roleOf?_eq_some_iff]

/-- A name plays the role that is assigned to it. -/
theorem assigns_of_get_detect {rules : List AuditRule} {columns : List Column} {role : AuditRole}
    {name : Text} (h : (detect rules columns).get role = some name) : Assigns rules name role := by
  obtain ⟨before, c, after, -, rfl, hassigns, -⟩ :=
    (get_detect_eq_some_iff rules columns role name).mp h
  exact hassigns

theorem Assigns.unique {rules : List AuditRule} {name : Text} {role role' : AuditRole}
    (h : Assigns rules name role) (h' : Assigns rules name role') : role = role' := by
  rw [← roleOf?_eq_some_iff] at h h'
  exact Option.some.inj (h.symm.trans h')

/-- A column that no rule matches is passed over. -/
theorem noting_of_unmatched {rules : List AuditRule} {c : Column}
    (h : ∀ rule ∈ rules, ¬ rule.Matches c.name) (found : AuditColumns) :
    noting rules found c = found := by
  rw [noting, (roleOf?_eq_none_iff rules c.name).mpr h]

/-- Columns that no rule matches may be put in anywhere. -/
theorem detect_of_thinned {rules : List AuditRule} {columns columns' : List Column}
    (h : Thinned (fun c => ∀ rule ∈ rules, ¬ rule.Matches c.name) Eq columns' columns) :
    detect rules columns' = detect rules columns := by
  unfold detect
  generalize ({} : AuditColumns) = found
  induction h generalizing found with
  | nil => rfl
  | drop hunmatched _ ih => rw [List.foldl_cons, noting_of_unmatched hunmatched, ih]
  | keep hsame _ ih => rw [List.foldl_cons, List.foldl_cons, hsame, ih]

/-- A rule behind others that match all of its names never decides. -/
theorem roleOf?_of_covered {before : List AuditRule} {rule : AuditRule}
    (h : ∀ name, rule.Matches name → ∃ earlier ∈ before, earlier.Matches name)
    (after : List AuditRule) (name : Text) :
    roleOf? (before ++ rule :: after) name = roleOf? (before ++ after) name := by
  unfold roleOf?
  rw [List.find?_append, List.find?_append]
  cases hbefore : before.find? (·.applies name) with
  | some earlier => rfl
  | none =>
    have hunmatched : rule.applies name = false := by
      rw [← Bool.not_eq_true, rule.applies_iff]
      intro hmatch
      obtain ⟨earlier, hmem, hearlier⟩ := h name hmatch
      have hnot := List.find?_eq_none.mp hbefore earlier hmem
      exact hnot ((earlier.applies_iff name).mpr hearlier)
    rw [List.find?_cons, hunmatched]

theorem detect_of_covered {before : List AuditRule} {rule : AuditRule}
    (h : ∀ name, rule.Matches name → ∃ earlier ∈ before, earlier.Matches name)
    (after : List AuditRule) (columns : List Column) :
    detect (before ++ rule :: after) columns = detect (before ++ after) columns := by
  have hnoting : noting (before ++ rule :: after) = noting (before ++ after) := by
    funext found c
    rw [noting, roleOf?_of_covered h, noting]
  rw [detect, hnoting, detect]

/-- The first rule that matches a column decides on its role, and the last column with a role plays
it. A role is left open iff no column has it, no name plays two roles, and nothing changes by columns
that no rule matches or by a rule behind others that match all of its names. -/
theorem detect_decided (rules : List AuditRule) (columns : List Column) :
    (∀ role name, (detect rules columns).get role = some name ↔
      ∃ before c after, columns = before ++ c :: after ∧ c.name = name ∧
        Assigns rules c.name role ∧ ∀ later ∈ after, ¬ Assigns rules later.name role) ∧
    (∀ role, (detect rules columns).get role = none ↔
      ∀ c ∈ columns, ¬ Assigns rules c.name role) ∧
    (∀ role role' name, (detect rules columns).get role = some name →
      (detect rules columns).get role' = some name → role = role') ∧
    (∀ columns', Thinned (fun c => ∀ rule ∈ rules, ¬ rule.Matches c.name) Eq columns' columns →
      detect rules columns' = detect rules columns) ∧
    ∀ before rule after, rules = before ++ after →
      (∀ name, rule.Matches name → ∃ earlier ∈ before, earlier.Matches name) →
      detect (before ++ rule :: after) columns = detect rules columns := by
  refine ⟨get_detect_eq_some_iff rules columns, get_detect_eq_none_iff rules columns, ?_, ?_, ?_⟩
  · intro role role' name h h'
    exact (assigns_of_get_detect h).unique (assigns_of_get_detect h')
  · intro columns' h
    exact detect_of_thinned h
  · rintro before rule after rfl h
    exact detect_of_covered h after columns

/-- Rules that overlap, with one role in two of them. -/
def overlappingRules : List AuditRule := [
  { role := .createdAt, containsAll := ["created"] },
  { role := .updatedAt, containsAll := ["at"], exact := ["edited"] },
  { role := .createdAt, exact := ["made_at", "born"] }]

/-- Columns some of which are matched by two rules, and some by none. -/
def stampColumns : List Column :=
  [{ name := "createdAt" }, { name := "made_at" }, { name := "Born" }, { name := "updated_at" }]

/-- The last of two columns has a role, and the first of two rules gives it. -/
theorem detect_decided_stampColumns :
    (detect overlappingRules stampColumns).get .createdAt = some ("Born" : Text) ∧
    (detect overlappingRules stampColumns).get .updatedAt = some ("updated_at" : Text) ∧
    (detect overlappingRules stampColumns).get .version = none ∧
    detect overlappingRules ({ name := "title" } :: stampColumns) =
      detect overlappingRules stampColumns ∧
    detect (overlappingRules ++ [{ role := .version, exact := ["edited"] }]) stampColumns =
      detect overlappingRules stampColumns := by
  obtain ⟨hlast, hnone, -, hunmatched, hcovered⟩ := detect_decided overlappingRules stampColumns
  have hplace (n : Nat) (h : n < stampColumns.length) : stampColumns =
      stampColumns.take n ++ stampColumns[n] :: stampColumns.drop (n + 1) := by
    rw [List.getElem_cons_drop, List.take_append_drop]
  refine ⟨(hlast .createdAt _).mpr ⟨_, _, _, hplace 2 (by decide), rfl, by decide, by decide⟩,
    (hlast .updatedAt _).mpr ⟨_, _, _, hplace 3 (by decide), rfl, by decide, by decide⟩,
    (hnone .version).mpr (by decide), hunmatched _ (.drop (by decide) (.refl _)),
    hcovered overlappingRules _ [] rfl ?_⟩
  rintro name (hexact | ⟨hparts, -⟩)
  · exact ⟨_, .tail _ (.head _), .inl hexact⟩
  · exact absurd rfl hparts

end AuditColumns
end SchemaAtlas
