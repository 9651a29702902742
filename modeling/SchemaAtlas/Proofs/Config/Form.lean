import SchemaAtlas.Proofs.Config.Place
import SchemaAtlas.Proofs.Text.LowerCase

/-!
# Forms of settings

How settings of a type are checked, how they are written out, and what they have to meet. A check
gives nothing but settings that meet the requirement, and takes what is written for such a setting
for the setting again. Fields that have forms make up a record, which has a form itself: a field
that is not given has its default, and entries that name no field are not seen.
-/

namespace SchemaAtlas

open Checked Value

/-- How settings of a type are checked and written out. -/
structure Form (α : Type) where
  check : Value → Checked α
  write : α → Value
  /-- What the check sees of a value. -/
  known : Value → Value
  /-- What a setting has to meet. -/
  Meets : α → Prop
  meets_of_check {v : Value} {a : α} : check v = .valid a → Meets a
  check_write {a : α} : Meets a → check (write a) = .valid a
  check_known (v : Value) : check (known v) = check v

namespace Form

variable {α : Type}

def flag : Form Bool where
  check := checkFlag
  write := boolean
  known := id
  Meets _ := True
  meets_of_check _ := trivial
  check_write _ := rfl
  check_known _ := rfl

def text : Form Text where
  check := checkText
  write := .text
  known := id
  Meets _ := True
  meets_of_check _ := trivial
  check_write _ := rfl
  check_known _ := rfl

def role : Form AuditRole where
  check := checkRole
  write r := .text r.label
  known := id
  Meets _ := True
  meets_of_check _ := trivial
  check_write {r} _ := by
    have hlabel : AuditRole.ofLabel? r.label = some r := by cases r <;> decide +kernel
    simp only [checkRole, hlabel]
  check_known _ := rfl

def positive : Form Nat where
  check := checkPositive
  write n := .integer n
  known := id
  Meets n := 1 ≤ n
  meets_of_check {v n} h := by
    obtain ⟨i, -, hi⟩ := andThen_eq_valid.mp h
    split at hi
    · cases hi
      omega
    · exact absurd hi (complain_ne_valid _ _)
  check_write {n} h := by
    have hn : (1 : Int) ≤ n := by omega
    simp [checkPositive, checkInt, andThen, hn]
  check_known _ := rfl

def suffix : Form Text where
  check := checkSuffix
  write := .text
  known := id
  Meets t := t ≠ [] ∧ t.lower = t
  meets_of_check {v t} h := by
    obtain ⟨s, -, hs⟩ := andThen_eq_valid.mp h
    split at hs
    · exact absurd hs (complain_ne_valid _ _)
    · next hempty =>
      cases hs
      exact ⟨by simpa using hempty, Text.lower_lower s⟩
  check_write {t} h := by simp [checkSuffix, checkText, andThen, h]
  check_known _ := rfl

/-- Settings that an objection does not hold for. -/
def refine (form : Form α) (objects : α → Bool) (objection : Objection) : Form α where
  check v := (form.check v).andThen fun a =>
    if objects a then complain (.valueError objection) else .valid a
  write := form.write
  known := form.known
  Meets a := form.Meets a ∧ objects a = false
  meets_of_check {v a} h := by
    obtain ⟨a', ha, h⟩ := andThen_eq_valid.mp h
    split at h
    · exact absurd h (complain_ne_valid _ _)
    · next hnot =>
      cases h
      exact ⟨form.meets_of_check ha, by simpa using hnot⟩
  check_write {a} h := by
    rw [form.check_write h.1, andThen, if_neg (by simp [h.2])]
  check_known v := by rw [form.check_known]

def listOf (form : Form α) : Form (List α) where
  check := checkList form.check
  write as := .list (as.map form.write)
  known := knownItems form.known
  Meets as := ∀ a ∈ as, form.Meets a
  meets_of_check {v as} h := by
    cases v with
    | list values =>
      have hitems : List.Forall₂ (fun v a => form.check v = .valid a) values as :=
        items_eq_valid.mp h
      clear h
      induction hitems with
      | nil => exact List.forall_mem_nil _
      | cons ha _ ih => exact List.forall_mem_cons.mpr ⟨form.meets_of_check ha, ih⟩
    | _ => exact absurd h (complain_ne_valid _ _)
  check_write {as} h := by
    refine items_eq_valid.mpr (List.forall₂_map_left_iff.mpr (List.forall₂_same.mpr fun a ha => ?_))
    exact form.check_write (h a ha)
  check_known v := by
    cases v with
    | list values => exact items_map form.check_known 0 values
    | _ => rfl

/-- Texts that are not blank. -/
def marker : Form Text := text.refine Text.isBlank .markerBlank

def texts : Form (List Text) := listOf text

/-- Lists of texts that are not empty. -/
def markers : Form (List Text) := texts.refine (·.any List.isEmpty) .markerEmpty

def dialects : Form (List Text) := texts.refine List.isEmpty .dialectsEmpty

@[simp] theorem check_flag : flag.check = checkFlag := rfl
@[simp] theorem check_text : text.check = checkText := rfl
@[simp] theorem check_role : role.check = checkRole := rfl
@[simp] theorem check_positive : positive.check = checkPositive := rfl
@[simp] theorem check_suffix : suffix.check = checkSuffix := rfl
@[simp] theorem check_marker : marker.check = checkMarker := rfl
@[simp] theorem check_texts : texts.check = checkTexts := rfl
@[simp] theorem check_markers : markers.check = checkMarkers := rfl
@[simp] theorem check_dialects : dialects.check = checkDialects := rfl

@[simp] theorem meets_flag (b : Bool) : flag.Meets b := trivial
@[simp] theorem meets_text (t : Text) : text.Meets t := trivial
@[simp] theorem meets_role (r : AuditRole) : role.Meets r := trivial
@[simp] theorem meets_positive {n : Nat} : positive.Meets n ↔ 1 ≤ n := .rfl
@[simp] theorem meets_suffix {t : Text} : suffix.Meets t ↔ t ≠ [] ∧ t.lower = t := .rfl
@[simp] theorem meets_texts (ts : List Text) : texts.Meets ts := fun _ _ => trivial

@[simp] theorem meets_marker {t : Text} : marker.Meets t ↔ t.isBlank = false := by
  simp [marker, refine]

@[simp] theorem meets_markers {ts : List Text} : markers.Meets ts ↔ [] ∉ ts := by
  have hiff : (∀ t ∈ ts, t ≠ []) ↔ [] ∉ ts :=
    ⟨fun h hmem => h [] hmem rfl, fun h t ht hnil => h (hnil ▸ ht)⟩
  simpa [markers, refine] using hiff

@[simp] theorem meets_dialects {ts : List Text} : dialects.Meets ts ↔ ts ≠ [] := by
  simp [dialects, refine]

@[simp] theorem meets_listOf {form : Form α} {as : List α} :
    (listOf form).Meets as ↔ ∀ a ∈ as, form.Meets a := .rfl

@[simp] theorem check_listOf (form : Form α) : (listOf form).check = checkList form.check := rfl

/-- Each item of a list that is checked is checked, and gives the setting at its position. -/
theorem exists_check_of_item {form : Form α} {v item : Value} {as : List α} {i : Nat}
    (h : (listOf form).check v = .valid as) (hitem : v.at? [.index i] = some item) :
    ∃ a, as[i]? = some a ∧ form.check item = .valid a := by
  cases v with
  | list values =>
    have hitems : List.Forall₂ (fun v a => form.check v = .valid a) values as :=
      items_eq_valid.mp h
    have hvalue : values[i]? = some item := by simpa [at?] using hitem
    obtain ⟨hi, rfl⟩ := List.getElem?_eq_some_iff.mp hvalue
    have hi' : i < as.length := hitems.length_eq ▸ hi
    exact ⟨as[i], List.getElem?_eq_getElem hi', hitems.get hi hi'⟩
  | _ => cases hitem

end Form

/-- A field of a record, with the form of its settings. -/
structure Field (S : Type) where
  {Content : Type}
  name : Text
  form : Form Content
  get : S → Content
  /-- Whether the field has to be given. -/
  required : Bool := false

namespace Field

variable {S : Type} {f : Field S} {base : S} {entries : List (Value × Value)}

/-- The setting of a field in the entries of a map. One that may be missing is then as in `base`. -/
def read (f : Field S) (base : S) (entries : List (Value × Value)) : Checked f.Content :=
  if f.required then requiredField entries f.name f.form.check
  else field entries f.name (f.get base) f.form.check

theorem read_optional {Content : Type} (name : Text) (form : Form Content) (get : S → Content) :
    read { name, form, get } base entries = field entries name (get base) form.check := rfl

theorem read_required {Content : Type} (name : Text) (form : Form Content) (get : S → Content) :
    read { name, form, get, required := true } base entries =
      requiredField entries name form.check := rfl

theorem read_of_some {v : Value} (h : field? entries f.name = some v) :
    f.read base entries = (f.form.check v).within (.key f.name) := by
  unfold read requiredField field
  split <;> rw [h]

/-- A field that is not given has its default, if it may be missing at all. -/
theorem eq_of_read_of_none {a : f.Content} (h : field? entries f.name = none)
    (hread : f.read base entries = .valid a) : f.required = false ∧ a = f.get base := by
  unfold read requiredField field at hread
  rw [h] at hread
  split at hread
  · rw [within_eq_valid] at hread
    exact absurd hread (complain_ne_valid _ _)
  · next hrequired =>
    cases hread
    exact ⟨by simpa using hrequired, rfl⟩

/-- A setting that was read, or left at a default that is fine, is fine. -/
theorem meets_of_read {a : f.Content} (hbase : f.required = false → f.form.Meets (f.get base))
    (hread : f.read base entries = .valid a) : f.form.Meets a := by
  cases h : field? entries f.name with
  | none =>
    obtain ⟨hrequired, rfl⟩ := eq_of_read_of_none h hread
    exact hbase hrequired
  | some v =>
    rw [read_of_some h, within_eq_valid] at hread
    exact f.form.meets_of_check hread

/-- Entries that no field asks for do not matter to a field. -/
theorem read_knownEntries {fields : Keyed (Value → Value)}
    (h : fields.get? f.name = some f.form.known) :
    f.read base (knownEntries fields entries) = f.read base entries := by
  have hentry := field?_knownEntries fields entries f.name
  rw [h, Option.bind_some] at hentry
  unfold read requiredField field
  rw [hentry]
  cases field? entries f.name with
  | none => rfl
  | some v => simp only [Option.map_some, f.form.check_known]

end Field

/-- A type of records with their fields and a check that goes by them. -/
structure Record (S : Type) where
  fields : List (Field S)
  /-- The record with all the defaults. -/
  base : S
  check : Value → Checked S
  /-- What a record has to meet as a whole. -/
  Holds : S → Prop := fun _ => True
  nodup_names : (fields.map (·.name)).Nodup
  meets_base : ∀ f ∈ fields, f.required = false → f.form.Meets (f.get base)
  /-- A map is valid if its fields are, and it gives the record of what they give. -/
  check_eq_valid_iff {v : Value} {s : S} : check v = .valid s ↔ ∃ entries, v = .map entries ∧
    (∀ f ∈ fields, f.read base entries = .valid (f.get s)) ∧ Holds s
  /-- Nothing but the fields counts. -/
  check_congr {entries entries' : List (Value × Value)}
    (h : ∀ f ∈ fields, f.read base entries = f.read base entries') :
    check (.map entries) = check (.map entries')
  /-- The problems of all the fields are reported. -/
  mem_problems {entries : List (Value × Value)} {p : ConfigProblem} :
    ∀ f ∈ fields, p ∈ (f.read base entries).problems → p ∈ (check (.map entries)).problems

namespace Record

variable {S : Type} {r : Record S} {v : Value} {s : S}

def written (r : Record S) (s : S) : Keyed Value :=
  r.fields.map fun f => (f.name, f.form.write (f.get s))

theorem field?_written (r : Record S) (s : S) {name : Text} {v : Value} :
    field? ((r.written s).map fun p => (.text p.1, p.2)) name = some v ↔
      ∃ f ∈ r.fields, f.name = name ∧ f.form.write (f.get s) = v := by
  have hnodup : ((r.written s).map (·.1)).Nodup := by
    simpa [written, Function.comp_def] using r.nodup_names
  rw [field?_record, Keyed.last?_eq_some_iff_mem hnodup]
  simp [written]

def form (r : Record S) : Form S where
  check := r.check
  write s := record (r.written s)
  known := knownFields (r.fields.map fun f => (f.name, f.form.known))
  Meets s := (∀ f ∈ r.fields, f.form.Meets (f.get s)) ∧ r.Holds s
  meets_of_check h := by
    obtain ⟨entries, -, hread, hholds⟩ := r.check_eq_valid_iff.mp h
    exact ⟨fun f hf => Field.meets_of_read (r.meets_base f hf) (hread f hf), hholds⟩
  check_write {s} h := by
    refine r.check_eq_valid_iff.mpr ⟨_, rfl, fun f hf => ?_, h.2⟩
    rw [Field.read_of_some ((r.field?_written s).mpr ⟨f, hf, rfl, rfl⟩), within_eq_valid]
    exact f.form.check_write (h.1 f hf)
  check_known v := by
    cases v with
    | map entries =>
      refine r.check_congr fun f hf => Field.read_knownEntries ?_
      have hnodup : ((r.fields.map fun f => (f.name, f.form.known)).map (·.1)).Nodup := by
        simpa [Function.comp_def] using r.nodup_names
      exact (Keyed.get?_eq_some_iff_mem hnodup).mpr (List.mem_map_of_mem hf)
    | _ => rfl

theorem meets_form : r.form.Meets s ↔ (∀ f ∈ r.fields, f.form.Meets (f.get s)) ∧ r.Holds s := .rfl

variable {f : Field S}

/-- What is given for a field is checked by its form. -/
theorem check_of_given (h : r.check v = .valid s) (hf : f ∈ r.fields) {given : Value}
    (hgiven : v.at? [.key f.name] = some given) : f.form.check given = .valid (f.get s) := by
  obtain ⟨entries, rfl, hread, -⟩ := r.check_eq_valid_iff.mp h
  have hcheck := hread f hf
  rwa [Field.read_of_some (at?_map_key entries f.name ▸ hgiven), within_eq_valid] at hcheck

/-- What is wrong with what is given for a field is reported, and where. -/
theorem mem_problems_of_given (hf : f ∈ r.fields) {given : Value}
    (hgiven : v.at? [.key f.name] = some given) {p : ConfigProblem}
    (hp : p ∈ (f.form.check given).problems) :
    { p with place := .key f.name :: p.place } ∈ (r.check v).problems := by
  cases v with
  | map entries =>
    refine r.mem_problems f hf ?_
    rw [Field.read_of_some (at?_map_key entries f.name ▸ hgiven)]
    exact mem_problems_within hp
  | _ => cases hgiven

/-- A field that is not given may be missing and has its default. -/
theorem get_eq_of_absent (h : r.check v = .valid s) (hf : f ∈ r.fields)
    (habsent : v.at? [.key f.name] = none) : f.required = false ∧ f.get s = f.get r.base := by
  obtain ⟨entries, rfl, hread, -⟩ := r.check_eq_valid_iff.mp h
  exact Field.eq_of_read_of_none (at?_map_key entries f.name ▸ habsent) (hread f hf)

/-- In a record inside of another, a field that is not given has its default as well, whether or not
the record is given. -/
theorem get_eq_of_absent_within {inner : Record f.Content} (hcheck : f.form.check = inner.check)
    (hbase : f.get r.base = inner.base) (h : r.check v = .valid s) (hf : f ∈ r.fields)
    {g : Field f.Content} (hg : g ∈ inner.fields)
    (habsent : v.at? [.key f.name, .key g.name] = none) :
    g.get (f.get s) = g.get inner.base := by
  cases hgiven : v.at? [.key f.name] with
  | none => rw [(get_eq_of_absent h hf hgiven).2, hbase]
  | some given =>
    rw [at?_cons, hgiven, Option.bind_some] at habsent
    have hinner := check_of_given h hf hgiven
    rw [hcheck] at hinner
    exact (get_eq_of_absent hinner hg habsent).2

/-- In a record inside of another, what is wrong with what is given for a field is reported as
well. -/
theorem mem_problems_of_given_within {inner : Record f.Content}
    (hcheck : f.form.check = inner.check) (hf : f ∈ r.fields) {g : Field f.Content}
    (hg : g ∈ inner.fields) {given : Value}
    (hgiven : v.at? [.key f.name, .key g.name] = some given) {p : ConfigProblem}
    (hp : p ∈ (g.form.check given).problems) :
    { p with place := .key f.name :: .key g.name :: p.place } ∈ (r.check v).problems := by
  rw [at?_cons, Option.bind_eq_some_iff] at hgiven
  obtain ⟨part, hpart, hgiven⟩ := hgiven
  refine r.mem_problems_of_given (p := { p with place := .key g.name :: p.place }) hf hpart ?_
  rw [hcheck]
  exact inner.mem_problems_of_given hg hgiven hp

end Record
end SchemaAtlas
