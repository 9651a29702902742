import SchemaAtlas.Declaration.Kind
import SchemaAtlas.Proofs.Relation.Rewritten
import SchemaAtlas.Proofs.Table.Rewritten

/-!
# Redundant parentheses

An expression stands for the same in parentheses. Relations are read so throughout. A column is, but
for the options object of its type and the values of an enum; an index, a check or a foreign key is,
but for its name, its method, the text of a condition and the lists of columns; an enum declaration
is not. Parentheses there hide what they enclose, and nothing else makes a difference.
-/

namespace SchemaAtlas

open SchemaAtlas.Expr (Faithful Matching Rewritten)

namespace Expr

/-- An expression is put in parentheses. -/
def Enclosed (e e' : Expr) : Prop := ∃ x, e' = .parenthesized x e

/-- Any number of parts of an expression are put in parentheses. -/
abbrev Parenthesized : Expr → Expr → Prop := Rewritten Enclosed

theorem faithful_parenthesized : Faithful Parenthesized (Matching Parenthesized) where
  node h := by
    refine h.sameNode ?_ (.refl .refl) (fun _ _ _ => .trans fun _ _ _ => .trans)
      (fun before after entry _ => .value .refl before after entry)
    rintro e _ ⟨x, rfl⟩
    exact .refl_unwrap .refl (.refl .refl) e
  last h := h.last

end Expr

namespace Column

/-- What is seen of a column that only counts in no parentheses: the place of the options, and which
values of an enum are string literals. -/
def sight (e : Expr) : Option Nat × Option (List Bool) :=
  (optionsPlace? (baseArguments e),
    (enumElements? (baseOptions e)).map fun elements => elements.map (·.string?.isSome))

end Column

theorem Expr.Matching.enumElements? {R : Expr → Expr → Prop} (hR : Faithful R (Matching R))
    {options options' : List Entry} (h : Matching R options options') :
    Option.Rel (List.Forall₂ R) (Column.enumElements? options)
      (Column.enumElements? options') := by
  have hnamed := List.rel_filter (p := fun entry : Entry => decide (entry.key = "enum"))
    (q := fun entry : Entry => decide (entry.key = "enum"))
    (fun _ _ hentry => by simp [hentry.1]) h
  exact getLast?_rel_of_forall₂ <| List.rel_filterMap
    (fun _ _ hentry => (hR.node hentry.2).elements?) hnamed

namespace Column

/-- A column without what the options of its type say. -/
def withoutOptions (c : Column) : Column :=
  { c with length := none, precision := none, scale := none, enumValues := none }

variable (includeComments : Bool) (enums : Enums) {entry : Entry} {e' : Expr}
  (h : entry.value.Parenthesized e')

include h

theorem withoutOptions_parenthesized :
    withoutOptions <$> ofEntry includeComments enums { entry with value := e' } =
      withoutOptions <$> ofEntry includeComments enums entry := by
  rw [ofEntry_eq_plain, ofEntry_eq_plain, Expr.faithful_parenthesized.plain_eq includeComments h]
  cases plain includeComments entry <;> rfl

/-- A column whose value is seen alike is the same in parentheses. -/
theorem ofEntry_parenthesized (hsight : sight e' = sight entry.value) :
    ofEntry includeComments enums { entry with value := e' } =
      ofEntry includeComments enums entry := by
  have hR := Expr.faithful_parenthesized
  rw [sight, sight, Prod.mk.injEq] at hsight
  obtain ⟨hplace, hliterals⟩ := hsight
  have hoptions := hR.baseOptions .nil h hplace
  have helements := Expr.Matching.enumElements? hR hoptions
  have hvalues : enumOption? (baseOptions e') = enumOption? (baseOptions entry.value) := by
    rw [enumOption?_eq_map, enumOption?_eq_map]
    generalize enumElements? (baseOptions entry.value) = elements,
      enumElements? (baseOptions e') = elements' at helements hliterals
    cases helements with
    | none => rfl
    | some helements =>
      exact congrArg some (hR.filterMap_string?_eq helements (Option.some.inj hliterals))
  rw [ofEntry_eq_plain, ofEntry_eq_plain, hR.plain_eq includeComments h]
  simp only [withOptions, hR.number?_eq hoptions, hvalues]

end Column

namespace Declaration

def enumElements? (d : Declaration) : Option (List Expr) :=
  match d.arguments? with
  | some (_ :: .array _ elements :: _) => some elements
  | _ => none

/-- For each value of an enum, whether it stands there as a string literal. -/
def enumSight (d : Declaration) : Option (List Bool) :=
  d.enumElements?.map fun elements => elements.map (·.string?.isSome)

theorem enumValues?_eq_map (d : Declaration) :
    d.enumValues? = d.enumElements?.map (·.filterMap Expr.string?) := by
  unfold enumValues? enumElements?
  match d.arguments? with
  | none => rfl
  | some [] => rfl
  | some [e] => rfl
  | some (e :: values :: rest) => cases values <;> rfl

theorem enumElements?_eq_some {d : Declaration} {elements : List Expr}
    (h : d.enumElements? = some elements) : ∃ x callee first y rest,
      d.initializer = some (.call x callee (first :: .array y elements :: rest)) := by
  unfold enumElements? at h
  split at h
  · rename_i hcall
    cases h
    unfold arguments? at hcall
    split at hcall
    · rename_i hinitializer
      cases hcall
      exact ⟨_, _, _, _, _, hinitializer⟩
    · cases hcall
  · cases h

end Declaration

section Enum

variable {R : Expr → Expr → Prop} {Q : List Entry → List Entry → Prop} (hR : Faithful R Q)

include hR

namespace Expr.Faithful

/-- The elements of an enum correspond, if both declarations have some. -/
theorem enumElements? {d d' : Declaration} (h : Option.Rel R d.initializer d'.initializer)
    (hseen : d'.enumElements?.isSome = d.enumElements?.isSome) :
    Option.Rel (List.Forall₂ R) d.enumElements? d'.enumElements? := by
  cases hfound : d.enumElements? with
  | none =>
    rw [hfound, Option.isSome_none, Option.isSome_eq_false_iff, Option.isNone_iff_eq_none] at hseen
    rw [hseen]
    exact .none
  | some elements =>
    rw [hfound, Option.isSome_some, Option.isSome_iff_exists] at hseen
    obtain ⟨elements', hfound'⟩ := hseen
    obtain ⟨x, callee, first, y, rest, hcall⟩ := Declaration.enumElements?_eq_some hfound
    obtain ⟨x', callee', first', y', rest', hcall'⟩ := Declaration.enumElements?_eq_some hfound'
    rw [hcall, hcall'] at h
    -- both arrays stand in no parentheses, and neither do the calls
    cases h with
    | some hcall =>
      cases hR.node hcall with
      | call _ _ _ harguments =>
        cases harguments with
        | cons _ harguments =>
          cases harguments with
          | cons harray _ =>
            cases hR.node harray with
            | array _ helements =>
              rw [hfound']
              exact .some helements

/-- The values of an enum declaration stay, if its array and their literals are seen as before. -/
theorem enumValues?_eq {d d' : Declaration} (h : Option.Rel R d.initializer d'.initializer)
    (hsight : d'.enumSight = d.enumSight) : d'.enumValues? = d.enumValues? := by
  have hseen : d'.enumElements?.isSome = d.enumElements?.isSome := by
    simpa [Declaration.enumSight] using congrArg Option.isSome hsight
  have helements := hR.enumElements? h hseen
  unfold Declaration.enumSight at hsight
  rw [Declaration.enumValues?_eq_map, Declaration.enumValues?_eq_map]
  generalize d.enumElements? = elements, d'.enumElements? = elements' at helements hsight
  cases helements with
  | none => rfl
  | some helements =>
    exact congrArg some (hR.filterMap_string?_eq helements (Option.some.inj hsight))

end Expr.Faithful

end Enum

/-- Parentheses make no difference to a relation, and none to a column but for the options of its
type. They make none at all to a column, to an index, a check or a foreign key and to an enum where
what only counts in no parentheses is seen as before. -/
theorem read_of_parenthesized (includeComments : Bool) (enums : Enums) (rules : HeuristicRules)
    (table : Text) :
    (∀ (entry : Entry) (e' : Expr), entry.value.Parenthesized e' →
      Column.withoutOptions <$> Column.ofEntry includeComments enums { entry with value := e' } =
          Column.withoutOptions <$> Column.ofEntry includeComments enums entry ∧
        (Column.sight e' = Column.sight entry.value →
          Column.ofEntry includeComments enums { entry with value := e' } =
            Column.ofEntry includeComments enums entry)) ∧
    (∀ (entry : Entry) (e' : Expr), entry.value.Parenthesized e' →
      (Relation.ofEntry rules { entry with value := e' }).toOption =
        (Relation.ofEntry rules entry).toOption) ∧
    (∀ (key : Option Text) (e e' : Expr), e.Parenthesized e' → Extra.sight e' = Extra.sight e →
      Extra.ofEntry table key e' = Extra.ofEntry table key e) ∧
    ∀ (d : Declaration) (e e' : Expr), e.Parenthesized e' → d.initializer = some e →
      { d with initializer := some e' }.enumSight = d.enumSight →
      { d with initializer := some e' }.enumValues? = d.enumValues? := by
  have hR := Expr.faithful_parenthesized
  refine ⟨?_, ?_, ?_, ?_⟩
  · intro entry e' h
    exact ⟨Column.withoutOptions_parenthesized includeComments enums h,
      Column.ofEntry_parenthesized includeComments enums h⟩
  · intro entry e' h
    exact hR.relation_eq rules h
  · intro key e e' h hsight
    exact hR.extra_eq table key h hsight
  · intro d e e' h hvalue hsight
    have hinitializer : Option.Rel Expr.Parenthesized d.initializer (some e') := by
      rw [hvalue]
      exact .some h
    exact hR.enumValues?_eq hinitializer hsight

namespace Expr

def called (name : Text) (arguments : List Expr) : Expr :=
  .call default (.identifier default name) arguments

def enclosed (e : Expr) : Expr := .parenthesized default e

theorem parenthesized_called (name : Text) (before after : List Expr) (e : Expr) :
    (called name (before ++ e :: after)).Parenthesized
      (called name (before ++ enclosed e :: after)) :=
  .argument default _ before after (.here ⟨default, rfl⟩)

end Expr

open SchemaAtlas.Expr (called enclosed)

def lengthOptions (length : Expr) : Expr := .object default [⟨default, "length", length, []⟩]

def stateLength : Expr := .number default (.integer 20)

def stateColumn (value : Expr) : Entry := ⟨default, "state", value, []⟩

/-- The type of a column of states, with the options as given. -/
def stateType (options : Expr) : Expr := called "varchar" [.string default "state", options]

def postsRelation (target : Expr) : Entry := ⟨default, "posts", called "many" [target], []⟩

def emailIndex (column : Expr) : Expr :=
  (called "index" [.string default "email_index"]).withMethods [("on", [column])]

def roleEnum (name : Expr) : Declaration where
  name := "role"
  initializer := some (called "pgEnum" [name, .array default [.string default "admin"]])
  exported := true
  line := 1

/-- A column, a relation, an index and an enum in parentheses. -/
theorem read_of_parenthesized_state :
    Column.ofEntry true [] (stateColumn
        ((enclosed (stateType (lengthOptions (enclosed stateLength)))).withMethods
          [("notNull", [])])) =
      Column.ofEntry true [] (stateColumn
        ((stateType (lengthOptions stateLength)).withMethods [("notNull", [])])) ∧
    (Relation.ofEntry {} (postsRelation (enclosed (.identifier default "posts")))).toOption =
      (Relation.ofEntry {} (postsRelation (.identifier default "posts"))).toOption ∧
    Extra.ofEntry "users" none (emailIndex (enclosed (.identifier default "email"))) =
      Extra.ofEntry "users" none (emailIndex (.identifier default "email")) ∧
    (roleEnum (enclosed (.string default "role"))).enumValues? =
      (roleEnum (.string default "role")).enumValues? := by
  obtain ⟨hcolumn, hrelation, hextra, henum⟩ := read_of_parenthesized true [] {} "users"
  refine ⟨(hcolumn (stateColumn _) _ ?_).2 rfl, hrelation (postsRelation _) _ ?_,
    hextra none _ _ ?_ rfl, henum (roleEnum _) _ _ ?_ rfl rfl⟩
  · -- first around the number, then around what `notNull` is called on
    have hlength : (lengthOptions stateLength).Parenthesized
        (lengthOptions (enclosed stateLength)) :=
      .value default [] [] ⟨default, "length", stateLength, []⟩ (.here ⟨default, rfl⟩)
    refine .callee default [] (.object default "notNull" (.trans ?_ (.here ⟨default, rfl⟩))) rfl
    exact .argument default _ [.string default "state"] [] hlength
  · exact Expr.parenthesized_called "many" [] [] _
  · exact .argument default _ [] [] (.here ⟨default, rfl⟩)
  · exact Expr.parenthesized_called "pgEnum" [] [_] _

/-- Parentheses around the options object of a type hide the length. -/
theorem length_lost_parenthesized : ∃ c c',
    (stateType (lengthOptions stateLength)).Parenthesized
      (stateType (enclosed (lengthOptions stateLength))) ∧
    Column.ofEntry true [] (stateColumn (stateType (lengthOptions stateLength))) = .ok c ∧
    Column.ofEntry true [] (stateColumn (stateType (enclosed (lengthOptions stateLength)))) =
      .ok c' ∧
    c.length = some (.integer 20) ∧ c'.length = none :=
  ⟨_, _, Expr.parenthesized_called "varchar" [.string default "state"] [] _, rfl, rfl, rfl, rfl⟩

end SchemaAtlas
