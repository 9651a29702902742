import Mathlib.Data.List.Induction
import SchemaAtlas.Column.OfEntry
import SchemaAtlas.Proofs.Expr.Chained
import SchemaAtlas.Proofs.Outcome

/-!
# What the modifiers of a column mean

The modifiers of a chain are applied from the outermost inward, so each field is settled by the
modifier for it that is called first. The order among modifiers for different fields does not
matter. One thing stands in the way of a column: a default that is an integer with more digits than
are written ends the run, even where a modifier called before it settles the default.
-/

namespace SchemaAtlas

namespace Column

open Expr.Link (named)

/-- A modifier that sets an integer as the default that has too many digits to be written. -/
def Unwritable (call : Expr.Link) : Prop :=
  call.name = some "default" ∧ ∃ value rest extent n, call.arguments = value :: rest ∧
    value.unwrap = .number extent (.integer n) ∧ Nat.pow 10 Numeral.digitLimit ≤ n.natAbs

/-- The one default without a text is an integer beyond the digits that are written. -/
theorem defaultText?_eq_none {e : Expr} : defaultText? e = none ↔
    ∃ extent n, e.unwrap = .number extent (.integer n) ∧
      Nat.pow 10 Numeral.digitLimit ≤ n.natAbs := by
  unfold defaultText?
  cases he : e.unwrap with
  | number extent value =>
    cases value with
    | integer n => simp [Number.canonical?]
    | float x => simp [Number.canonical?]
  | _ => simp

/-- A modifier is applied unless it gives such a default. -/
theorem returns_applyModifier (column : Column) (call : Expr.Link) :
    Returns (applyModifier column call) ↔ ¬ Unwritable call := by
  by_cases hname : call.name = some "default"
  · cases harguments : call.arguments with
    | nil => simp [applyModifier, Unwritable, hname, harguments]
    | cons value rest =>
      have hiff : Unwritable call ↔ defaultText? value = none := by
        rw [defaultText?_eq_none]
        simp [Unwritable, hname, harguments]
      rw [hiff]
      cases htext : defaultText? value <;> simp [applyModifier, hname, harguments, htext]
  · have hnot : ¬ Unwritable call := fun h => hname h.1
    simp only [applyModifier, hname, if_false, hnot, not_false_eq_true, iff_true]
    split_ifs <;> exact returns_ok _

instance (call : Expr.Link) : Decidable (Unwritable call) :=
  decidable_of_iff (¬ Returns (applyModifier default call)) (by rw [returns_applyModifier, not_not])

/-- Whether a call sets the default: `defaultNow`, or `default` with an argument. -/
def setsDefault (call : Expr.Link) : Bool :=
  named "defaultNow" call || (named "default" call && !call.arguments.isEmpty)

/-- The default that a call sets: the time of insertion, or the text of its argument. -/
def defaultOf? (call : Expr.Link) : Option Text :=
  if named "defaultNow" call then some currentTime else call.arguments.head?.bind defaultText?

/-- A column with given modifiers, in the order in which they are called: of those that set the
default, and of those that set the reference, the first counts. -/
def modified (modifiers : List Expr.Link) (c : Column) : Column :=
  { c with
    nullable := c.nullable && !modifiers.any (named "notNull")
    primaryKey := c.primaryKey || modifiers.any (named "primaryKey")
    unique := c.unique || modifiers.any (named "unique")
    defaultValue := ((modifiers.find? setsDefault).map defaultOf?).getD c.defaultValue
    references := ((modifiers.find? (named "references")).map fun call =>
      ColumnReference.ofArguments? call.arguments).getD c.references }

/-- A modifier that is applied behind others overrides what they set. -/
theorem applyModifier_modified (c : Column) (call : Expr.Link) (modifiers : List Expr.Link) :
    applyModifier (modified modifiers c) call =
      if Unwritable call then .error .integerBeyondDigitLimit
      else .ok (modified (call :: modifiers) c) := by
  by_cases hdefault : call.name = some "default"
  · cases harguments : call.arguments with
    | nil =>
      simp [applyModifier, modified, named, setsDefault, Unwritable, hdefault, harguments]
    | cons value rest =>
      have hiff : Unwritable call ↔ defaultText? value = none := by
        rw [defaultText?_eq_none]
        simp [Unwritable, hdefault, harguments]
      cases htext : defaultText? value <;>
        simp [applyModifier, modified, named, setsDefault, defaultOf?, hiff, hdefault, harguments,
          htext]
  · have hwritable : ¬ Unwritable call := fun h => hdefault h.1
    rw [if_neg hwritable]
    unfold applyModifier
    split_ifs with hnull hkey hunique hnow hreferences
    all_goals simp_all [modified, named, setsDefault, defaultOf?]

/-- The modifiers of a chain are applied in the reverse of the order in which they are called. -/
theorem foldlM_applyModifier_reverse (modifiers : List Expr.Link) (c : Column) :
    modifiers.reverse.foldlM applyModifier c =
      if ∀ call ∈ modifiers, ¬ Unwritable call then .ok (modified modifiers c)
      else .error .integerBeyondDigitLimit := by
  induction modifiers with
  | nil => simp [modified, pure, Except.pure]
  | cons call rest ih =>
    rw [List.reverse_cons, List.foldlM_append, ih]
    -- the modifier that is called first is applied last, on top of what the others set
    by_cases hrest : ∀ call ∈ rest, ¬ Unwritable call
    · rw [if_pos hrest, Except.ok_bind, List.foldlM_cons, applyModifier_modified]
      by_cases hcall : Unwritable call
      · simp [hcall]
      · simpa [hcall] using hrest
    · have hall : ¬ ∀ other ∈ call :: rest, ¬ Unwritable other := fun h =>
        hrest fun other hother => h other (List.mem_cons_of_mem call hother)
      rw [if_neg hrest, if_neg hall, Except.error_bind]

/-- Whether a modifier can be applied does not depend on the column, so the modifiers of a chain can
be looked at one by one. -/
theorem returns_foldlM_applyModifier (calls : List Expr.Link) (column : Column) :
    Returns (calls.foldlM applyModifier column) ↔ ∀ call ∈ calls, ¬ Unwritable call := by
  rw [← List.reverse_reverse calls, foldlM_applyModifier_reverse]
  split_ifs with hcalls <;> simpa using hcalls

/-- The values that the options of a type give for an enum: those of the last array. -/
def enumOption? (options : List Entry) : Option (List Text) :=
  ((options.filter fun entry : Entry => entry.key = "enum").filterMap
    (·.value.unwrap.elements?)).getLast?.map (·.filterMap Expr.string?)

/-- A column with given options of its type: of the entries with one key the last counts. -/
def optioned (options : List Entry) (c : Column) : Column :=
  { c with
    length := ((lastValue? options "length").map (·.unwrap.number?)).getD c.length
    precision := ((lastValue? options "precision").map (·.unwrap.number?)).getD c.precision
    scale := ((lastValue? options "scale").map (·.unwrap.number?)).getD c.scale
    enumValues := (enumOption? options).or c.enumValues }

theorem lastValue?_concat (options : List Entry) (entry : Entry) (key : Text) :
    lastValue? (options ++ [entry]) key =
      if entry.key = key then some entry.value else lastValue? options key := by
  by_cases h : entry.key = key <;> simp [lastValue?, h]

/-- An entry behind others is applied to what these have made of the column. -/
theorem applyOption_optioned (options : List Entry) (entry : Entry) (c : Column) :
    applyOption (optioned options c) entry = optioned (options ++ [entry]) c := by
  unfold applyOption
  dsimp only
  split_ifs with hlength hprecision hscale henum
  · simp [optioned, lastValue?_concat, enumOption?, hlength]
  · simp [optioned, lastValue?_concat, enumOption?, hprecision]
  · simp [optioned, lastValue?_concat, enumOption?, hscale]
  · cases helements : entry.value.unwrap.elements? <;>
      simp [optioned, lastValue?_concat, enumOption?, henum, helements]
  · simp [optioned, lastValue?_concat, enumOption?, hlength, hprecision, hscale, henum]

theorem foldl_applyOption_eq (options : List Entry) (c : Column) :
    options.foldl applyOption c = optioned options c := by
  induction options using List.reverseRecOn with
  | nil => rfl
  | append_singleton options entry ih =>
    rw [List.foldl_append, ih]
    exact applyOption_optioned options entry c

/-- The order of modifiers matters only among those that set the default and among those that set
the reference. -/
theorem modified_of_perm {modifiers modifiers' : List Expr.Link} (c : Column)
    (h : modifiers'.Perm modifiers)
    (hdefault : modifiers'.filter setsDefault = modifiers.filter setsDefault)
    (hreferences : modifiers'.filter (named "references") = modifiers.filter (named "references")) :
    modified modifiers' c = modified modifiers c := by
  simp only [modified, h.any_eq, ← List.head?_filter, hdefault, hreferences]

/-- The column with the values of the enum that its type names, if it has none of its own. -/
def filled (enums : Enums) (c : Column) : Column :=
  { c with enumValues := c.enumValues.or (enums.get? c.type) }

theorem withEnum_eq_filled (enums : Enums) (c : Column) : c.withEnum enums = c.filled enums := by
  obtain ⟨_, _, _, _, _, _, _, _, _, enumValues, _, _⟩ := c
  cases enumValues <;> rfl

def made (includeComments : Bool) (enums : Enums) (entry : Entry) (type : Expr.Link)
    (modifiers : List Expr.Link) : Column :=
  { filled enums (modified modifiers (applyType { name := entry.key } type)) with
    comments := if includeComments then Comment.documentation? [entry.comments] else none }

/-- The column that an entry declares, from the calls of its chain. -/
theorem ofEntry_eq_of_chained (includeComments : Bool) (enums : Enums) {entry : Entry}
    {type : Expr.Link} {modifiers : List Expr.Link}
    (h : Expr.Chained type modifiers entry.value) :
    ofEntry includeComments enums entry =
      if ∀ call ∈ modifiers, ¬ Unwritable call then
        .ok (made includeComments enums entry type modifiers)
      else .error (.fault .integerBeyondDigitLimit) := by
  rw [ofEntry, Expr.chain_unwrap, h.getLast?_chain, h.dropLast_chain]
  simp only [ofChain, foldlM_applyModifier_reverse]
  by_cases hwritable : ∀ call ∈ modifiers, ¬ Unwritable call
  · rw [if_pos hwritable, if_pos hwritable, made, applyType, foldl_applyOption_eq]
    simp only [withEnum_eq_filled]
    cases includeComments <;> rfl
  · rw [if_neg hwritable, if_neg hwritable]

def optionsOf (type : Expr.Link) : List Entry := (options? type.arguments).getD []

/-- What the calls of a chain say of the column that is made by them: a modifier that only has to
occur, the first of those that set the default or the reference, and the type call for the rest. -/
structure MadeBy (type : Expr.Link) (modifiers : List Expr.Link) (enums : Enums) (c : Column) :
    Prop where
  nullable : c.nullable = false ↔ ∃ call ∈ modifiers, call.name = some "notNull"
  primaryKey : c.primaryKey = true ↔ ∃ call ∈ modifiers, call.name = some "primaryKey"
  unique : c.unique = true ↔ ∃ call ∈ modifiers, call.name = some "unique"
  defaultValue : c.defaultValue = (modifiers.find? setsDefault).bind defaultOf?
  references : c.references = (modifiers.find? (named "references")).bind fun call =>
    ColumnReference.ofArguments? call.arguments
  type_eq : c.type = type.name.getD "unknown"
  length : c.length = (lastValue? (optionsOf type) "length").bind (·.unwrap.number?)
  precision : c.precision = (lastValue? (optionsOf type) "precision").bind (·.unwrap.number?)
  scale : c.scale = (lastValue? (optionsOf type) "scale").bind (·.unwrap.number?)
  enumValues : c.enumValues = (enumOption? (optionsOf type)).or (enums.get? c.type)

/-- The column that an entry makes is the one that its modifiers say. -/
theorem madeBy_made (includeComments : Bool) (enums : Enums) (entry : Entry) (type : Expr.Link)
    (modifiers : List Expr.Link) :
    MadeBy type modifiers enums (made includeComments enums entry type modifiers) := by
  have hnone {α β : Type} (o : Option α) (f : α → Option β) : (o.map f).getD none = o.bind f := by
    cases o <;> rfl
  rw [made, applyType, foldl_applyOption_eq]
  exact {
    nullable := by simp [modified, optioned, filled, named]
    primaryKey := by simp [modified, optioned, filled, named]
    unique := by simp [modified, optioned, filled, named]
    defaultValue := hnone _ _
    references := hnone _ _
    type_eq := rfl
    length := hnone _ _
    precision := hnone _ _
    scale := hnone _ _
    enumValues := by simp [modified, optioned, filled, optionsOf] }

/-- A chain is read from the outermost call inward. It makes a column unless a default among its
modifiers cannot be written; the column is made by the calls as described, has the key of the entry
as its name and the comments before it, and stays the same when modifiers change places, as long as
those that set the default keep their order, and likewise those that set the reference. -/
theorem ofEntry_of_chained (includeComments : Bool) (enums : Enums) {entry : Entry}
    {type : Expr.Link} {modifiers : List Expr.Link}
    (h : Expr.Chained type modifiers entry.value) :
    entry.value.chain = modifiers.reverse ++ [type] ∧
    (Returns (ofEntry includeComments enums entry) ↔ ∀ call ∈ modifiers, ¬ Unwritable call) ∧
    (∀ c, ofEntry includeComments enums entry = .ok c →
      c.name = entry.key ∧ MadeBy type modifiers enums c ∧
      c.comments = if includeComments then Comment.documentation? [entry.comments] else none) ∧
    ∀ (entry' : Entry) (modifiers' : List Expr.Link),
      Expr.Chained type modifiers' entry'.value →
      entry'.key = entry.key → entry'.comments = entry.comments →
      modifiers'.Perm modifiers →
      modifiers'.filter setsDefault = modifiers.filter setsDefault →
      modifiers'.filter (named "references") = modifiers.filter (named "references") →
      ofEntry includeComments enums entry' = ofEntry includeComments enums entry := by
  have hentry := ofEntry_eq_of_chained includeComments enums h
  refine ⟨h.chain_eq, ?_, ?_, ?_⟩
  · rw [hentry]
    split_ifs with hwritable <;> simpa using hwritable
  · intro c hc
    rw [hentry] at hc
    split_ifs at hc with hwritable
    cases hc
    refine ⟨?_, madeBy_made includeComments enums entry type modifiers, rfl⟩
    rw [made, applyType, foldl_applyOption_eq]
    rfl
  · intro entry' modifiers' h' hkey hcomments hperm hdefault hreferences
    have hall : (∀ call ∈ modifiers', ¬ Unwritable call) ↔ ∀ call ∈ modifiers, ¬ Unwritable call :=
      forall_congr' fun call => imp_congr_left hperm.mem_iff
    have hmade : made includeComments enums entry' type modifiers' =
        made includeComments enums entry type modifiers := by
      rw [made, made, hkey, hcomments, modified_of_perm _ hperm hdefault hreferences]
    rw [ofEntry_eq_of_chained includeComments enums h', hentry, hmade]
    simp only [hall]

def stateArguments : List Expr := [.string default "state",
  .object default [⟨default, "length", .number default (.integer 20), []⟩]]

/-- The entry of a column with given modifiers, in parentheses. -/
def stateEntry (calls : List (Text × List Expr)) : Entry :=
  ⟨default, "state", .parenthesized default
    ((Expr.call default (.identifier default "varchar") stateArguments).withMethods calls), []⟩

theorem chained_stateEntry (calls : List (Text × List Expr)) :
    Expr.Chained ⟨some "varchar", stateArguments⟩
      (calls.map fun called => ⟨some called.1, called.2⟩) (stateEntry calls).value :=
  .parenthesized default (Expr.Chained.withMethods
    (.base default stateArguments (Expr.unchained_identifier default "varchar")) calls)

/-- Modifiers two of which set a default and two a reference. -/
def stateModifiers : List (Text × List Expr) := [
  ("default", [.string default "new"]), ("defaultNow", []),
  ("references", [.string default "orders"]), ("references", [.function default []
    (.memberAccess default (.identifier default "orders") "id")]), ("notNull", [])]

def movedModifiers : List (Text × List Expr) := [2, 4, 0, 1, 3].filterMap (stateModifiers[·]?)

/-- A column with modifiers in two orders. -/
theorem ofEntry_of_chained_stateEntry :
    (∃ c, ofEntry true [] (stateEntry stateModifiers) = .ok c ∧
      c.defaultValue = some ("new" : Text) ∧ c.references = none ∧ c.nullable = false ∧
      c.length = some (.integer 20)) ∧
    ofEntry true [] (stateEntry movedModifiers) = ofEntry true [] (stateEntry stateModifiers) := by
  obtain ⟨-, hreturns, hmade, hmoved⟩ :=
    ofEntry_of_chained true [] (chained_stateEntry stateModifiers)
  obtain ⟨c, hc⟩ := hreturns.mpr (by decide)
  obtain ⟨-, hcalls, -⟩ := hmade c hc
  have hplaces : [2, 4, 0, 1, 3].Perm [0, 1, 2, 3, 4] := by decide
  refine ⟨⟨c, hc, hcalls.defaultValue, hcalls.references, hcalls.nullable.mpr (by decide),
    hcalls.length⟩, ?_⟩
  exact hmoved _ _ (chained_stateEntry movedModifiers) rfl rfl
    ((hplaces.filterMap (stateModifiers[·]?)).map _) rfl rfl

/-- A default that counts, and behind it one with more digits than are written. -/
def unwritableModifiers : List (Text × List Expr) := [
  ("default", [.string default "new"]),
  ("default", [.number default (.integer (Nat.pow 10 Numeral.digitLimit : Nat))])]

/-- The second default takes the column with it, although the first one settles the default. -/
theorem not_madeBy_unwritableModifiers :
    let modifiers : List Expr.Link :=
      unwritableModifiers.map fun called => ⟨some called.1, called.2⟩
    Expr.Chained ⟨some "varchar", stateArguments⟩ modifiers (stateEntry unwritableModifiers).value ∧
    (modifiers.find? setsDefault).bind defaultOf? = some ("new" : Text) ∧
    ¬ ∃ c, ofEntry true [] (stateEntry unwritableModifiers) = .ok c ∧
      MadeBy ⟨some "varchar", stateArguments⟩ modifiers [] c := by
  intro modifiers
  have hchained := chained_stateEntry unwritableModifiers
  refine ⟨hchained, rfl, ?_⟩
  rintro ⟨c, hc, -⟩
  rw [ofEntry_eq_of_chained true [] hchained] at hc
  split_ifs at hc with hwritable
  have hlast : Unwritable ⟨some "default",
      [.number default (.integer (Nat.pow 10 Numeral.digitLimit : Nat))]⟩ :=
    ⟨rfl, _, [], default, _, rfl, rfl, Nat.le_of_eq (Int.natAbs_natCast _).symm⟩
  exact hwritable _ (.tail _ (.head _)) hlast

end Column
end SchemaAtlas
