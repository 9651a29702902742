import SchemaAtlas.Proofs.Column.Modifiers
import SchemaAtlas.Proofs.Expr.Rewritten

/-!
# Columns that are rewritten inside

References and defaults are read without their parentheses, so a rewriting that such readers do not
notice leaves all of a column but what the options of its type say. The numbers among these stay as
well, as long as the options object itself is found in the same place.
-/

namespace SchemaAtlas

open SchemaAtlas.Expr (Faithful Link SameNode)

section Reference

variable {R : Expr → Expr → Prop} {Q : List Entry → List Entry → Prop} (hR : Faithful R Q)
variable {e e' : Expr}

include hR

namespace Expr.Faithful

theorem action?_eq (h : R e e') :
    ReferentialAction.ofExpr? e' = ReferentialAction.ofExpr? e := by
  rw [ReferentialAction.ofExpr?, ReferentialAction.ofExpr?, (hR.node h).string?_eq]

/-- Related expressions refer to the same column. -/
theorem target?_eq (h : R e e') : ColumnReference.ofTarget? e' = ColumnReference.ofTarget? e := by
  have hnode := hR.node h
  unfold ColumnReference.ofTarget?
  generalize e.unwrap = u, e'.unwrap = u' at hnode
  cases hnode with
  | @function x parameters body body' hbody =>
    cases parameters with
    | cons parameter others => rfl
    | nil =>
      have hbody := hR.node hbody
      dsimp only
      generalize body.unwrap = b, body'.unwrap = b' at hbody
      cases hbody with
      | @memberAccess y property object object' hobject =>
        have hobject := hR.node hobject
        dsimp only
        generalize object.unwrap = o, object'.unwrap = o' at hobject
        cases hobject <;> rfl
      | _ => rfl
  | _ => rfl

theorem withActions_eq {actions actions' : List Entry} (h : Q actions actions')
    (reference : ColumnReference) :
    reference.withActions actions' = reference.withActions actions := by
  have haction (key : Text) : (lastValue? actions' key).bind ReferentialAction.ofExpr? =
      (lastValue? actions key).bind ReferentialAction.ofExpr? :=
    bind_eq_of_rel (hR.last h key) fun _ _ => hR.action?_eq
  rw [ColumnReference.withActions, ColumnReference.withActions, haction, haction]

/-- Related arguments give the same reference. -/
theorem reference?_eq {arguments arguments' : List Expr}
    (h : List.Forall₂ R arguments arguments') :
    ColumnReference.ofArguments? arguments' = ColumnReference.ofArguments? arguments := by
  cases h with
  | nil => rfl
  | @cons target _ _ _ htarget hrest =>
    cases hrest with
    | nil => exact hR.target?_eq htarget
    | @cons actions actions' _ _ hactions _ =>
      have hentries := (hR.node hactions).properties?
      simp only [ColumnReference.ofArguments?, hR.target?_eq htarget]
      generalize actions.unwrap.properties? = entries, actions'.unwrap.properties? = entries'
        at hentries
      cases ColumnReference.ofTarget? target with
      | none => rfl
      | some reference =>
        cases hentries with
        | none => rfl
        | some hentries => exact congrArg some (hR.withActions_eq hentries reference)

theorem defaultText?_eq (h : R e e') : defaultText? e' = defaultText? e := by
  have hnode := hR.node h
  unfold defaultText?
  generalize e.unwrap = u, e'.unwrap = u' at hnode
  cases hnode <;> rfl

end Expr.Faithful

end Reference

namespace Column

/-- The arguments of the innermost call, which names the type. -/
def baseArguments (e : Expr) : List Expr := (e.chain.getLast?.map (·.arguments)).getD []

def baseOptions (e : Expr) : List Entry := (options? (baseArguments e)).getD []

def optionsPlace? : List Expr → Option Nat
  | _ :: .object _ _ :: _ => some 1
  | .object _ _ :: _ => some 0
  | _ => none

theorem options?_eq_bind (arguments : List Expr) : options? arguments =
    (optionsPlace? arguments).bind fun i => arguments[i]?.bind (·.unwrap.properties?) := by
  match arguments with
  | [] => rfl
  | [e] => cases e <;> rfl
  | e :: options :: rest => cases options <;> cases e <;> rfl

theorem optionsPlace?_eq_ite (arguments : List Expr) : optionsPlace? arguments =
    if (arguments[1]?.bind Expr.properties?).isSome then some 1
    else if (arguments[0]?.bind Expr.properties?).isSome then some 0 else none := by
  match arguments with
  | [] => rfl
  | [e] => cases e <;> rfl
  | e :: options :: rest => cases options <;> cases e <;> rfl

/-- Where the options stand depends on the forms of the arguments alone. -/
theorem optionsPlace?_eq_of_form {arguments arguments' : List Expr}
    (h : List.Forall₂ (fun e e' => e'.form = e.form) arguments arguments') :
    optionsPlace? arguments' = optionsPlace? arguments := by
  have hseen (i : Nat) : (arguments'[i]?.bind Expr.properties?).isSome =
      (arguments[i]?.bind Expr.properties?).isSome := by
    refine isSome_bind_eq_of_rel (getElem?_rel_of_forall₂ h i) fun e e' hform => ?_
    rw [Expr.isSome_properties?_eq, Expr.isSome_properties?_eq, hform]
  rw [optionsPlace?_eq_ite, optionsPlace?_eq_ite, hseen, hseen]

def enumElements? (options : List Entry) : Option (List Expr) :=
  ((options.filter fun entry : Entry => entry.key = "enum").filterMap
    (·.value.unwrap.elements?)).getLast?

theorem enumOption?_eq_map (options : List Entry) :
    enumOption? options = (enumElements? options).map (·.filterMap Expr.string?) := rfl

def withOptions (options : List Entry) (c : Column) : Column :=
  { c with
    length := (lastValue? options "length").bind (·.unwrap.number?)
    precision := (lastValue? options "precision").bind (·.unwrap.number?)
    scale := (lastValue? options "scale").bind (·.unwrap.number?)
    enumValues := enumOption? options }

/-- The column that an entry declares, but for the options of its type. -/
def plain (includeComments : Bool) (entry : Entry) : Except ColumnProblem Column :=
  match entry.value.chain.getLast? with
  | none => .error (.mismatch (.columnWithoutCall entry.value.unwrap.form))
  | some type =>
    match entry.value.chain.dropLast.foldlM applyModifier
        { name := entry.key, type := type.name.getD "unknown" } with
    | .error fault => .error (.fault fault)
    | .ok column =>
      .ok (if includeComments then
        { column with comments := Comment.documentation? [entry.comments] } else column)

/-- No modifier looks at what the options say. -/
theorem applyModifier_withOptions (options : List Entry) (c : Column) (call : Link) :
    applyModifier (withOptions options c) call =
      withOptions options <$> applyModifier c call := by
  unfold applyModifier
  split_ifs
  · rfl
  · rfl
  · rfl
  · cases call.arguments with
    | nil => rfl
    | cons value rest =>
      dsimp only
      cases defaultText? value <;> rfl
  · rfl
  · rfl
  · rfl

/-- Modifiers and options concern different fields. -/
theorem foldlM_applyModifier_withOptions (options : List Entry) (calls : List Link) (c : Column) :
    calls.foldlM applyModifier (withOptions options c) =
      withOptions options <$> calls.foldlM applyModifier c := by
  induction calls generalizing c with
  | nil => rfl
  | cons call rest ih =>
    rw [List.foldlM_cons, List.foldlM_cons, applyModifier_withOptions]
    cases applyModifier c call with
    | error fault => rfl
    | ok c => exact ih c

theorem applyType_eq_withOptions (name : Text) (type : Link) :
    applyType { name := name } type =
      withOptions (optionsOf type) { name := name, type := type.name.getD "unknown" } := by
  have hnone {α β : Type} (o : Option α) (f : α → Option β) : (o.map f).getD none = o.bind f := by
    cases o <;> rfl
  rw [applyType, foldl_applyOption_eq]
  simp [optioned, withOptions, optionsOf, hnone]

/-- What the options say can be put in last, before an enum is filled in. -/
theorem ofEntry_eq_plain (includeComments : Bool) (enums : Enums) (entry : Entry) :
    ofEntry includeComments enums entry =
      (fun c => filled enums (withOptions (baseOptions entry.value) c)) <$>
        plain includeComments entry := by
  rw [ofEntry, Expr.chain_unwrap, plain, baseOptions, baseArguments]
  cases entry.value.chain.getLast? with
  | none => rfl
  | some type =>
    simp only [ofChain, applyType_eq_withOptions, foldlM_applyModifier_withOptions]
    cases entry.value.chain.dropLast.foldlM applyModifier _ with
    | error fault => rfl
    | ok c =>
      simp only [Except.map_ok, withEnum_eq_filled]
      cases includeComments <;> rfl

end Column

section Column

variable {R : Expr → Expr → Prop} {Q : List Entry → List Entry → Prop} (hR : Faithful R Q)
variable {e e' : Expr}

include hR

namespace Expr.Faithful

open Column

theorem options? {arguments arguments' : List Expr} (h : List.Forall₂ R arguments arguments')
    (hplace : optionsPlace? arguments' = optionsPlace? arguments) :
    Option.Rel Q (Column.options? arguments) (Column.options? arguments') := by
  rw [options?_eq_bind, options?_eq_bind, hplace]
  cases optionsPlace? arguments with
  | none => exact .none
  | some i =>
    rw [Option.bind_some, Option.bind_some]
    exact rel_bind_of_rel (getElem?_rel_of_forall₂ h i) fun _ _ h => (hR.node h).properties?

theorem applyModifier_eq {call call' : Link} (h : Link.Related R call call') (c : Column) :
    applyModifier c call' = applyModifier c call := by
  rw [applyModifier, applyModifier, h.name_eq, hR.reference?_eq h.arguments]
  obtain ⟨name, arguments⟩ := call
  obtain ⟨name', arguments'⟩ := call'
  cases h.arguments with
  | nil => rfl
  | cons hvalue _ => simp only [hR.defaultText?_eq hvalue]

theorem foldlM_applyModifier_eq {calls calls' : List Link}
    (h : List.Forall₂ (Link.Related R) calls calls') (c : Column) :
    calls'.foldlM applyModifier c = calls.foldlM applyModifier c := by
  induction h generalizing c with
  | nil => rfl
  | cons hcall _ ih =>
    rw [List.foldlM_cons, List.foldlM_cons, hR.applyModifier_eq hcall]
    exact congrArg _ (funext ih)

/-- The calls of related expressions are related one by one. -/
theorem chain_of_related (h : R e e') : List.Forall₂ (Link.Related R) e.chain e'.chain := by
  rw [← chain_unwrap e']
  exact hR.chain (hR.node h)

theorem baseArguments (h : R e e') :
    List.Forall₂ R (Column.baseArguments e) (Column.baseArguments e') := by
  have htype := getLast?_rel_of_forall₂ (hR.chain_of_related h)
  unfold Column.baseArguments
  generalize e.chain.getLast? = type, e'.chain.getLast? = type' at htype
  cases htype with
  | none => exact .nil
  | some htype => exact htype.arguments

/-- The options of the type are related, if they stand in the same place. -/
theorem baseOptions (hnil : Q [] []) (h : R e e')
    (hplace : optionsPlace? (Column.baseArguments e') = optionsPlace? (Column.baseArguments e)) :
    Q (Column.baseOptions e) (Column.baseOptions e') := by
  have hoptions := hR.options? (hR.baseArguments h) hplace
  unfold Column.baseOptions
  generalize Column.options? (Column.baseArguments e) = options,
    Column.options? (Column.baseArguments e') = options' at hoptions
  cases hoptions with
  | none => exact hnil
  | some hoptions => exact hoptions

theorem number?_eq {options options' : List Entry} (h : Q options options') (key : Text) :
    (lastValue? options' key).bind (·.unwrap.number?) =
      (lastValue? options key).bind (·.unwrap.number?) :=
  bind_eq_of_rel (hR.last h key) fun _ _ hvalue => (hR.node hvalue).number?_eq

/-- The name of the type, the modifiers and the comments of a column stay. -/
theorem plain_eq (includeComments : Bool) {entry : Entry} (h : R entry.value e') :
    plain includeComments { entry with value := e' } = plain includeComments entry := by
  have hchain := hR.chain_of_related h
  have htype := getLast?_rel_of_forall₂ hchain
  have hmodifiers := forall₂_dropLast hchain
  rw [plain, plain, (hR.node h).form_eq]
  generalize entry.value.chain.getLast? = type, e'.chain.getLast? = type' at htype
  cases htype with
  | none => rfl
  | some htype => simp only [htype.name_eq, hR.foldlM_applyModifier_eq hmodifiers]

end Expr.Faithful

end Column

end SchemaAtlas
