import Mathlib.Data.List.Forall2
import SchemaAtlas.Proofs.Expr.Chained

/-!
# Expressions that are rewritten inside

A change of expressions may be made in any number of places: at an expression itself, in the object
of a member, in the arguments of a call, in the members of an array or an object, in what a function
returns. All other texts and lines stay. If the change shows nothing but parts that are changed
likewise once parentheses are stripped, the same holds of what is rewritten, and whoever reads an
expression without its parentheses finds the same there.
-/

namespace SchemaAtlas

variable {α β : Type}

theorem forall₂_trans {R : α → α → Prop} (hR : ∀ a b c, R a b → R b c → R a c) {as bs cs : List α}
    (h : List.Forall₂ R as bs) (h' : List.Forall₂ R bs cs) : List.Forall₂ R as cs := by
  induction h generalizing cs with
  | nil =>
    cases h'
    exact .nil
  | cons hab _ ih =>
    cases h' with
    | cons hbc h' => exact .cons (hR _ _ _ hab hbc) (ih h')

/-- One member of a list is replaced by another that is related to it. -/
theorem forall₂_replace {R : α → α → Prop} (hR : ∀ a, R a a) {a a' : α} (h : R a a')
    (before after : List α) :
    List.Forall₂ R (before ++ a :: after) (before ++ a' :: after) := by
  induction before with
  | nil => exact .cons h (List.forall₂_same.mpr fun b _ => hR b)
  | cons b before ih => exact .cons (hR b) ih

/-- What is found first in one of two lists is related to what is found first in the other. -/
theorem find?_rel_of_forall₂ {R : α → β → Prop} {p : α → Bool} {q : β → Bool} {as : List α}
    {bs : List β} (h : List.Forall₂ R as bs) (hpq : ∀ a b, R a b → q b = p a) :
    Option.Rel R (as.find? p) (bs.find? q) := by
  induction h with
  | nil => exact .none
  | @cons a b as bs hab _ ih =>
    rw [List.find?_cons, List.find?_cons, hpq a b hab]
    cases p a with
    | false => exact ih
    | true => exact .some hab

theorem getElem?_rel_of_forall₂ {R : α → β → Prop} {as : List α} {bs : List β}
    (h : List.Forall₂ R as bs) (i : Nat) : Option.Rel R as[i]? bs[i]? := by
  induction h generalizing i with
  | nil => exact .none
  | cons hab _ ih =>
    cases i with
    | zero => exact .some hab
    | succ i => exact ih i

theorem head?_rel_of_forall₂ {R : α → β → Prop} {as : List α} {bs : List β}
    (h : List.Forall₂ R as bs) : Option.Rel R as.head? bs.head? := by
  cases h with
  | nil => exact .none
  | cons hab _ => exact .some hab

theorem getLast?_rel_of_forall₂ {R : α → β → Prop} {as : List α} {bs : List β}
    (h : List.Forall₂ R as bs) : Option.Rel R as.getLast? bs.getLast? := by
  rw [List.getLast?_eq_getElem?, List.getLast?_eq_getElem?, h.length_eq]
  exact getElem?_rel_of_forall₂ h _

theorem forall₂_dropLast {R : α → β → Prop} {as : List α} {bs : List β}
    (h : List.Forall₂ R as bs) : List.Forall₂ R as.dropLast bs.dropLast := by
  rw [List.dropLast_eq_take, List.dropLast_eq_take, h.length_eq]
  exact List.forall₂_take _ h

theorem isNone_eq_of_rel {R : α → β → Prop} {a : Option α} {b : Option β} (h : Option.Rel R a b) :
    b.isNone = a.isNone := by
  cases h <;> rfl

theorem rel_map_of_rel {γ δ : Type} {R : α → β → Prop} {S : γ → δ → Prop} {f : α → γ} {g : β → δ}
    {a : Option α} {b : Option β} (h : Option.Rel R a b) (hfg : ∀ a b, R a b → S (f a) (g b)) :
    Option.Rel S (a.map f) (b.map g) := by
  cases h with
  | none => exact .none
  | some hab => exact .some (hfg _ _ hab)

theorem rel_bind_of_rel {γ δ : Type} {R : α → β → Prop} {S : γ → δ → Prop} {f : α → Option γ}
    {g : β → Option δ} {a : Option α} {b : Option β} (h : Option.Rel R a b)
    (hfg : ∀ a b, R a b → Option.Rel S (f a) (g b)) : Option.Rel S (a.bind f) (b.bind g) := by
  cases h with
  | none => exact .none
  | some hab => exact hfg _ _ hab

theorem bind_eq_of_rel {γ : Type} {R : α → β → Prop} {f : α → Option γ} {g : β → Option γ}
    {a : Option α} {b : Option β} (h : Option.Rel R a b) (hfg : ∀ a b, R a b → g b = f a) :
    b.bind g = a.bind f := by
  cases h with
  | none => rfl
  | some hab => exact hfg _ _ hab

theorem isSome_bind_eq_of_rel {γ : Type} {R : α → α → Prop} {f : α → Option γ} {a a' : Option α}
    (h : Option.Rel R a a') (hf : ∀ a a', R a a' → (f a').isSome = (f a).isSome) :
    (a'.bind f).isSome = (a.bind f).isSome := by
  cases h with
  | none => rfl
  | some h => exact hf _ _ h

theorem map_eq_of_rel {γ : Type} {R : α → β → Prop} {f : α → γ} {g : β → γ} {a : Option α}
    {b : Option β} (h : Option.Rel R a b) (hfg : ∀ a b, R a b → g b = f a) :
    b.map g = a.map f := by
  cases h with
  | none => rfl
  | some hab => exact congrArg some (hfg _ _ hab)

theorem filterMap_eq_of_forall₂ {γ : Type} {R : α → β → Prop} {f : α → Option γ} {g : β → Option γ}
    {as : List α} {bs : List β} (h : List.Forall₂ R as bs) (hfg : ∀ a b, R a b → g b = f a) :
    bs.filterMap g = as.filterMap f := by
  induction h with
  | nil => rfl
  | cons hab _ ih => rw [List.filterMap_cons, List.filterMap_cons, hfg _ _ hab, ih]

namespace Expr

/-- An expression after any number of changes, each at some place in it. A callee and a statement
keep their form, so that a change is never made to them as a whole if it would change that. -/
inductive Rewritten (change : Expr → Expr → Prop) : Expr → Expr → Prop
  | refl (e : Expr) : Rewritten change e e
  | trans {e e' e'' : Expr} (h : Rewritten change e e') (h' : Rewritten change e' e'') :
      Rewritten change e e''
  | here {e e' : Expr} (h : change e e') : Rewritten change e e'
  | object (x : Extent) (property : Text) {e e' : Expr} (h : Rewritten change e e') :
      Rewritten change (.memberAccess x e property) (.memberAccess x e' property)
  | callee (x : Extent) (arguments : List Expr) {e e' : Expr} (h : Rewritten change e e')
      (hform : e'.form = e.form) :
      Rewritten change (.call x e arguments) (.call x e' arguments)
  | argument (x : Extent) (callee : Expr) (before after : List Expr) {e e' : Expr}
      (h : Rewritten change e e') : Rewritten change (.call x callee (before ++ e :: after))
        (.call x callee (before ++ e' :: after))
  | substitution (x : Extent) (raw : Text) (before after : List Expr) {e e' : Expr}
      (h : Rewritten change e e') : Rewritten change (.template x raw (before ++ e :: after))
        (.template x raw (before ++ e' :: after))
  | element (x : Extent) (before after : List Expr) {e e' : Expr} (h : Rewritten change e e') :
      Rewritten change (.array x (before ++ e :: after)) (.array x (before ++ e' :: after))
  | value (x : Extent) (before after : List Entry) (entry : Entry) {e' : Expr}
      (h : Rewritten change entry.value e') :
      Rewritten change (.object x (before ++ entry :: after))
        (.object x (before ++ { entry with value := e' } :: after))
  | body (x : Extent) (parameters : List Text) {e e' : Expr} (h : Rewritten change e e') :
      Rewritten change (.function x parameters e) (.function x parameters e')
  | parenthesized (x : Extent) {e e' : Expr} (h : Rewritten change e e') :
      Rewritten change (.parenthesized x e) (.parenthesized x e')
  | statement (x : Extent) (before after : List Expr) {e e' : Expr} (h : Rewritten change e e')
      (hform : e'.form = e.form) :
      Rewritten change (.block x (before ++ e :: after)) (.block x (before ++ e' :: after))
  | returned (x : Extent) {e e' : Expr} (h : Rewritten change e e') :
      Rewritten change (.returned x (some e)) (.returned x (some e'))

/-- Two expressions of one form, in no parentheses, that agree but for their parts: these are related
by `R`, and the entries of objects by `Q`. -/
inductive SameNode (R : Expr → Expr → Prop) (Q : List Entry → List Entry → Prop) :
    Expr → Expr → Prop
  | identifier (x : Extent) (name : Text) :
      SameNode R Q (.identifier x name) (.identifier x name)
  | memberAccess (x : Extent) (property : Text) {e e' : Expr} (h : R e e') :
      SameNode R Q (.memberAccess x e property) (.memberAccess x e' property)
  | call (x : Extent) {callee callee' : Expr} {arguments arguments' : List Expr}
      (hcallee : R callee callee') (hform : callee'.form = callee.form)
      (harguments : List.Forall₂ R arguments arguments') :
      SameNode R Q (.call x callee arguments) (.call x callee' arguments')
  | string (x : Extent) (value : Text) : SameNode R Q (.string x value) (.string x value)
  | template (x : Extent) (raw : Text) {es es' : List Expr} (h : List.Forall₂ R es es') :
      SameNode R Q (.template x raw es) (.template x raw es')
  | number (x : Extent) (value : Number) : SameNode R Q (.number x value) (.number x value)
  | boolean (x : Extent) (value : Bool) : SameNode R Q (.boolean x value) (.boolean x value)
  | array (x : Extent) {es es' : List Expr} (h : List.Forall₂ R es es') :
      SameNode R Q (.array x es) (.array x es')
  | object (x : Extent) {entries entries' : List Entry} (h : Q entries entries') :
      SameNode R Q (.object x entries) (.object x entries')
  | function (x : Extent) (parameters : List Text) {e e' : Expr} (h : R e e') :
      SameNode R Q (.function x parameters e) (.function x parameters e')
  | block (x : Extent) {es es' : List Expr}
      (h : List.Forall₂ (fun e e' => R e e' ∧ e'.form = e.form) es es') :
      SameNode R Q (.block x es) (.block x es')
  | returned (x : Extent) {e e' : Option Expr} (h : Option.Rel R e e') :
      SameNode R Q (.returned x e) (.returned x e')
  | other (x : Extent) (kind : String) : SameNode R Q (.other x kind) (.other x kind)

/-- Nothing is left to strip from an unwrapped expression. -/
theorem unwrap_ne_parenthesized (e : Expr) (x : Extent) (inner : Expr) :
    e.unwrap ≠ .parenthesized x inner := by
  induction e using unwrap.induct with
  | case1 y e ih => exact ih
  | case2 e h =>
    intro he
    cases e with
    | parenthesized y e => exact h y e rfl
    | _ => cases he

section SameNode

variable {R : Expr → Expr → Prop} {Q : List Entry → List Entry → Prop} {e e' e'' : Expr}

theorem SameNode.refl_unwrap (hR : ∀ e, R e e) (hQ : ∀ entries, Q entries entries) (e : Expr) :
    SameNode R Q e.unwrap e.unwrap := by
  have hall (es : List Expr) : List.Forall₂ R es es := List.forall₂_same.mpr fun e _ => hR e
  cases he : e.unwrap with
  | parenthesized x inner => exact absurd he (e.unwrap_ne_parenthesized x inner)
  | identifier x name => exact .identifier x name
  | memberAccess x object property => exact .memberAccess x property (hR object)
  | call x callee arguments => exact .call x (hR callee) rfl (hall arguments)
  | string x value => exact .string x value
  | template x raw es => exact .template x raw (hall es)
  | number x value => exact .number x value
  | boolean x value => exact .boolean x value
  | array x es => exact .array x (hall es)
  | object x entries => exact .object x (hQ entries)
  | function x parameters body => exact .function x parameters (hR body)
  | block x es => exact .block x (List.forall₂_same.mpr fun e _ => ⟨hR e, rfl⟩)
  | returned x result =>
    cases result with
    | none => exact .returned x .none
    | some e => exact .returned x (.some (hR e))
  | other x kind => exact .other x kind

/-- Nodes of one kind with related parts, taken one behind the other. -/
theorem SameNode.trans (hR : ∀ a b c, R a b → R b c → R a c)
    (hQ : ∀ as bs cs, Q as bs → Q bs cs → Q as cs) (h : SameNode R Q e e')
    (h' : SameNode R Q e' e'') : SameNode R Q e e'' := by
  cases h with
  | memberAccess x property h => cases h' with | memberAccess _ _ h' =>
    exact .memberAccess x property (hR _ _ _ h h')
  | call x hcallee hform harguments => cases h' with | call _ hcallee' hform' harguments' =>
    exact .call x (hR _ _ _ hcallee hcallee') (hform'.trans hform)
      (forall₂_trans hR harguments harguments')
  | template x raw h => cases h' with | template _ _ h' =>
    exact .template x raw (forall₂_trans hR h h')
  | array x h => cases h' with | array _ h' => exact .array x (forall₂_trans hR h h')
  | object x h => cases h' with | object _ h' => exact .object x (hQ _ _ _ h h')
  | function x parameters h => cases h' with | function _ _ h' =>
    exact .function x parameters (hR _ _ _ h h')
  | block x h => cases h' with | block _ h' =>
    refine .block x (forall₂_trans (fun a b c hab hbc => ?_) h h')
    exact ⟨hR _ _ _ hab.1 hbc.1, hbc.2.trans hab.2⟩
  | returned x h => cases h' with | returned _ h' =>
    cases h with
    | none => exact .returned x h'
    | some h => cases h' with | some h' => exact .returned x (.some (hR _ _ _ h h'))
  | identifier | string | number | boolean | other => exact h'

/-- What is rewritten agrees but for its parts once parentheses are stripped, if every change does,
and if what is found in the entries of objects bears the rewriting of a value. -/
theorem Rewritten.sameNode {change : Expr → Expr → Prop}
    (hchange : ∀ e e', change e e' → SameNode (Rewritten change) Q e.unwrap e'.unwrap)
    (hrefl : ∀ entries, Q entries entries) (htrans : ∀ as bs cs, Q as bs → Q bs cs → Q as cs)
    (hvalue : ∀ before after (entry : Entry) e', Rewritten change entry.value e' →
      Q (before ++ entry :: after) (before ++ { entry with value := e' } :: after))
    (h : Rewritten change e e') : SameNode (Rewritten change) Q e.unwrap e'.unwrap := by
  have hall (es : List Expr) : List.Forall₂ (Rewritten change) es es :=
    List.forall₂_same.mpr fun e _ => .refl e
  -- every constructor but two names a place inside, where the rewriting itself is the relation
  induction h with
  | refl e => exact .refl_unwrap .refl hrefl e
  | trans _ _ ih ih' => exact ih.trans (fun _ _ _ => .trans) htrans ih'
  | here h => exact hchange _ _ h
  | object x property h => exact .memberAccess x property h
  | callee x arguments h hform => exact .call x h hform (hall arguments)
  | argument x callee before after h =>
    exact .call x (.refl callee) rfl (forall₂_replace .refl h before after)
  | substitution x raw before after h =>
    exact .template x raw (forall₂_replace .refl h before after)
  | element x before after h => exact .array x (forall₂_replace .refl h before after)
  | value x before after entry h => exact .object x (hvalue before after entry _ h)
  | body x parameters h => exact .function x parameters h
  | parenthesized x _ ih => exact ih
  | statement x before after h hform =>
    exact .block x (forall₂_replace (fun e => ⟨.refl e, rfl⟩) ⟨h, hform⟩ before after)
  | returned x h => exact .returned x (.some h)

end SameNode

/-- What is rewritten keeps its form, if every change does. -/
theorem Rewritten.form_eq {change : Expr → Expr → Prop} {e e' : Expr}
    (hchange : ∀ e e', change e e' → e'.form = e.form) (h : Rewritten change e e') :
    e'.form = e.form := by
  induction h with
  | trans _ _ ih ih' => exact ih'.trans ih
  | here h => exact hchange _ _ h
  | _ => rfl

/-- A relation that readers respect who strip parentheses: related expressions agree but for their
parts, and so do the last values of a key in objects. -/
structure Faithful (R : Expr → Expr → Prop) (Q : List Entry → List Entry → Prop) : Prop where
  node : ∀ {e e'}, R e e' → SameNode R Q e.unwrap e'.unwrap
  last : ∀ {entries entries'}, Q entries entries' → ∀ key,
    Option.Rel R (lastValue? entries key) (lastValue? entries' key)

/-- Entries with the same keys in the same order, and with related values. -/
def Matching (R : Expr → Expr → Prop) : List Entry → List Entry → Prop :=
  List.Forall₂ fun entry entry' => entry'.key = entry.key ∧ R entry.value entry'.value

namespace Matching

variable {R : Expr → Expr → Prop}

theorem refl (hR : ∀ e, R e e) (entries : List Entry) : Matching R entries entries :=
  List.forall₂_same.mpr fun entry _ => ⟨rfl, hR entry.value⟩

theorem trans (hR : ∀ a b c, R a b → R b c → R a c) {as bs cs : List Entry}
    (h : Matching R as bs) (h' : Matching R bs cs) : Matching R as cs :=
  forall₂_trans (fun _ _ _ hab hbc => ⟨hbc.1.trans hab.1, hR _ _ _ hab.2 hbc.2⟩) h h'

theorem value (hR : ∀ e, R e e) (before after : List Entry) (entry : Entry) {e' : Expr}
    (h : R entry.value e') :
    Matching R (before ++ entry :: after) (before ++ { entry with value := e' } :: after) :=
  forall₂_replace (fun entry => ⟨rfl, hR entry.value⟩) ⟨rfl, h⟩ before after

/-- The last values of a key are related, too. -/
theorem last {entries entries' : List Entry} (h : Matching R entries entries') (key : Text) :
    Option.Rel R (lastValue? entries key) (lastValue? entries' key) := by
  have hfound := find?_rel_of_forall₂ (List.forall₂_reverse_iff.mpr h)
    (p := fun entry => decide (entry.key = key)) (q := fun entry => decide (entry.key = key))
    fun _ _ hentry => by rw [hentry.1]
  exact rel_map_of_rel hfound fun _ _ hentry => hentry.2

end Matching

/-- Two calls of a chain with one name and related arguments. -/
structure Link.Related (R : Expr → Expr → Prop) (call call' : Link) : Prop where
  name_eq : call'.name = call.name
  arguments : List.Forall₂ R call.arguments call'.arguments

section Read

variable {R : Expr → Expr → Prop} {Q : List Entry → List Entry → Prop} {e e' : Expr}

namespace SameNode

theorem extent_eq (h : SameNode R Q e e') : e'.extent = e.extent := by
  cases h <;> rfl

theorem text_eq (h : SameNode R Q e e') : e'.text = e.text := congrArg Extent.text h.extent_eq

theorem form_eq (h : SameNode R Q e e') : e'.form = e.form := by
  cases h <;> rfl

theorem invokedName?_eq (h : SameNode R Q e e') : e'.invokedName? = e.invokedName? := by
  cases h <;> rfl

theorem string?_eq (h : SameNode R Q e e') : e'.string? = e.string? := by
  cases h <;> rfl

theorem number?_eq (h : SameNode R Q e e') : e'.number? = e.number? := by
  cases h <;> rfl

theorem elements? (h : SameNode R Q e e') :
    Option.Rel (List.Forall₂ R) e.elements? e'.elements? := by
  cases h with
  | array x h => exact .some h
  | _ => exact .none

theorem properties? (h : SameNode R Q e e') : Option.Rel Q e.properties? e'.properties? := by
  cases h with
  | object x h => exact .some h
  | _ => exact .none

end SameNode

theorem unwrap_of_form_ne {e : Expr} (h : e.form ≠ "Parenthesized") : e.unwrap = e := by
  cases e with
  | parenthesized x e => exact absurd rfl h
  | _ => rfl

namespace Faithful

variable (hR : Faithful R Q)

include hR

/-- What keeps its form is in parentheses before and after, or agrees but for its parts as it
stands. -/
theorem node_of_form_eq (h : R e e') (hform : e'.form = e.form) :
    (∃ x x' inner inner', e = .parenthesized x inner ∧ e' = .parenthesized x' inner') ∨
      SameNode R Q e e' := by
  by_cases hparenthesized : e.form = "Parenthesized"
  · left
    have hparenthesized' := hform.trans hparenthesized
    cases e <;> simp only [form, String.reduceEq] at hparenthesized
    cases e' <;> simp only [form, String.reduceEq] at hparenthesized'
    exact ⟨_, _, _, _, rfl, rfl⟩
  · right
    have hnode := hR.node h
    rwa [unwrap_of_form_ne hparenthesized,
      unwrap_of_form_ne (hform ▸ hparenthesized : e'.form ≠ _)] at hnode

theorem invokedName?_eq (h : R e e') (hform : e'.form = e.form) :
    e'.invokedName? = e.invokedName? := by
  rcases hR.node_of_form_eq h hform with ⟨x, x', inner, inner', rfl, rfl⟩ | hnode
  · rfl
  · exact hnode.invokedName?_eq

/-- Related expressions are chains of related calls. -/
theorem chain (h : SameNode R Q e.unwrap e') :
    List.Forall₂ (Link.Related R) e.chain e'.chain := by
  -- a call goes on with its object if its callee is a member, and ends the chain if it is not; the
  -- callee keeps its form, so both chains go on or end together
  induction e using chain.induct generalizing e' with
  | case1 x e ih => exact ih h
  | case2 x y receiver property arguments ih =>
    cases h with
    | call _ hcallee hform harguments =>
      rcases hR.node_of_form_eq hcallee hform with ⟨_, _, _, _, hparen, -⟩ | hnode
      · cases hparen
      · cases hnode with
        | memberAccess _ _ hreceiver =>
          have hrest := ih (hR.node hreceiver)
          rw [chain_unwrap] at hrest
          exact .cons ⟨rfl, harguments⟩ hrest
  | case3 x callee arguments hcallee =>
    cases h with
    | @call _ _ callee' _ arguments' hrelated hform harguments =>
      have hname := hR.invokedName?_eq hrelated hform
      have hchain : (Expr.call x callee' arguments').chain =
          [⟨callee'.invokedName?, arguments'⟩] := by
        cases callee' with
        | memberAccess y receiver property =>
          cases callee <;> simp only [form, String.reduceEq] at hform
          exact absurd rfl (hcallee _ _ _)
        | _ => rfl
      have hchain' : (Expr.call x callee arguments).chain =
          [⟨callee.invokedName?, arguments⟩] := by
        cases callee with
        | memberAccess y receiver property => exact absurd rfl (hcallee _ _ _)
        | _ => rfl
      rw [hchain, hchain']
      exact .cons ⟨hname, harguments⟩ .nil
  | case4 e hparenthesized _ hcall =>
    cases e with
    | parenthesized x e => exact absurd rfl (hparenthesized x e)
    | call x callee arguments => exact absurd rfl (hcall x callee arguments)
    | _ => cases h; exact .nil

theorem firstReturned? {es es' : List Expr}
    (h : List.Forall₂ (fun e e' => R e e' ∧ e'.form = e.form) es es') :
    Option.Rel (SameNode R Q) (Expr.firstReturned? es) (Expr.firstReturned? es') := by
  induction h with
  | nil => exact .none
  | cons hhead _ ih =>
    rcases hR.node_of_form_eq hhead.1 hhead.2 with ⟨_, _, _, _, rfl, rfl⟩ | hnode
    · exact ih
    · cases hnode with
      | returned x hresult =>
        cases hresult with
        | none => exact .none
        | some hresult => exact .some (hR.node hresult)
      | _ => exact ih

/-- What functions with related bodies return is the same but for its parts. -/
theorem result? (h : R e e') : Option.Rel (SameNode R Q) e.result? e'.result? := by
  have hnode := hR.node h
  unfold Expr.result?
  generalize e.unwrap = u, e'.unwrap = u' at hnode
  cases hnode with
  | block x hstatements => exact hR.firstReturned? hstatements
  | _ => exact .some (by constructor <;> assumption)

theorem referencedName?_eq (h : R e e') : e'.referencedName? = e.referencedName? := by
  have hnode := hR.node h
  unfold Expr.referencedName?
  generalize e.unwrap = u, e'.unwrap = u' at hnode
  cases hnode <;> rfl

end Faithful

/-! ### Readers that look at an expression in its parentheses -/

theorem string?_eq_ite (e : Expr) :
    e.string? = if e.string?.isSome then e.unwrap.string? else none := by
  cases e <;> rfl

theorem elements?_eq_ite (e : Expr) :
    e.elements? = if e.elements?.isSome then e.unwrap.elements? else none := by
  cases e <;> rfl

theorem isSome_string?_eq (e : Expr) : e.string?.isSome = (e.form == "StringLiteral") := by
  cases e <;> simp [string?, form]

theorem map_string?_isSome_eq (hform : ∀ e e', R e e' → e'.form = e.form) {es es' : List Expr}
    (h : List.Forall₂ R es es') :
    es'.map (·.string?.isSome) = es.map (·.string?.isSome) := by
  induction h with
  | nil => rfl
  | cons hhead _ ih =>
    rw [List.map_cons, List.map_cons, isSome_string?_eq, isSome_string?_eq, hform _ _ hhead, ih]

theorem isSome_properties?_eq (e : Expr) :
    e.properties?.isSome = (e.form == "ObjectLiteral") := by
  cases e <;> simp [properties?, form]

theorem isSome_elements?_eq (e : Expr) : e.elements?.isSome = (e.form == "ArrayLiteral") := by
  cases e <;> simp [elements?, form]

namespace Faithful

variable (hR : Faithful R Q)

include hR

theorem string?_eq (h : R e e') (hseen : e'.string?.isSome = e.string?.isSome) :
    e'.string? = e.string? := by
  rw [e'.string?_eq_ite, e.string?_eq_ite, hseen, (hR.node h).string?_eq]

theorem elements? (h : R e e') (hseen : e'.elements?.isSome = e.elements?.isSome) :
    Option.Rel (List.Forall₂ R) e.elements? e'.elements? := by
  rw [e'.elements?_eq_ite, e.elements?_eq_ite, hseen]
  split_ifs with harray
  · exact (hR.node h).elements?
  · exact .none

/-- The string literals of a list are the same if they stand in the same places. -/
theorem filterMap_string?_eq {es es' : List Expr} (h : List.Forall₂ R es es')
    (hseen : es'.map (·.string?.isSome) = es.map (·.string?.isSome)) :
    es'.filterMap string? = es.filterMap string? := by
  induction h with
  | nil => rfl
  | cons hhead _ ih =>
    rw [List.map_cons, List.map_cons, List.cons.injEq] at hseen
    rw [List.filterMap_cons, List.filterMap_cons, hR.string?_eq hhead hseen.1, ih hseen.2]

end Faithful

end Read

end Expr
end SchemaAtlas
