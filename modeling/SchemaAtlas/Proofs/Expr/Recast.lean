import SchemaAtlas.Expr.Basic

/-!
# Expressions in another place

An expression keeps the line on which it starts, and comments at the entries of its objects. To put
it elsewhere, or to drop its comments, changes nothing that a reader of expressions looks at: what it
finds in the expression that is put elsewhere is what it finds in the expression itself, put
elsewhere.
-/

namespace SchemaAtlas

/-- A change of lines, with the texts as they are, and of comments. -/
structure Recasting where
  extent : Extent → Extent
  comments : List Text → List Text
  text_eq : ∀ x, (extent x).text = x.text

/-- All texts and comments stay, but the lines are forgotten. -/
def Recasting.unlined : Recasting := ⟨fun x => ⟨x.text, 0⟩, id, fun _ => rfl⟩

/-- Whether comments stay as they are, if they are asked for. -/
def Recasting.Keeps (r : Recasting) (includeComments : Bool) : Prop :=
  includeComments = true → ∀ comments, r.comments comments = comments

namespace Expr

mutual

/-- The expression with other lines and other comments at its entries. -/
def recast (r : Recasting) : Expr → Expr
  | identifier x name => identifier (r.extent x) name
  | memberAccess x receiver property => memberAccess (r.extent x) (receiver.recast r) property
  | call x callee arguments => call (r.extent x) (callee.recast r) (allRecast r arguments)
  | string x value => string (r.extent x) value
  | template x raw substitutions => template (r.extent x) raw (allRecast r substitutions)
  | number x value => number (r.extent x) value
  | boolean x value => boolean (r.extent x) value
  | array x elements => array (r.extent x) (allRecast r elements)
  | object x properties => object (r.extent x) (entriesRecast r properties)
  | function x parameters body => function (r.extent x) parameters (body.recast r)
  | parenthesized x e => parenthesized (r.extent x) (e.recast r)
  | block x statements => block (r.extent x) (allRecast r statements)
  | returned x e => returned (r.extent x) (resultRecast r e)
  | other x kind => other (r.extent x) kind

def allRecast (r : Recasting) : List Expr → List Expr
  | [] => []
  | e :: es => e.recast r :: allRecast r es

def entriesRecast (r : Recasting) : List Entry → List Entry
  | [] => []
  | ⟨x, key, value, comments⟩ :: entries =>
    ⟨r.extent x, key, value.recast r, r.comments comments⟩ :: entriesRecast r entries

def resultRecast (r : Recasting) : Option Expr → Option Expr
  | none => none
  | some e => some (e.recast r)

end

end Expr

def Property.recast (r : Recasting) (entry : Entry) : Entry :=
  ⟨r.extent entry.extent, entry.key, entry.value.recast r, r.comments entry.comments⟩

def Expr.Link.recast (r : Recasting) (link : Link) : Link :=
  { link with arguments := link.arguments.map (Expr.recast r) }

namespace Expr

variable (r : Recasting)

@[simp] theorem allRecast_eq (es : List Expr) : allRecast r es = es.map (recast r) := by
  induction es with
  | nil => rfl
  | cons e es ih => rw [allRecast, ih, List.map_cons]

@[simp] theorem entriesRecast_eq (entries : List Entry) :
    entriesRecast r entries = entries.map (Property.recast r) := by
  induction entries with
  | nil => rfl
  | cons entry entries ih =>
    rw [entriesRecast, ih, List.map_cons]
    rfl

@[simp] theorem resultRecast_eq (e : Option Expr) :
    resultRecast r e = e.map (recast r) := by
  cases e <;> rfl

@[simp] theorem extent_recast (e : Expr) : (e.recast r).extent = r.extent e.extent := by
  cases e <;> rfl

@[simp] theorem text_recast (e : Expr) : (e.recast r).text = e.text := by
  rw [text, extent_recast, r.text_eq, text]

@[simp] theorem form_recast (e : Expr) : (e.recast r).form = e.form := by
  cases e <;> rfl

@[simp] theorem unwrap_recast (e : Expr) : (e.recast r).unwrap = e.unwrap.recast r := by
  induction e using unwrap.induct with
  | case1 x e ih => exact ih
  | case2 e h =>
    cases e with
    | parenthesized x e => exact absurd rfl (h x e)
    | _ => rfl

@[simp] theorem invokedName?_recast (e : Expr) :
    (e.recast r).invokedName? = e.invokedName? := by
  cases e <;> rfl

@[simp] theorem string?_recast (e : Expr) : (e.recast r).string? = e.string? := by
  cases e <;> rfl

@[simp] theorem number?_recast (e : Expr) : (e.recast r).number? = e.number? := by
  cases e <;> rfl

@[simp] theorem elements?_recast (e : Expr) :
    (e.recast r).elements? = e.elements?.map (List.map (recast r)) := by
  cases e <;> simp [recast, elements?]

@[simp] theorem properties?_recast (e : Expr) :
    (e.recast r).properties? = e.properties?.map (List.map (Property.recast r)) := by
  cases e <;> simp [recast, properties?]

@[simp] theorem literalText_recast (e : Expr) : (e.recast r).literalText = e.literalText := by
  cases e <;> simp [recast, literalText, text, extent, r.text_eq]

@[simp] theorem referencedName?_recast (e : Expr) :
    (e.recast r).referencedName? = e.referencedName? := by
  unfold referencedName?
  rw [unwrap_recast]
  cases e.unwrap <;> simp [recast, text, extent, r.text_eq]

@[simp] theorem chain_recast (e : Expr) :
    (e.recast r).chain = e.chain.map (Link.recast r) := by
  induction e using chain.induct with
  | case1 x e ih => simpa [recast, chain] using ih
  | case2 x y receiver property arguments ih =>
    simpa [recast, chain, Link.recast] using ih
  | case3 x callee arguments h =>
    cases callee with
    | memberAccess y receiver property => exact absurd rfl (h y receiver property)
    | _ => simp [recast, chain, Link.recast, invokedName?]
  | case4 e hparenthesized hmember hcall =>
    cases e with
    | parenthesized x e => exact absurd rfl (hparenthesized x e)
    | call x callee arguments => exact absurd rfl (hcall x callee arguments)
    | _ => rfl

theorem firstReturned?_recast (statements : List Expr) :
    firstReturned? (statements.map (recast r)) = (firstReturned? statements).map (recast r) := by
  induction statements with
  | nil => rfl
  | cons s rest ih =>
    cases s with
    | returned x e => cases e <;> simp [recast, firstReturned?]
    | _ => exact ih

@[simp] theorem result?_recast (e : Expr) :
    (e.recast r).result? = e.result?.map (recast r) := by
  unfold result?
  rw [unwrap_recast]
  cases e.unwrap with
  | block x statements => simp [recast, firstReturned?_recast]
  | _ => rfl

end Expr

@[simp] theorem lastValue?_recast (r : Recasting) (properties : List Entry) (key : Text) :
    lastValue? (properties.map (Property.recast r)) key =
      (lastValue? properties key).map (Expr.recast r) := by
  have hkey : ((fun p : Entry => decide (p.key = key)) ∘ Property.recast r) =
      fun p => decide (p.key = key) := rfl
  rw [lastValue?, ← List.map_reverse, List.find?_map, hkey, lastValue?, Option.map_map,
    Option.map_map]
  rfl

end SchemaAtlas
