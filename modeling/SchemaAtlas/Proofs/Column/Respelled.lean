import SchemaAtlas.Proofs.Batch.Parsed
import SchemaAtlas.Proofs.Expr.Chained

/-!
# Spellings of a column

A type call may name its function as `f` or as `t.f`, and it may do without the label in front of its
options. Neither shows in the column: the reader of a type call looks at the name that is invoked,
and takes its options from the second place or the first.
-/

namespace SchemaAtlas

namespace Column

/-- Two spellings of one chain: what is rewritten is its type call, under any modifiers. -/
inductive Respelled : Expr → Expr → Prop
  | refl (e : Expr) : Respelled e e
  | symm {e e' : Expr} (h : Respelled e e') : Respelled e' e
  | trans {e e' e'' : Expr} (h : Respelled e e') (h' : Respelled e' e'') : Respelled e e''
  | qualified (x x' y y' z : Extent) (t f : Text) (arguments : List Expr) :
      Respelled (.call x (.identifier y f) arguments)
        (.call x' (.memberAccess y' (.identifier z t) f) arguments)
  | unlabelled (x x' y : Extent) {callee : Expr} (label : Text) {arguments : List Expr}
      (h : callee.Unchained) (hlength : arguments.length ≤ 1) :
      Respelled (.call x callee (.string y label :: arguments)) (.call x' callee arguments)
  | method (x x' y y' : Extent) {e e' : Expr} (name : Text) (arguments : List Expr)
      (h : Respelled e e') : Respelled (.call x (.memberAccess y e name) arguments)
        (.call x' (.memberAccess y' e' name) arguments)
  | parenthesized (x x' : Extent) {e e' : Expr} (h : Respelled e e') :
      Respelled (.parenthesized x e) (.parenthesized x' e')

/-- What a column is made of: the modifiers, and the name and the options of the type call. -/
def outline (e : Expr) : List Expr.Link × Option (Option Text × Option (List Entry)) :=
  (e.chain.dropLast, e.chain.getLast?.map fun type => (type.name, options? type.arguments))

theorem outline_of_unchained {x : Extent} {callee : Expr} {arguments : List Expr}
    (h : callee.Unchained) :
    outline (.call x callee arguments) = ([], some (callee.invokedName?, options? arguments)) := by
  rw [outline, Expr.chain_of_unchained h]
  rfl

/-- A modifier goes in front of those that are called before it. -/
theorem outline_method (x y : Extent) (e : Expr) (name : Text) (arguments : List Expr) :
    outline (.call x (.memberAccess y e name) arguments) =
      match (outline e).2 with
      | none => ([], some (some name, options? arguments))
      | some type => (⟨some name, arguments⟩ :: (outline e).1, some type) := by
  unfold outline
  rw [Expr.chain]
  cases e.chain with
  | nil => rfl
  | cons link links => simp [List.getLast?_cons]

/-- Options are looked for behind a label or in its place. -/
theorem options?_label (x : Extent) (label : Text) {arguments : List Expr}
    (h : arguments.length ≤ 1) :
    options? (.string x label :: arguments) = options? arguments := by
  match arguments, h with
  | [], _ => rfl
  | [e], _ => cases e <;> rfl

/-- All spellings of a chain have one outline. -/
theorem Respelled.outline_eq {e e' : Expr} (h : Respelled e e') : outline e' = outline e := by
  -- an equation is kept by the closure, so that the rules can be looked at one by one
  induction h with
  | refl e => rfl
  | symm _ ih => exact ih.symm
  | trans _ _ ih ih' => exact ih'.trans ih
  | qualified x x' y y' z t f arguments =>
    rw [outline_of_unchained (Expr.unchained_identifier y f),
      outline_of_unchained (Expr.unchained_member y' z t f)]
    rfl
  | unlabelled x x' y label h hlength =>
    rw [outline_of_unchained h, outline_of_unchained h, options?_label y label hlength]
  | method x x' y y' name arguments _ ih => rw [outline_method, outline_method, ih]
  | parenthesized x x' _ ih => exact ih

theorem Respelled.form_eq {e e' : Expr} (h : Respelled e e') :
    e'.unwrap.form = e.unwrap.form := by
  induction h with
  | symm _ ih => exact ih.symm
  | trans _ _ ih ih' => exact ih'.trans ih
  | parenthesized x x' _ ih => exact ih
  | _ => rfl

/-- Two spellings of one entry of a column map. -/
structure RespelledEntry (entry entry' : Entry) : Prop where
  key_eq : entry'.key = entry.key
  comments_eq : entry'.comments = entry.comments
  value : Respelled entry.value entry'.value

/-- A column is made from the outline of its chain, and the form of the value is named where there
is none. -/
theorem ofEntry_of_outline_eq (includeComments : Bool) (enums : Enums) {entry entry' : Entry}
    (hkey : entry'.key = entry.key) (hcomments : entry'.comments = entry.comments)
    (houtline : outline entry'.value = outline entry.value)
    (hform : entry'.value.unwrap.form = entry.value.unwrap.form) :
    ofEntry includeComments enums entry' = ofEntry includeComments enums entry := by
  obtain ⟨hmodifiers, htype⟩ := Prod.mk.inj houtline
  simp only [ofEntry, Expr.chain_unwrap, hkey, hcomments, hform, hmodifiers]
  cases hlast : entry.value.chain.getLast? with
  | none =>
    rw [hlast, Option.map_none, Option.map_eq_none_iff] at htype
    rw [htype]
  | some type =>
    rw [hlast, Option.map_some, Option.map_eq_some_iff] at htype
    obtain ⟨type', hlast', hsame⟩ := htype
    obtain ⟨hname, hoptions⟩ := Prod.mk.inj hsame
    simp only [hlast', ofChain, applyType, hname, hoptions]

theorem RespelledEntry.ofEntry_eq {entry entry' : Entry} (h : RespelledEntry entry entry')
    (includeComments : Bool) (enums : Enums) :
    ofEntry includeComments enums entry' = ofEntry includeComments enums entry :=
  ofEntry_of_outline_eq includeComments enums h.key_eq h.comments_eq h.value.outline_eq
    h.value.form_eq

/-- A map of columns is read alike in all its spellings, entries that are rejected included. -/
theorem outcome_ofEntries_of_respelled (includeComments : Bool) (enums : Enums)
    {entries entries' : List Entry} (h : List.Forall₂ RespelledEntry entries entries') :
    (ofEntries includeComments enums entries').outcome =
      (ofEntries includeComments enums entries).outcome :=
  outcome_ofEntries_congr (h.imp fun _ _ hentry => hentry.ofEntry_eq includeComments enums)

end Column
end SchemaAtlas
