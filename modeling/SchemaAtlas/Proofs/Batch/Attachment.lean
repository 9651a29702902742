import SchemaAtlas.Batch.Extraction
import SchemaAtlas.Proofs.Batch.Parsed
import SchemaAtlas.Proofs.Expr.Written
import SchemaAtlas.Proofs.Relation.Settlement

/-!
# Which relations an entity ends up with

The relations of a document's own declarations come first. Those of other documents come second, and
among them the first document counts that declares some and has no entity of the name itself. The
origin of a list is the position of the document that declares it, so name and origin together tell
which declaration a list comes from.
-/

namespace SchemaAtlas

/-- What is found first depends only on what is found at each place. -/
theorem findSome?_eq_of_map_eq {α β γ : Type} {f : α → Option γ} {g : β → Option γ} {xs : List α}
    {ys : List β} (h : xs.map f = ys.map g) : xs.findSome? f = ys.findSome? g := by
  have hf : xs.findSome? f = (xs.map f).findSome? fun found => found := by
    rw [List.findSome?_map]
    rfl
  rw [hf, h, List.findSome?_map]
  rfl

/-- A list whose members are changed by their positions still matches another place by place. -/
theorem forall₂_mapIdx {α β γ : Type} {R : α → β → Prop} {S : α → γ → Prop} {xs : List α}
    {ys : List β} {f : Nat → β → γ} (h : List.Forall₂ R xs ys)
    (hf : ∀ i x y, ys[i]? = some y → R x y → S x (f i y)) :
    List.Forall₂ S xs (ys.mapIdx f) := by
  obtain ⟨hlength, hR⟩ := List.forall₂_iff_get.mp h
  refine List.forall₂_iff_get.mpr ⟨by simpa using hlength, fun i hi hi' => ?_⟩
  have hy : i < ys.length := by simpa using hi'
  simpa using hf i _ _ (List.getElem?_eq_getElem hy) (hR i hi hy)

/-- Layers of lists, attached one after the other, give an entity without relations those of the
first layer that has some for its name. -/
theorem Entity.foldl_attach (layers : List (Keyed RelationList)) (e : Entity) :
    layers.foldl (fun e lists => e.attach lists true) e =
      { e with relations := e.relations.or (layers.findSome? (·.get? e.name)) } := by
  induction layers generalizing e with
  | nil => simp
  | cons lists rest ih =>
    rw [List.foldl_cons, ih, attach_eq, List.findSome?_cons]
    cases e.relations with
    | some list => simp
    | none => cases lists.get? e.name <;> simp

def Entity.withoutRelations (e : Entity) : Entity := { e with relations := none }

namespace ParsedDocument

def has (p : ParsedDocument) (name : Text) : Bool := p.entities.any (·.name = name)

/-- Every entity has the relations that its own document declares for it. -/
def Local (p : ParsedDocument) : Prop :=
  ∀ e ∈ p.entities, e.relations = (p.relations.get? e.name).map (RelationList.mk 0)

theorem local_of_parsesTo {config : Config} {document : Document} {p : ParsedDocument}
    (h : document.ParsesTo config p) : p.Local := by
  intro e he
  obtain ⟨d, -, e₀, -, rfl⟩ := h.exists_declaration he
  rfl

@[simp] theorem has_withOrigin (p : ParsedDocument) (origin : Nat) (name : Text) :
    (p.withOrigin origin).has name = p.has name := by
  rw [has, withOrigin, List.any_map]
  rfl

@[simp] theorem relations_withOrigin (p : ParsedDocument) (origin : Nat) :
    (p.withOrigin origin).relations = p.relations := rfl

@[simp] theorem get?_foreignRelations (p : ParsedDocument) (origin : Nat) (name : Text) :
    (p.foreignRelations origin).get? name =
      if p.has name then none else (p.relations.get? name).map (RelationList.mk origin) := by
  have hfilter : (p.foreignRelations origin).get? name =
      if !p.has name then (p.relationLists origin).get? name else none :=
    Keyed.get?_filter (fun table => !p.has table) (p.relationLists origin) name
  rw [hfilter, get?_relationLists]
  cases p.has name <;> rfl

def foreignList? (ps : List ParsedDocument) (name : Text) : Option RelationList :=
  (allForeign ps).findSome? (·.get? name)

/-- Numbering changes nothing that is attached elsewhere. -/
theorem foreignList?_numbered (ps : List ParsedDocument) (name : Text) :
    foreignList? (numbered ps) name = foreignList? ps name := by
  apply findSome?_eq_of_map_eq
  apply List.ext_getElem?
  intro i
  simp only [allForeign, numbered, List.getElem?_map, List.getElem?_mapIdx]
  cases ps[i]? with
  | none => rfl
  | some p => simp

/-- The records of a foreign list, without its origin. -/
theorem items_foreignList? (ps : List ParsedDocument) (name : Text) :
    (foreignList? ps name).map (·.items) =
      ps.findSome? fun p => if p.has name then none else p.relations.get? name := by
  rw [foreignList?, List.map_findSome?]
  apply findSome?_eq_of_map_eq
  apply List.ext_getElem?
  intro i
  simp only [allForeign, List.getElem?_map, List.getElem?_mapIdx]
  cases ps[i]? with
  | none => rfl
  | some p => cases h : p.has name <;> simp [h, Function.comp_def]

/-- A list that is attached across documents is the one that the document at its origin declares,
and that document has no entity of the name. -/
theorem foreignList?_eq_some {ps : List ParsedDocument} {name : Text} {list : RelationList}
    (h : foreignList? ps name = some list) :
    ∃ p, ps[list.origin]? = some p ∧ p.has name = false ∧
      p.relations.get? name = some list.items := by
  obtain ⟨lists, hmem, hlist⟩ := List.exists_of_findSome?_eq_some h
  obtain ⟨i, hi, rfl⟩ := List.mem_mapIdx.mp hmem
  rw [get?_foreignRelations] at hlist
  split at hlist
  · cases hlist
  · next hhas =>
    obtain ⟨items, hitems, rfl⟩ := Option.map_eq_some_iff.mp hlist
    exact ⟨ps[i], List.getElem?_eq_getElem hi, by simpa using hhas, hitems⟩

/-- Attaching across documents gives each entity without relations the foreign list of its name. -/
theorem attachForeign_eq (ps : List ParsedDocument) :
    attachForeign ps = ps.map fun p => { p with entities := p.entities.map fun e =>
      { e with relations := e.relations.or (foreignList? ps e.name) } } := by
  simp only [attachForeign, Entity.foldl_attach, foreignList?]

/-- An entity of the document at a position, with the relations it has across documents. -/
def attached (ps : List ParsedDocument) (position : Nat) (p : ParsedDocument) (e : Entity) :
    Entity :=
  { e with relations :=
      ((p.relations.get? e.name).map (RelationList.mk position)).or (foreignList? ps e.name) }

/-- What all attachments together make of documents whose entities have their own relations. -/
theorem attachForeign_numbered {ps : List ParsedDocument} (h : ∀ p ∈ ps, p.Local) :
    attachForeign (numbered ps) =
      ps.mapIdx fun i p => { p with entities := p.entities.map (attached ps i p) } := by
  apply List.ext_getElem?
  intro i
  rw [attachForeign_eq, List.getElem?_map, numbered, List.getElem?_mapIdx, List.getElem?_mapIdx]
  cases hp : ps[i]? with
  | none => rfl
  | some p =>
    have hentities : (p.withOrigin i).entities.map (fun e =>
        { e with relations := e.relations.or (foreignList? (numbered ps) e.name) }) =
          p.entities.map (attached ps i p) := by
      simp only [withOrigin, List.map_map]
      apply List.map_congr_left
      intro e he
      have hown := h p (List.mem_of_getElem? hp) e he
      simp [Entity.withOrigin, attached, hown, foreignList?_numbered, Function.comp_def]
    exact congrArg (fun entities => some { p with entities }) hentities

end ParsedDocument

namespace Batch

open ParsedDocument

variable {config : Config} {documents : List Document} {parsed : List ParsedDocument}

theorem outcome_ofDocuments (config : Config) (parsed : List ParsedDocument) :
    (ofDocuments config parsed).outcome = .ok (toBatch (linked config parsed)) := by
  simp [ofDocuments]

theorem local_of_forall₂ (h : List.Forall₂ (Document.ParsesTo config) documents parsed) :
    ∀ p ∈ parsed, p.Local := by
  intro p hp
  obtain ⟨document, -, hparses⟩ := exists_left_of_forall₂ h hp
  exact local_of_parsesTo hparses

/-- The relations that other documents declare for a name: those of the first document that declares
some and has no entity of the name itself. -/
def foreignFor? (config : Config) (pairs : List (Document × ParsedDocument)) (name : Text) :
    Option (List Relation) :=
  pairs.findSome? fun (document, p) =>
    if p.has name then none else document.relationsFor? config name

theorem foreignFor?_ne_nil (config : Config) (pairs : List (Document × ParsedDocument))
    (name : Text) : foreignFor? config pairs name ≠ some [] := by
  intro h
  obtain ⟨⟨document, p⟩, -, hfound⟩ := List.exists_of_findSome?_eq_some h
  dsimp only at hfound
  split at hfound
  · cases hfound
  · exact document.relationsFor?_ne_nil config name hfound

/-- The relations that a batch offers to a table from outside are those of the first document that
declares some and has no entity of that name. -/
theorem items_foreignList?_eq (hrel : config.options.extractRelations = true)
    (h : List.Forall₂ (Document.ParsesTo config) documents parsed) (name : Text) :
    (foreignList? parsed name).map (·.items) =
      foreignFor? config (documents.zip parsed) name := by
  rw [items_foreignList?, foreignFor?]
  apply findSome?_eq_of_map_eq
  induction h with
  | nil => rfl
  | cons hparses _ ih =>
    rw [List.zip_cons_cons, List.map_cons, List.map_cons, ih, hparses.get?_relations, hrel]
    rfl

/-- Resolving changes nothing in a document but the two fields of its relations. -/
theorem linked_unresolved (hrel : config.options.extractRelations = true)
    (parsed : List ParsedDocument) :
    List.Forall₂ (fun a l => l.id = a.id ∧
        l.entities.map Entity.unresolved = a.entities.map Entity.unresolved)
      (attachForeign (numbered parsed)) (linked config parsed) := by
  rw [linked, if_pos hrel]
  cases config.options.resolveManyToMany with
  | false => exact List.forall₂_same.mpr fun _ _ => ⟨rfl, rfl⟩
  | true =>
    refine List.forall₂_map_right_iff.mpr (List.forall₂_same.mpr fun a _ => ⟨rfl, ?_⟩)
    simp [Function.comp_def]

/-- Which relations the entities of a batch end up with: those that their own document declares, or
else those of the first document that declares some and has no entity of the name, or else none. The
resolution of many-to-many relations fills in two fields and leaves everything else as it was
attached. -/
theorem relations_linked (hrel : config.options.extractRelations = true)
    (h : List.Forall₂ (Document.ParsesTo config) documents parsed) :
    (ofDocuments config parsed).outcome = .ok (toBatch (linked config parsed)) ∧
    List.Forall₂ (fun p a => a.id = p.id ∧
        a.entities.map Entity.withoutRelations = p.entities.map Entity.withoutRelations)
      parsed (attachForeign (numbered parsed)) ∧
    List.Forall₂ (fun document a => ∀ e ∈ a.entities,
        e.relations.map (·.items) = (document.relationsFor? config e.name).or
          (foreignFor? config (documents.zip parsed) e.name) ∧
        e.relations.map (·.items) ≠ some [])
      documents (attachForeign (numbered parsed)) ∧
    List.Forall₂ (fun a l => l.id = a.id ∧
        l.entities.map Entity.unresolved = a.entities.map Entity.unresolved)
      (attachForeign (numbered parsed)) (linked config parsed) := by
  have hlocal := local_of_forall₂ h
  refine ⟨outcome_ofDocuments config parsed, ?_, ?_, linked_unresolved hrel parsed⟩
  · rw [attachForeign_numbered hlocal]
    have hsame : List.Forall₂ (fun p q => p = q) parsed parsed :=
      List.forall₂_same.mpr fun _ _ => rfl
    refine forall₂_mapIdx hsame ?_
    rintro i p q - rfl
    exact ⟨rfl, by simp [attached, Entity.withoutRelations, Function.comp_def]⟩
  · rw [attachForeign_numbered hlocal]
    refine forall₂_mapIdx h ?_
    intro i document p hp hparses e he
    obtain ⟨e₀, -, rfl⟩ := List.mem_map.mp he
    have hown : p.relations.get? e₀.name = document.relationsFor? config e₀.name := by
      rw [hparses.get?_relations, if_pos hrel]
    have hitems : (attached parsed i p e₀).relations.map (·.items) =
        (document.relationsFor? config e₀.name).or
          (foreignFor? config (documents.zip parsed) e₀.name) := by
      rw [← items_foreignList?_eq hrel h, ← hown, attached]
      cases p.relations.get? e₀.name <;> simp
    refine ⟨hitems, ?_⟩
    rw [hitems]
    cases hdeclared : document.relationsFor? config e₀.name with
    | none => exact foreignFor?_ne_nil config _ e₀.name
    | some items =>
      intro hnil
      exact document.relationsFor?_ne_nil config e₀.name (hdeclared.trans hnil)

/-- An exported declaration whose value is a call, with nothing but the callee for a text. -/
def callDeclaration (name callee : Text) (arguments : List Written) : Declaration where
  name := name
  initializer := some (Written.call (.identifier callee) arguments fun _ => ⟨callee, 1⟩)
  exported := true
  line := 1

def tableDeclaration (name : Text) : Declaration :=
  callDeclaration name "pgTable"
    [.string name, .object [("id", .call (.identifier "serial") [.string "id"])]]

def relationsDeclaration (table : Text) (targets : List Text) : Declaration :=
  callDeclaration (table ++ ("Relations" : Text)) "relations"
    [.identifier table, .function [] (.object (targets.map fun target =>
      (target, .call (.identifier "many") [.identifier target])))]

/-- Three documents whose declarations cross. -/
def blogDocuments : List Document := [
  ⟨[relationsDeclaration "users" ["likes"], tableDeclaration "users",
    relationsDeclaration "users" ["posts", "books"], relationsDeclaration "users" []], false⟩,
  ⟨[tableDeclaration "posts", tableDeclaration "tags",
    relationsDeclaration "users" ["tags"]], false⟩,
  ⟨[relationsDeclaration "posts" ["users"]], false⟩,
  ⟨[relationsDeclaration "posts" ["tags"]], false⟩]

def blogParsed : List ParsedDocument :=
  blogDocuments.map fun document =>
    (ParsedDocument.ofDocument {} "blog" document).outcome.toOption.getD { id := "blog" }

theorem relations_linked_blog :
    List.Forall₂ (Document.ParsesTo {}) blogDocuments blogParsed ∧
    List.Forall₂ (fun document a => ∀ e ∈ a.entities,
        e.relations.map (·.items) = (document.relationsFor? {} e.name).or
          (foreignFor? {} (blogDocuments.zip blogParsed) e.name) ∧
        e.relations.map (·.items) ≠ some [])
      blogDocuments (attachForeign (numbered blogParsed)) ∧
    ((linked {} blogParsed).map fun a => a.entities.map fun e =>
      (e.name, e.relations.map fun list => list.items.map (·.name))) =
      [[(("users" : Text), some [("posts" : Text), "books"])],
        [("posts", some ["users"]), ("tags", none)], [], []] := by
  have hparses : List.Forall₂ (Document.ParsesTo {}) blogDocuments blogParsed :=
    .cons rfl (.cons rfl (.cons rfl (.cons rfl .nil)))
  have hlinked := relations_linked (by rfl) hparses
  exact ⟨hparses, hlinked.2.2.1, by decide +kernel⟩

end Batch
end SchemaAtlas
