import SchemaAtlas.Proofs.Batch.Contribution
import SchemaAtlas.Proofs.Batch.Linked

/-!
# Entities that share a declaration of relations

Entities of one name that get their relations from one declaration share them. Only the first entity
of a name is looked at when relations are resolved, but the others hold the same list, and so they
end up with the same relations, resolved in the same way.
-/

namespace SchemaAtlas

/-- What is found first among the values at each place is found at the first place that has one. -/
theorem findSome?_mapIdx {α β : Type} {f : Nat → α → Option β} {q : α → Bool}
    (h : ∀ i x, (f i x).isSome = q x) (xs : List α) :
    (xs.mapIdx f).findSome? (fun found => found) =
      (xs.findIdx? q).bind fun i => xs[i]?.bind (f i) := by
  induction xs generalizing f with
  | nil => rfl
  | cons x xs ih =>
    have hrest := ih (f := fun i => f (i + 1)) fun i => h (i + 1)
    have hx := h 0 x
    rw [List.mapIdx_cons, List.findSome?_cons, List.findIdx?_cons]
    cases hfound : f 0 x with
    | none =>
      have hq : q x = false := by simpa [hfound] using hx.symm
      simp only [hrest, hq, Bool.false_eq_true, ↓reduceIte, Option.bind_map, Function.comp_def,
        List.getElem?_cons_succ]
    | some y =>
      have hq : q x = true := by simpa [hfound] using hx.symm
      simp [hq, hfound]

namespace ParsedDocument

/-- A document that provides an entity with relations, by its position in the batch: the entity's
own document, or another one. -/
inductive Provider where
  | own (position : Nat)
  | foreign (position : Nat)
  deriving DecidableEq, Repr

def Provider.position : Provider → Nat
  | own position => position
  | foreign position => position

def Provider.declared? (ps : List ParsedDocument) (name : Text) (provider : Provider) :
    Option (List Relation) :=
  ps[provider.position]?.bind (·.relations.get? name)

/-- The document that provides an entity of the document at a position: that document, if it
declares relations for the name, else the first one that does and has no entity of the name. -/
def provider? (ps : List ParsedDocument) (position : Nat) (name : Text) : Option Provider :=
  if (Provider.declared? ps name (.own position)).isSome then some (.own position)
  else (ps.findIdx? fun p => !p.has name && (p.relations.get? name).isSome).map .foreign

/-- The list that is offered to a table is the one of the first document to offer any. -/
theorem foreignList?_eq_bind (ps : List ParsedDocument) (name : Text) :
    foreignList? ps name =
      (ps.findIdx? fun p => !p.has name && (p.relations.get? name).isSome).bind fun i =>
        (Provider.declared? ps name (.foreign i)).map (RelationList.mk i) := by
  have hlists : foreignList? ps name =
      (ps.mapIdx fun i p => (p.foreignRelations i).get? name).findSome? fun found => found := by
    apply findSome?_eq_of_map_eq
    rw [allForeign, map_mapIdx, List.map_id']
  have hdeclares (i : Nat) (p : ParsedDocument) : ((p.foreignRelations i).get? name).isSome =
      (!p.has name && (p.relations.get? name).isSome) := by
    cases h : p.has name <;> simp [h]
  rw [hlists, findSome?_mapIdx hdeclares]
  cases hfound : ps.findIdx? fun p => !p.has name && (p.relations.get? name).isSome with
  | none => rfl
  | some i =>
    obtain ⟨hi, hp, -⟩ := List.findIdx?_eq_some_iff_getElem.mp hfound
    simp only [Bool.and_eq_true, Bool.not_eq_true'] at hp
    simp [Provider.declared?, Provider.position, hi, hp.1]

/-- The relations of an entity are what its provider declares, with the provider for an origin. -/
theorem relations_attached {ps : List ParsedDocument} {position : Nat} {p : ParsedDocument}
    (h : ps[position]? = some p) (e : Entity) :
    (attached ps position p e).relations = (provider? ps position e.name).bind fun provider =>
      (provider.declared? ps e.name).map (RelationList.mk provider.position) := by
  have hown : Provider.declared? ps e.name (.own position) = p.relations.get? e.name := by
    simp [Provider.declared?, Provider.position, h]
  rw [attached, provider?, hown]
  cases hdeclared : p.relations.get? e.name with
  | some items => simp [hown, hdeclared, Provider.position]
  | none =>
    simp only [Option.map_none, foreignList?_eq_bind, Option.none_or, Option.isSome_none,
      Bool.false_eq_true, ↓reduceIte, Provider.position, Option.bind_map, Function.comp_def]

end ParsedDocument

namespace Batch

open ParsedDocument

variable {config : Config} {documents : List Document} {parsed : List ParsedDocument}

/-- An entity of a linked document is one that the document has on its own, attached and settled. -/
theorem exists_of_mem_linked (h : List.Forall₂ (Document.ParsesTo config) documents parsed)
    {i : Nat} {l : ParsedDocument} (hl : (linked config parsed)[i]? = some l) {e : Entity}
    (he : e ∈ l.entities) : ∃ p e₀, parsed[i]? = some p ∧
      e = Junction.settle (linkResolutions config parsed) (attached parsed i p e₀) := by
  have hparses : ∀ p ∈ parsed, ∃ document, Document.ParsesTo config document p := fun p hp =>
    (exists_left_of_forall₂ h hp).imp fun _ h => h.2
  rw [linked_of_parsesTo hparses, List.getElem?_mapIdx, Option.map_eq_some_iff] at hl
  obtain ⟨p, hp, rfl⟩ := hl
  obtain ⟨e₀, -, rfl⟩ := List.mem_map.mp he
  exact ⟨p, e₀, hp, rfl⟩

/-- What a provider declares is not resolved yet. -/
theorem unresolved_of_declared? (h : List.Forall₂ (Document.ParsesTo config) documents parsed)
    {provider : Provider} {name : Text} {items : List Relation}
    (hitems : provider.declared? parsed name = some items) (origin : Nat) :
    (RelationList.mk origin items).unresolved = ⟨origin, items⟩ := by
  obtain ⟨p, hp, hitems⟩ := Option.bind_eq_some_iff.mp hitems
  obtain ⟨document, -, hparses⟩ := exists_left_of_forall₂ h (List.mem_of_getElem? hp)
  exact unresolved_of_parsesTo ⟨document, hparses⟩ hitems origin

/-- Entities of a batch with one name whose relations are provided by one document have equal
relations, resolved or not: both of them what the document declares for the name, but for the two
fields of resolved relations. -/
theorem relations_eq_of_provider (h : List.Forall₂ (Document.ParsesTo config) documents parsed) :
    (ofDocuments config parsed).outcome = .ok (toBatch (linked config parsed)) ∧
    (∀ e ∈ entities (toBatch (linked config parsed)),
      ∃ (i : Nat) (l : ParsedDocument), (linked config parsed)[i]? = some l ∧ e ∈ l.entities) ∧
    (∀ (i : Nat) (l : ParsedDocument), (linked config parsed)[i]? = some l → ∀ e ∈ l.entities,
      e.relations.map (fun list => list.items.map Relation.unresolved) =
        (provider? parsed i e.name).bind (Provider.declared? parsed e.name)) ∧
    ∀ (i j : Nat) (l l' : ParsedDocument),
      (linked config parsed)[i]? = some l → (linked config parsed)[j]? = some l' →
      ∀ e ∈ l.entities, ∀ e' ∈ l'.entities, e.name = e'.name →
        provider? parsed i e.name = provider? parsed j e'.name → e.relations = e'.relations := by
  have hlists {i : Nat} {l : ParsedDocument} (hl : (linked config parsed)[i]? = some l) {e : Entity}
      (he : e ∈ l.entities) : e.relations = ((provider? parsed i e.name).bind fun provider =>
        (provider.declared? parsed e.name).map (RelationList.mk provider.position)).map
          (Resolution.settledList (linkResolutions config parsed) e.name) := by
    obtain ⟨p, e₀, hp, rfl⟩ := exists_of_mem_linked h hl he
    rw [Junction.settle_eq, relations_attached hp]
    rfl
  refine ⟨outcome_ofDocuments config parsed, ?_, ?_, ?_⟩
  · intro e he
    obtain ⟨l, hl, he⟩ := mem_allEntities.mp ((mem_entities_toBatch _ e).mp he)
    obtain ⟨i, hi⟩ := List.mem_iff_getElem?.mp hl
    exact ⟨i, l, hi, he⟩
  · intro i l hl e he
    rw [hlists hl he]
    cases hprovider : provider? parsed i e.name with
    | none => rfl
    | some provider =>
      cases hitems : provider.declared? parsed e.name with
      | none => simp [hitems]
      | some items =>
        have hlist := Resolution.unresolved_settledList (linkResolutions config parsed) e.name
          ⟨provider.position, items⟩
        rw [unresolved_of_declared? h hitems] at hlist
        simp only [Option.bind_some, hitems, Option.map_some]
        exact congrArg (fun list => some list.items) hlist
  · intro i j l l' hl hl' e he e' he' hname hprovider
    rw [hlists hl he, hlists hl' he', hprovider, hname]

/-- Users and groups, each declared twice, with a junction between them. The relations of users are
declared beside them, those of groups elsewhere. -/
def twiceDocuments : List Document :=
  let junction := callDeclaration "usersToGroups" "pgTable" [.string "usersToGroups",
    .object [("userId", .call (.identifier "integer") []),
      ("groupId", .call (.identifier "integer") [])]]
  [⟨[tableDeclaration "users", tableDeclaration "users",
      relationsDeclaration "users" ["usersToGroups"]], false⟩,
    ⟨[junction, tableDeclaration "groups"], false⟩,
    ⟨[tableDeclaration "groups"], false⟩,
    ⟨[relationsDeclaration "groups" ["usersToGroups"]], false⟩]

def twiceParsed : List ParsedDocument :=
  twiceDocuments.map fun document =>
    (ParsedDocument.ofDocument {} "twice" document).outcome.toOption.getD { id := "twice" }

def lastLinked? (position : Nat) : Option Entity :=
  (linked {} twiceParsed)[position]?.bind fun l => l.entities.getLast?

/-- Two groups that have their relations from the same document have the same ones. -/
theorem relations_eq_of_provider_twice :
    List.Forall₂ (Document.ParsesTo {}) twiceDocuments twiceParsed ∧
    provider? twiceParsed 0 "users" = some (.own 0) ∧
    provider? twiceParsed 1 "groups" = some (.foreign 3) ∧
    provider? twiceParsed 2 "groups" = some (.foreign 3) ∧
    ∃ e e', lastLinked? 1 = some e ∧ lastLinked? 2 = some e' ∧ e.relations = e'.relations ∧
      e'.relationItems.map (·.finalTarget) = [some ("users" : Text)] := by
  have hparses : List.Forall₂ (Document.ParsesTo {}) twiceDocuments twiceParsed :=
    .cons rfl (.cons rfl (.cons rfl (.cons rfl .nil)))
  have hlast : (lastLinked? 1).map (·.name) = some "groups" ∧
      (lastLinked? 2).map (fun e => (e.name, e.relationItems.map (·.finalTarget))) =
        some (("groups" : Text), [some ("users" : Text)]) := by decide +kernel
  obtain ⟨e, he, hname⟩ := Option.map_eq_some_iff.mp hlast.1
  obtain ⟨e', he', hrest⟩ := Option.map_eq_some_iff.mp hlast.2
  obtain ⟨hname', htargets⟩ := Prod.mk.inj hrest
  obtain ⟨l, hl, hmem⟩ := Option.bind_eq_some_iff.mp he
  obtain ⟨l', hl', hmem'⟩ := Option.bind_eq_some_iff.mp he'
  have hprovider : provider? twiceParsed 1 "groups" = some (.foreign 3) ∧
      provider? twiceParsed 2 "groups" = some (.foreign 3) := by decide +kernel
  refine ⟨hparses, by decide +kernel, hprovider.1, hprovider.2, e, e', he, he', ?_, htargets⟩
  exact (relations_eq_of_provider hparses).2.2.2 1 2 l l' hl hl' e (List.mem_of_getLast? hmem)
    e' (List.mem_of_getLast? hmem') (hname.trans hname'.symm)
    (by rw [hname, hname', hprovider.1, hprovider.2])

end Batch
end SchemaAtlas
