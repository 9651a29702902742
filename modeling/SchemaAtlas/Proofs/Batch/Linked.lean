import SchemaAtlas.Proofs.Batch.Run
import SchemaAtlas.Proofs.Relation.Declared

/-!
# Entities of linked documents

Before resolutions are made, the relations of an entity are a list that some document declares for
its name, and the origin tells which. Two entities with one name and one origin thus hold the same
list, whatever document they stand in. The resolutions then settle all entities at once.
-/

namespace SchemaAtlas

/-- The relations that a document declares come from entries of mappings. -/
theorem Document.declared_of_mem {config : Config} {document : Document} {table : Text}
    {items : List Relation} (h : document.relationsFor? config table = some items) :
    ∀ r ∈ items, r.Declared config.heuristics := by
  intro r hr
  obtain ⟨p, hp, rfl⟩ := Option.map_eq_some_iff.mp h
  have hpair := (List.mem_filter.mp (List.mem_of_getLast? hp)).1
  obtain ⟨d, -, hd⟩ := List.mem_filterMap.mp (List.mem_filter.mp hpair).1
  obtain ⟨⟨table', entries⟩, -, hmap⟩ := Option.map_eq_some_iff.mp hd
  subst hmap
  obtain ⟨entry, -, hentry⟩ := Except.exists_ok_of_mem_filterMap hr
  exact ⟨entry, hentry⟩

/-- The relations that a document declares are not resolved yet. -/
theorem Document.unresolved_of_relationsFor? {config : Config} {document : Document} {table : Text}
    {items : List Relation} (h : document.relationsFor? config table = some items) (origin : Nat) :
    (RelationList.mk origin items).unresolved = ⟨origin, items⟩ := by
  have hitems : items.map Relation.unresolved = items :=
    (List.map_congr_left fun r hr => (document.declared_of_mem h r hr).unresolved_eq).trans
      (List.map_id items)
  rw [RelationList.unresolved, hitems]

namespace ParsedDocument

/-- Parsed documents declare relations that are not resolved yet. -/
theorem unresolved_of_parsesTo {config : Config} {p : ParsedDocument} {name : Text}
    {items : List Relation} (hparses : ∃ document, Document.ParsesTo config document p)
    (h : p.relations.get? name = some items) (origin : Nat) :
    (RelationList.mk origin items).unresolved = ⟨origin, items⟩ := by
  obtain ⟨document, hparses⟩ := hparses
  rw [hparses.get?_relations] at h
  split at h
  · exact Document.unresolved_of_relationsFor? h origin
  · cases h

/-- An entity of the documents, with relations that the document at their origin declares. -/
structure Placed (ps : List ParsedDocument) (e : Entity) : Prop where
  parsed : ∃ p ∈ ps, ∃ e₀ ∈ p.entities, e₀.withoutRelations = e.withoutRelations
  listed : ∀ list, e.relations = some list →
    ∃ p, ps[list.origin]? = some p ∧ p.relations.get? e.name = some list.items

/-- Entities of one name hold the same list if its origin is the same. -/
theorem Placed.items_eq {ps : List ParsedDocument} {e e' : Entity} {list list' : RelationList}
    (h : Placed ps e) (h' : Placed ps e') (hname : e.name = e'.name)
    (hlist : e.relations = some list) (hlist' : e'.relations = some list')
    (horigin : list.origin = list'.origin) : list.items = list'.items := by
  obtain ⟨p, hp, hitems⟩ := h.listed list hlist
  obtain ⟨p', hp', hitems'⟩ := h'.listed list' hlist'
  rw [horigin, hp'] at hp
  cases hp
  rw [hname, hitems'] at hitems
  exact (Option.some.inj hitems).symm

theorem mem_allEntities {ps : List ParsedDocument} {e : Entity} :
    e ∈ allEntities ps ↔ ∃ p ∈ ps, e ∈ p.entities := by
  simp [allEntities]

/-- Before anything is attached, an entity has the relations of its own document or none. -/
theorem placed_numbered {ps : List ParsedDocument} (h : ∀ p ∈ ps, p.Local) {e : Entity}
    (he : e ∈ allEntities (numbered ps)) : Placed ps e := by
  obtain ⟨q, hq, he⟩ := mem_allEntities.mp he
  obtain ⟨i, hi, rfl⟩ := List.mem_mapIdx.mp hq
  obtain ⟨e₀, he₀, rfl⟩ := List.mem_map.mp he
  have hp : ps[i] ∈ ps := List.getElem_mem hi
  refine ⟨⟨ps[i], hp, e₀, he₀, rfl⟩, ?_⟩
  intro list hlist
  rw [Entity.withOrigin, h ps[i] hp e₀ he₀, Option.map_map] at hlist
  obtain ⟨items, hitems, rfl⟩ := Option.map_eq_some_iff.mp hlist
  exact ⟨ps[i], List.getElem?_eq_getElem hi, hitems⟩

/-- What is attached is declared by the document at its origin. -/
theorem placed_attachForeign {ps : List ParsedDocument} (h : ∀ p ∈ ps, p.Local) {e : Entity}
    (he : e ∈ allEntities (attachForeign (numbered ps))) : Placed ps e := by
  rw [attachForeign_numbered h] at he
  obtain ⟨q, hq, he⟩ := mem_allEntities.mp he
  obtain ⟨i, hi, rfl⟩ := List.mem_mapIdx.mp hq
  obtain ⟨e₀, he₀, rfl⟩ := List.mem_map.mp he
  refine ⟨⟨ps[i], List.getElem_mem hi, e₀, he₀, rfl⟩, ?_⟩
  intro list hlist
  rcases Option.or_eq_some_iff.mp hlist with hown | ⟨-, hforeign⟩
  · obtain ⟨items, hitems, rfl⟩ := Option.map_eq_some_iff.mp hown
    exact ⟨ps[i], List.getElem?_eq_getElem hi, hitems⟩
  · obtain ⟨p, hp, -, hitems⟩ := foreignList?_eq_some hforeign
    exact ⟨p, hp, hitems⟩

end ParsedDocument

namespace Batch

open ParsedDocument

/-- The relations of a placed entity come from entries of mappings, and there are some. -/
theorem declared_of_placed {config : Config} {documents : List Document}
    {parsed : List ParsedDocument}
    (h : List.Forall₂ (Document.ParsesTo config) documents parsed) {e : Entity}
    (he : Placed parsed e) {list : RelationList} (hlist : e.relations = some list) :
    list.items ≠ [] ∧ ∀ r ∈ list.items, r.Declared config.heuristics := by
  obtain ⟨p, hp, hitems⟩ := he.listed list hlist
  obtain ⟨document, -, hparses⟩ := exists_left_of_forall₂ h (List.mem_of_getElem? hp)
  rw [hparses.get?_relations] at hitems
  split at hitems
  · refine ⟨?_, document.declared_of_mem hitems⟩
    intro hnil
    rw [hnil] at hitems
    exact document.relationsFor?_ne_nil config e.name hitems
  · cases hitems

/-- The entities of linked documents are placed ones, settled by resolutions found among them. -/
theorem allEntities_linked (config : Config) {ps : List ParsedDocument} (h : ∀ p ∈ ps, p.Local) :
    ∃ es rs, (∀ e ∈ es, Placed ps e) ∧
      (∀ res ∈ rs, res ∈ Junction.resolutions config.heuristics es) ∧
      allEntities (linked config ps) = es.map (Junction.settle rs) := by
  have hsettle (es : List Entity) : es.map (Junction.settle []) = es :=
    List.map_id'' (fun _ => rfl) es
  cases hrel : config.options.extractRelations with
  | false =>
    refine ⟨allEntities (numbered ps), [], fun e he => placed_numbered h he, by simp, ?_⟩
    simp [linked, hrel, hsettle]
  | true =>
    have hplaced : ∀ e ∈ allEntities (attachForeign (numbered ps)), Placed ps e :=
      fun e he => placed_attachForeign h he
    cases hres : config.options.resolveManyToMany with
    | false =>
      refine ⟨allEntities (attachForeign (numbered ps)), [], hplaced, by simp, ?_⟩
      simp [linked, hrel, hres, hsettle]
    | true =>
      refine ⟨allEntities (attachForeign (numbered ps)), _, hplaced, fun _ hres => hres, ?_⟩
      simp [linked, hrel, hres, resolved, allEntities, List.flatMap_map, List.map_flatMap]

end Batch
end SchemaAtlas
