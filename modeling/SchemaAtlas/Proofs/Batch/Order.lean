import SchemaAtlas.Proofs.Batch.Contribution
import SchemaAtlas.Proofs.Batch.FinalTarget
import SchemaAtlas.Proofs.Relation.Origins
import SchemaAtlas.Proofs.Relation.Rearranged

/-!
# The order of the documents of a batch

If all entities of a batch have different names and no two documents declare relations for the same
table, the order of the documents does not matter. From outside the origins of relations are not
seen, and without them neither what is attached to an entity nor what it is settled by depends on
the place of a document.
-/

namespace SchemaAtlas

/-- What is found first does not depend on the order, if nothing else can be found. -/
theorem findSome?_of_perm {α β : Type} {f : α → Option β} {xs ys : List α} (h : xs.Perm ys)
    (hone : ∀ x ∈ xs, ∀ x' ∈ xs, (f x).isSome → (f x').isSome → f x = f x') :
    xs.findSome? f = ys.findSome? f := by
  cases hx : xs.findSome? f with
  | none =>
    rw [List.findSome?_eq_none_iff] at hx
    exact (List.findSome?_eq_none_iff.mpr fun y hy => hx y (h.mem_iff.mpr hy)).symm
  | some b =>
    obtain ⟨x, hmem, hfound⟩ := List.exists_of_findSome?_eq_some hx
    cases hy : ys.findSome? f with
    | none =>
      rw [List.findSome?_eq_none_iff.mp hy x (h.mem_iff.mp hmem)] at hfound
      cases hfound
    | some b' =>
      obtain ⟨x', hmem', hfound'⟩ := List.exists_of_findSome?_eq_some hy
      have hsame := hone x hmem x' (h.mem_iff.mpr hmem') (by simp [hfound]) (by simp [hfound'])
      rw [hfound, hfound'] at hsame
      exact hsame

theorem Keyed.get?_of_perm {α : Type} {m m' : Keyed α} (h : m.Perm m')
    (hkeys : (m.map (·.1)).Nodup) (key : Text) : m.get? key = m'.get? key := by
  have hkeys' : (m'.map (·.1)).Nodup := (h.map _).nodup_iff.mp hkeys
  apply Option.ext
  intro value
  rw [get?_eq_some_iff_mem hkeys, get?_eq_some_iff_mem hkeys', h.mem_iff]

namespace ParsedDocument

/-- The relations that an entity of a document has across documents, if any. -/
def itemsFor? (ps : List ParsedDocument) (p : ParsedDocument) (name : Text) :
    Option (List Relation) :=
  (p.relations.get? name).or
    (ps.findSome? fun q => if q.has name then none else q.relations.get? name)

def seen (ps : List ParsedDocument) (p : ParsedDocument) (e : Entity) : Entity :=
  { e with relations := (itemsFor? ps p e.name).map (RelationList.mk 0) }

theorem mapOrigin_attached (ps : List ParsedDocument) (i : Nat) (p : ParsedDocument) (e : Entity) :
    (attached ps i p e).mapOrigin (fun _ => 0) = seen ps p e := by
  simp only [attached, Entity.mapOrigin, seen, itemsFor?, ← items_foreignList?]
  cases p.relations.get? e.name with
  | some items => rfl
  | none => cases foreignList? ps e.name <;> rfl

/-- If each name is declared in one document at most, the order of the documents does not tell what
is seen of them. -/
theorem seen_of_perm {ps ps' : List ParsedDocument} (h : ps.Perm ps')
    (hone : ∀ name, ∀ q ∈ ps, ∀ q' ∈ ps, (q.relations.get? name).isSome →
      (q'.relations.get? name).isSome → q = q') : seen ps = seen ps' := by
  have hitems : itemsFor? ps = itemsFor? ps' := by
    funext p name
    have hforeign : ps.findSome? (fun q => if q.has name then none else q.relations.get? name) =
        ps'.findSome? fun q => if q.has name then none else q.relations.get? name := by
      refine findSome?_of_perm h ?_
      intro q hq q' hq' hsome hsome'
      have hdeclares (q : ParsedDocument)
          (h : (if q.has name then none else q.relations.get? name).isSome) :
          (q.relations.get? name).isSome := by
        split at h
        · cases h
        · exact h
      rw [hone name q hq q' hq' (hdeclares q hsome) (hdeclares q' hsome')]
    rw [itemsFor?, itemsFor?, hforeign]
  funext p e
  rw [seen, seen, hitems]

end ParsedDocument

namespace Batch

open ParsedDocument

variable {reader : TreeReader} {config : Config} {sources sources' : Keyed Source} {batch : Batch}
  {ps ps' : List ParsedDocument}

def seenEntities (ps : List ParsedDocument) : List Entity :=
  ps.flatMap fun p => p.entities.map (seen ps p)

def seenListed (config : Config) (ps : List ParsedDocument) (p : ParsedDocument) (e : Entity) :
    Entity :=
  if config.options.extractRelations && config.options.resolveManyToMany then
    Junction.settle (Junction.resolutions config.heuristics (seenEntities ps)) (seen ps p e)
  else seen ps p e

theorem map_mapOrigin_attachedEntities (ps : List ParsedDocument) :
    (attachedEntities ps).map (Entity.mapOrigin fun _ => 0) = seenEntities ps := by
  rw [attachedEntities, List.map_flatten, map_mapIdx, seenEntities, List.flatMap_def,
    ← mapIdx_const]
  simp [Function.comp_def, mapOrigin_attached]

theorem map_name_seenEntities (ps : List ParsedDocument) :
    (seenEntities ps).map (·.name) = (allEntities ps).map (·.name) := by
  simp [seenEntities, allEntities, List.map_flatMap, seen, Function.comp_def]

theorem map_name_attachedEntities (ps : List ParsedDocument) :
    (attachedEntities ps).map (·.name) = (allEntities ps).map (·.name) := by
  rw [← map_name_seenEntities, ← map_mapOrigin_attachedEntities, List.map_map]
  rfl

/-- With different names, a resolution for the table of an entity is meant for the list that the
entity has. -/
theorem origin_eq_of_mem_linkResolutions (hnames : ((allEntities ps).map (·.name)).Nodup)
    {e : Entity} (he : e ∈ attachedEntities ps) {list : RelationList}
    (hlist : e.relations = some list) {res : Resolution} (hres : res ∈ linkResolutions config ps)
    (htable : res.table = e.name) : res.origin = list.origin := by
  rw [← map_name_attachedEntities] at hnames
  unfold linkResolutions at hres
  split at hres
  · obtain ⟨junction, hthrough⟩ := Resolution.exists_foundThrough hres
    obtain ⟨e', he', hname, list', hlist', horigin, -⟩ := hthrough.place
    obtain rfl : e' = e := List.inj_on_of_nodup_map hnames he' he (hname.trans htable)
    rw [← horigin, Option.some.inj (hlist'.symm.trans hlist)]
  · cases hres

/-- What is seen of a batch from outside does not depend on the places of its documents. -/
theorem records_listing (hnames : ((allEntities ps).map (·.name)).Nodup) :
    records (listing config ps) = ps.map fun p => (p.id, p.entities.map (seenListed config ps p)) := by
  rw [records, listing, map_mapIdx, ← mapIdx_const, List.mapIdx_eq_mapIdx_iff]
  intro i hi
  simp only [List.map_map]
  congr 1
  apply List.map_congr_left
  intro e he
  have hmem : attached ps i ps[i] e ∈ attachedEntities ps :=
    List.mem_flatten.mpr ⟨_, List.mem_mapIdx.mpr ⟨i, hi, rfl⟩, List.mem_map_of_mem he⟩
  change (Junction.settle (linkResolutions config ps) (attached ps i ps[i] e)).mapOrigin
    (fun _ => 0) = _
  rw [← Junction.settle_mapOrigin fun list hlist res hres htable _ =>
    origin_eq_of_mem_linkResolutions hnames hmem hlist hres htable, mapOrigin_attached,
    linkResolutions, seenListed]
  split
  · rw [← Junction.resolutions_mapOrigin, map_mapOrigin_attachedEntities]
  · rfl

/-- Rearranged documents list the same, seen from outside. -/
theorem get?_records_listing_of_perm (h : ps.Perm ps') (hids : (ps.map (·.id)).Nodup)
    (hnames : ((allEntities ps).map (·.name)).Nodup)
    (hone : ∀ name, ∀ q ∈ ps, ∀ q' ∈ ps, (q.relations.get? name).isSome →
      (q'.relations.get? name).isSome → q = q') (id : Text) :
    (records (listing config ps)).get? id = (records (listing config ps')).get? id := by
  have hnames' : ((allEntities ps').map (·.name)).Nodup :=
    (((h.flatMap_right _).map _).nodup_iff).mp hnames
  have hseen : seen ps = seen ps' := seen_of_perm h hone
  have hentities : (seenEntities ps).Perm (seenEntities ps') := by
    rw [seenEntities, seenEntities, hseen]
    exact h.flatMap_right _
  have hlisted : seenListed config ps = seenListed config ps' := by
    funext p e
    rw [seenListed, seenListed, hseen,
      Junction.settle_resolutions_of_perm hentities (by rwa [map_name_seenEntities])]
  rw [records_listing hnames, records_listing hnames', hlisted]
  refine Keyed.get?_of_perm (h.map _) ?_ id
  simpa [Function.comp_def] using hids

/-- A source declares relations for a table. -/
def Declares (reader : TreeReader) (config : Config) (s : Text × Source) (table : Text) : Prop :=
  ∃ document, s.2.ReadAs reader s.1 document ∧ (document.relationsFor? config table).isSome

theorem declares_of_isSome {s : Text × Source} (h : Returns (contribution reader config s))
    {table : Text} (hsome : ((contributed reader config s).relations.get? table).isSome) :
    Declares reader config s table := by
  obtain ⟨-, document, hparses, hread⟩ := exists_parsesTo reader config s
  rw [hparses.get?_relations] at hsome
  split at hsome
  · exact ⟨document, hread h, hsome⟩
  · cases hsome

theorem map_name_entities_listing (config : Config) (ps : List ParsedDocument) :
    (entities (listing config ps)).map (·.name) = (allEntities ps).map (·.name) := by
  rw [entities, List.flatMap_def, listing, map_mapIdx, List.map_flatten, map_mapIdx, allEntities,
    List.map_flatMap, List.flatMap_def, ← mapIdx_const]
  simp [attached, Function.comp_def]

/-- A batch whose entities have different names, and in which no two documents declare relations for
one table, is the same for every order of the documents. -/
theorem records_get?_of_perm (hperm : sources.Perm sources') (hids : (sources.map (·.1)).Nodup)
    (h : (ofSources reader config sources).outcome = .ok batch)
    (hnames : (batch.entities.map (·.name)).Nodup)
    (hone : ∀ table, ∀ s ∈ sources, ∀ s' ∈ sources, Declares reader config s table →
      Declares reader config s' table → s = s') :
    ∃ batch' : Batch, (ofSources reader config sources').outcome = .ok batch' ∧
      ∀ id, batch'.records.get? id = batch.records.get? id := by
  obtain ⟨hreturns, rfl⟩ := (outcome_ofSources_eq_ok hids).mp h
  refine ⟨listing config (sources'.map (contributed reader config)), ?_, ?_⟩
  · rw [outcome_ofSources_eq_ok ((hperm.map _).nodup_iff.mp hids)]
    exact ⟨fun s hs => hreturns s (hperm.mem_iff.mpr hs), rfl⟩
  · intro id
    rw [map_name_entities_listing] at hnames
    refine (get?_records_listing_of_perm (hperm.map _) ?_ hnames ?_ id).symm
    · simpa [Function.comp_def] using hids
    · intro table q hq q' hq' hsome hsome'
      obtain ⟨s, hs, rfl⟩ := List.mem_map.mp hq
      obtain ⟨s', hs', rfl⟩ := List.mem_map.mp hq'
      rw [hone table s hs s' hs' (declares_of_isSome (hreturns s hs) hsome)
        (declares_of_isSome (hreturns s' hs') hsome')]

/-- A table and its relations, in a document each. -/
def crossSources : Keyed Source := [
  ("as.ts", .text "export const as=pgTable('as',\x7b\x7d)"),
  ("rs.ts", .text "export const asRelations=relations(as,()=>(\x7bx:many(as)\x7d))")]

/-- Only the second of the two documents declares relations. -/
theorem declares_crossSources {s : Text × Source} (hs : s ∈ crossSources) {table : Text}
    (h : Declares grammarReader {} s table) : s.1 = "rs.ts" := by
  have hpairs : ∀ s ∈ crossSources, s.1 = "rs.ts" ∨
      (readSource grammarReader s.1 none s.2).outcome.toOption.all (fun result =>
        ((result.toOption.getD ⟨[], false⟩).relationPairs {}).isEmpty) = true := by
    decide +kernel
  refine (hpairs s hs).resolve_right fun hnone => ?_
  obtain ⟨document, ⟨result, hread, rfl⟩, hsome⟩ := h
  rw [hread] at hnone
  have hempty : (result.toOption.getD ⟨[], false⟩).relationPairs {} = [] := by
    simpa [Except.toOption] using hnone
  simp [Document.relationsFor?, hempty, Keyed.last?] at hsome

/-- Two documents that declare relations for each other, in either order. -/
theorem records_get?_of_perm_crossSources : ∃ batch batch' : Batch,
    (ofSources grammarReader {} crossSources).outcome = .ok batch ∧
    (ofSources grammarReader {} crossSources.reverse).outcome = .ok batch' ∧
    (∃ e ∈ batch.entities, e.relations.isSome) ∧
    ∀ id, batch'.records.get? id = batch.records.get? id := by
  have hsample : (ofSources grammarReader {} crossSources).outcome.toOption.any
      fun (batch : Batch) => (batch.entities.map (·.name)).Nodup ∧
        ∃ e ∈ batch.entities, e.relations.isSome := by
    decide +kernel
  obtain ⟨batch, hfound, hbatch⟩ := (Option.any_eq_true _ _).mp hsample
  rw [Except.toOption_eq_some] at hfound
  obtain ⟨hnames, hrelations⟩ := of_decide_eq_true hbatch
  have hone : ∀ table, ∀ s ∈ crossSources, ∀ s' ∈ crossSources,
      Declares grammarReader {} s table → Declares grammarReader {} s' table → s = s' := by
    intro table s hs s' hs' h h'
    exact List.inj_on_of_nodup_map (f := Prod.fst) (by decide) hs hs'
      ((declares_crossSources hs h).trans (declares_crossSources hs' h').symm)
  obtain ⟨batch', hbatch', hsame⟩ := records_get?_of_perm
    (List.reverse_perm crossSources).symm (by decide) hfound hnames hone
  exact ⟨batch, batch', hfound, hbatch', hrelations, hsame⟩

end Batch
end SchemaAtlas
