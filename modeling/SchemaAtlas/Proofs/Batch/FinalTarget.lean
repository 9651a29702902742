import SchemaAtlas.Proofs.Batch.Linked
import SchemaAtlas.Proofs.Relation.Junctions
import SchemaAtlas.Syntax.Grammar

/-!
# Resolved relations of a batch

A relation of an extracted batch has a final target exactly if it has a junction, and the junction
is an entity of the batch that joins the table of the relation with its target. The resolution may
have been found in another entity of the same name; the lists of both come from one declaration, so
what was checked there holds here.
-/

namespace SchemaAtlas

/-- Settling keeps the names of entities. -/
theorem named_map_settle (rs : List Resolution) (es : List Entity) (name : Text) :
    Named (es.map (Junction.settle rs)) name ↔ Named es name := by
  simp [Named]

namespace Batch

open ParsedDocument

/-- What a final target of a relation of a table means, among the entities of a batch. -/
structure Reaches (rules : HeuristicRules) (entities : List Entity) (table : Text) (r : Relation)
    (target : Text) : Prop where
  type_eq : r.type = .manyToMany
  junctionTable : r.junctionTable = some r.relatedTable
  target_ne : target ≠ table
  joins : ∃ junction ∈ entities, junction.name = r.relatedTable ∧
    junction.entityType = some .junction ∧
    2 ≤ (joinedTables rules entities junction).length ∧
    table ∈ joinedTables rules entities junction ∧
    target ∈ joinedTables rules entities junction ∧
    (junction.foreignKeyCount < 2 → Named entities target)

/-- A resolution reaches its target wherever it is made, if the relation there leads through the
junction that it was found through. -/
theorem reaches_resolve {rules : HeuristicRules} {es entities : List Entity} {rs : List Resolution}
    (hmem : ∀ e, e ∈ entities ↔ e ∈ es.map (Junction.settle rs)) {junction : Entity}
    {res : Resolution} (hres : res.FoundThrough rules es junction) {r : Relation}
    (hleads : Resolution.leadsThrough junction.name r) :
    Reaches rules entities res.table (res.resolve r) res.finalTarget := by
  have hnames : ∀ name, Named es name ↔ Named entities name := by
    intro name
    rw [← named_map_settle rs]
    simp only [Named, hmem]
  simp only [Resolution.leadsThrough, Bool.and_eq_true, decide_eq_true_eq] at hleads
  obtain ⟨hrelated, htype⟩ := hleads
  have hjoined : joinedTables rules entities (Junction.settle rs junction) =
      joinedTables rules es junction :=
    (joinedTables_congr hnames (Junction.columns_settle rs junction).symm).symm
  refine ⟨htype, ?_, hres.target_ne, Junction.settle rs junction, ?_, ?_, ?_, ?_, ?_, ?_, ?_⟩
  · have hjunction : res.junctionTable = r.relatedTable := hres.junctionTable.trans hrelated.symm
    exact congrArg some hjunction
  · exact (hmem _).mpr (List.mem_map_of_mem hres.mem)
  · rw [Junction.name_settle]
    exact hrelated.symm
  · rw [Junction.entityType_settle]
    exact hres.junctionType
  · rw [hjoined]
    exact hres.complete
  · rw [hjoined]
    exact hres.table_mem
  · rw [hjoined]
    exact hres.target_mem
  · intro hcount
    have htarget := hres.target_mem
    rw [← hjoined] at htarget
    exact named_of_mem_joinedTables hcount htarget

/-- In settled entities a relation with a final target reaches it through a junction, and one
without has no junction either. -/
theorem reaches_of_mem_settle {rules : HeuristicRules} {ps : List ParsedDocument}
    {es entities : List Entity} {rs : List Resolution} (hplaced : ∀ e ∈ es, Placed ps e)
    (hfound : ∀ res ∈ rs, res ∈ Junction.resolutions rules es)
    (hdeclared : ∀ e ∈ es, ∀ list, e.relations = some list → ∀ r ∈ list.items, r.Declared rules)
    (hmem : ∀ e, e ∈ entities ↔ e ∈ es.map (Junction.settle rs)) {e : Entity} (he : e ∈ es)
    {r : Relation} (hr : r ∈ (Junction.settle rs e).relationItems) :
    (r.finalTarget.isSome ↔ r.junctionTable.isSome) ∧
    ∀ target, r.finalTarget = some target → Reaches rules entities e.name r target := by
  obtain ⟨list, hlist, position, r₀, hr₀, rfl⟩ := Junction.exists_of_mem_settle hr
  rcases Resolution.settled_cases rs e.name list.origin position r₀ with
    hsame | ⟨res, hres, htable, horigin, hposition, hmade⟩
  · -- no resolution is meant for this place
    have hunresolved : r₀.unresolved = r₀ :=
      (hdeclared e he list hlist r₀ (List.mem_of_getElem? hr₀)).unresolved_eq
    rw [hsame, ← hunresolved]
    refine ⟨by simp [Relation.unresolved], ?_⟩
    intro target htarget
    cases htarget
  · rw [hmade]
    refine ⟨by simp [Resolution.resolve], ?_⟩
    intro target htarget
    cases htarget
    obtain ⟨junction, hthrough⟩ := Resolution.exists_foundThrough (hfound res hres)
    obtain ⟨e₁, he₁, hname₁, list₁, hlist₁, horigin₁, r₁, hr₁, hleads⟩ := hthrough.place
    -- the list in which the resolution was found is the list here
    have hitems : list₁.items = list.items :=
      (hplaced e₁ he₁).items_eq (hplaced e he) (hname₁.trans htable) hlist₁ hlist
        (horigin₁.trans horigin)
    rw [hitems, hposition, hr₀] at hr₁
    cases hr₁
    rw [← htable]
    exact reaches_resolve hmem hthrough hleads

variable {reader : TreeReader} {config : Config} {sources : Keyed Source} {batch : Batch}

/-- In an extracted batch a relation with a final target is many-to-many and leads through a
junction of the batch that joins its table and the target; a relation without one has no junction
either. -/
theorem reaches_of_ofSources (h : (ofSources reader config sources).outcome = .ok batch)
    {e : Entity} (he : e ∈ batch.entities) {r : Relation} (hr : r ∈ e.relationItems) :
    (r.finalTarget.isSome ↔ r.junctionTable.isSome) ∧
    ∀ target, r.finalTarget = some target →
      Reaches config.heuristics batch.entities e.name r target := by
  obtain ⟨documents, parsed, -, -, hparses, rfl⟩ := exists_documents h
  obtain ⟨es, rs, hplaced, hfound, hlinked⟩ :=
    allEntities_linked config (local_of_forall₂ hparses)
  have hmem (e : Entity) : e ∈ entities (toBatch (linked config parsed)) ↔
      e ∈ es.map (Junction.settle rs) := by
    rw [mem_entities_toBatch, hlinked]
  obtain ⟨e₀, he₀, rfl⟩ := List.mem_map.mp ((hmem e).mp he)
  rw [Junction.name_settle]
  exact reaches_of_mem_settle hplaced hfound
    (fun e he _ hlist => (declared_of_placed hparses (hplaced e he) hlist).2) hmem he₀ hr

def grammarReader : TreeReader where
  read _ bytes := ⟨(Syntax.read bytes).1, (Syntax.read bytes).2⟩
  stack := .levels 490

/-- Two tables and a junction whose columns stand for them, with a relation through it. -/
def schoolSources : Keyed Source := [("school.ts", .text
  "export const as=pgTable('as',\x7b\x7d),bs=pgTable('bs',\x7b\x7d),
aToB=pgTable('j',\x7baId:f(),bId:f()\x7d)
export const asRelations=relations(as,()=>(\x7bx:many(aToB)\x7d))")]

/-- The sample is extracted, and the relation through the junction is resolved. -/
theorem exists_schoolBatch : ∃ batch : Batch,
    (ofSources grammarReader {} schoolSources).outcome = .ok batch ∧
    ∃ e ∈ batch.entities, ∃ r ∈ e.relationItems, r.finalTarget = some "bs" := by
  have hsample : (ofSources grammarReader {} schoolSources).outcome.toOption.any fun (batch : Batch) =>
      decide (∃ e ∈ batch.entities, ∃ r ∈ e.relationItems,
        r.finalTarget = some ("bs" : Text)) := by
    decide +kernel
  obtain ⟨batch, hbatch, htarget⟩ := (Option.any_eq_true _ _).mp hsample
  exact ⟨batch, Except.toOption_eq_some.mp hbatch, of_decide_eq_true htarget⟩

theorem reaches_of_schoolSources : ∃ batch : Batch,
    (ofSources grammarReader {} schoolSources).outcome = .ok batch ∧
    ∃ e ∈ batch.entities, ∃ r ∈ e.relationItems,
      Reaches {} batch.entities e.name r "bs" := by
  obtain ⟨batch, hbatch, e, he, r, hr, htarget⟩ := exists_schoolBatch
  exact ⟨batch, hbatch, e, he, r, hr, (reaches_of_ofSources hbatch he hr).2 _ htarget⟩

end Batch
end SchemaAtlas
