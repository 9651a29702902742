import SchemaAtlas.Proofs.Batch.Contribution
import SchemaAtlas.Proofs.Batch.Linked
import SchemaAtlas.Proofs.Entity.Stages
import SchemaAtlas.Proofs.Relation.Origins

/-!
# What a stage governs in a batch

A batch that is extracted with a stage switched off is the batch extracted with it, less the fields
that the stage governs. Reading a document, attaching relations and putting documents together all
go along with leaving these fields out. So does the resolution of relations, if it is made at all:
it sees types, references and relations, but neither comments nor audit columns.
-/

namespace SchemaAtlas

def Stage.keepsResolution : Stage → Bool
  | .comments | .auditColumns => true
  | .types | .relations | .resolution => false

def ParsedDocument.without (stage : Stage) (p : ParsedDocument) : ParsedDocument :=
  { p with
    entities := p.entities.map (Entity.without stage)
    relations := if stage = .relations then [] else p.relations }

def Batch.without (stage : Stage) (batch : Batch) : Batch :=
  batch.map fun listed => (listed.1, listed.2.map (Entity.without stage))

namespace Entity

variable {stage : Stage}

@[simp] theorem name_without (stage : Stage) (e : Entity) : (e.without stage).name = e.name := by
  cases stage <;> rfl

/-- Relations that are not resolved yet are governed by their own stage only. -/
theorem withRelations_without (hstage : stage ≠ .relations) {e : Entity}
    {lists : Option RelationList} (h : ∀ list, lists = some list → list.unresolved = list) :
    Entity.without stage { e with relations := lists } =
      { e.without stage with relations := lists } := by
  have hlists : lists.map RelationList.unresolved = lists := by
    cases lists with
    | none => rfl
    | some list => rw [Option.map_some, h list rfl]
  cases stage with
  | comments | auditColumns => rfl
  | types | resolution => simp [Entity.without, Entity.unresolved, hlists]
  | relations => exact absurd rfl hstage

theorem attach_without (hstage : stage ≠ .relations) {lists : Keyed RelationList} {e : Entity}
    (h : e.relations = none) (hlists : ∀ list, lists.get? e.name = some list →
      list.unresolved = list) :
    (e.without stage).attach lists false = (e.attach lists false).without stage := by
  have hnone : (e.without stage).relations = none := by
    cases stage <;> simp [without, unresolved, withoutRelations, h]
  have hrelations := withRelations_without hstage (e := e) hlists
  rw [attach_of_none lists hnone, attach_of_none lists h, hrelations]
  simp only [name_without]

/-- A stage with which relations are still resolved governs nothing that a resolution sees. -/
theorem renaming_without (h : stage.keepsResolution) : Renaming (without stage) id := by
  cases stage with
  | comments =>
    refine ⟨fun _ => rfl, fun _ => rfl, fun e => ?_, fun _ => rfl⟩
    simp [Entity.without, Column.withoutComments, Column.link, Function.comp_def]
  | auditColumns => exact ⟨fun _ => rfl, fun _ => rfl, fun _ => rfl, fun _ => rfl⟩
  | types | relations | resolution => cases h

/-- Settling an entity goes along with leaving out what a stage governs. -/
theorem settle_without (stage : Stage) (rs : List Resolution) (e : Entity) :
    Junction.settle (if stage.keepsResolution then rs else []) (e.without stage) =
      (Junction.settle rs e).without stage := by
  cases stage with
  | comments | auditColumns =>
    simp only [Stage.keepsResolution, if_true, Junction.settle_eq]
    rfl
  | types | relations | resolution =>
    simp [Stage.keepsResolution, Junction.settle_eq, Entity.without, Entity.unresolved,
      Entity.withoutRelations, Function.comp_def]

end Entity

namespace Document

variable {config : Config} {document : Document} {p : ParsedDocument} {stage : Stage}

/-- A stage that is switched off leaves its fields empty in the entities of a document. -/
theorem ownEntities_without (config : Config) (stage : Stage) (document : Document) :
    document.ownEntities (config.without stage) =
      List.map (Entity.without stage) <$> document.ownEntities config := by
  have hread (results : List (Except Mismatch Entity)) :
      (results.map (Except.map (Entity.without stage))).filterMap Except.toOption =
        (results.filterMap Except.toOption).map (Entity.without stage) := by
    rw [List.filterMap_map, List.map_filterMap]
    congr 1
    funext result
    cases result <;> rfl
  rw [ownEntities, ownEntities]
  simp only [Entity.outcome_ofDeclaration_without]
  rw [Except.mapM_map]
  change _ <$> _ <$> ((document.tables config).mapM fun d =>
    (Entity.ofDeclaration config (document.enums config) d).outcome) = _
  cases (document.tables config).mapM fun d =>
      (Entity.ofDeclaration config (document.enums config) d).outcome with
  | error fault => rfl
  | ok results => exact congrArg Except.ok (hread results)

/-- A document that is parsed with a stage switched off lacks just what the stage governs. -/
theorem parsedWith_without (config : Config) (stage : Stage) (document : Document) (id : Text)
    {entities : List Entity} (h : ∀ e ∈ entities, e.relations = none) :
    document.parsedWith (config.without stage) id (entities.map (Entity.without stage)) =
      (document.parsedWith config id entities).without stage := by
  by_cases hstage : stage = .relations
  · subst hstage
    simp [parsedWith, ParsedDocument.without, Config.without, Options.without, Entity.without,
      Entity.attach_eq, Entity.withoutRelations, Keyed.get?_nil, Function.comp_def, enums]
  · have hextract : (config.without stage).options.extractRelations =
        config.options.extractRelations := by
      cases stage <;> first | rfl | exact absurd rfl hstage
    have hpairs : document.relationPairs (config.without stage) =
        document.relationPairs config := rfl
    have hdeclared (table : Text) (items : List Relation) (hitems : Keyed.get?
        (if config.options.extractRelations then Keyed.ofList (document.relationPairs config)
          else []) table = some items) : document.relationsFor? config table = some items := by
      split at hitems
      · rwa [Keyed.get?_ofList] at hitems
      · cases hitems
    simp only [parsedWith, hextract, hpairs, ParsedDocument.without, if_neg hstage]
    generalize (if config.options.extractRelations then
      Keyed.ofList (document.relationPairs config) else []) = relations at hdeclared ⊢
    have hattach : (entities.map (Entity.without stage)).map
          (Entity.attach (relations.map fun p => (p.1, RelationList.mk 0 p.2)) false) =
        (entities.map (Entity.attach (relations.map fun p => (p.1, RelationList.mk 0 p.2))
          false)).map (Entity.without stage) := by
      rw [List.map_map, List.map_map]
      refine List.map_congr_left fun e he => Entity.attach_without hstage (h e he) ?_
      intro list hlist
      rw [Keyed.get?_map, Option.map_eq_some_iff] at hlist
      obtain ⟨items, hitems, rfl⟩ := hlist
      exact unresolved_of_relationsFor? (hdeclared e.name items hitems) 0
    rw [hattach]
    rfl

theorem relations_of_ownEntities {entities : List Entity}
    (h : document.ownEntities config = .ok entities) : ∀ e ∈ entities, e.relations = none := by
  intro e he
  obtain ⟨results, hresults, rfl⟩ := Except.map_eq_ok.mp h
  obtain ⟨result, hmem, hresult⟩ := List.mem_filterMap.mp he
  obtain ⟨d, -, hread⟩ := exists_left_of_forall₂ (Except.mapM_eq_ok.mp hresults) hmem
  rw [Except.toOption_eq_some.mp hresult] at hread
  exact Entity.relations_ofDeclaration hread

theorem outcome_ofDocument_without (config : Config) (stage : Stage) (id : Text)
    (document : Document) :
    (ParsedDocument.ofDocument (config.without stage) id document).outcome =
      ParsedDocument.without stage <$> (ParsedDocument.ofDocument config id document).outcome := by
  rw [outcome_ofDocument_eq, outcome_ofDocument_eq, ownEntities_without]
  cases hentities : document.ownEntities config with
  | error fault => rfl
  | ok entities =>
    exact congrArg Except.ok
      (parsedWith_without config stage document id (relations_of_ownEntities hentities))

theorem ParsesTo.without (h : document.ParsesTo config p) (stage : Stage) :
    document.ParsesTo (config.without stage) (p.without stage) := by
  have hid : (p.without stage).id = p.id := rfl
  rw [ParsesTo, hid, outcome_ofDocument_without, h]
  rfl

end Document

namespace ParsedDocument

variable {config : Config} {ps : List ParsedDocument} {stage : Stage}

@[simp] theorem has_without (stage : Stage) (p : ParsedDocument) (name : Text) :
    (p.without stage).has name = p.has name := by
  simp [has, without, Function.comp_def]

theorem get?_relations_without (stage : Stage) (p : ParsedDocument) (name : Text) :
    (p.without stage).relations.get? name =
      if stage = .relations then none else p.relations.get? name := by
  simp only [without]
  split <;> rfl

/-- Only without relations nothing is offered across documents. -/
theorem foreignList?_without (stage : Stage) (ps : List ParsedDocument) (name : Text) :
    foreignList? (ps.map (without stage)) name =
      if stage = .relations then none else foreignList? ps name := by
  split
  · next hstage =>
    rw [Option.eq_none_iff_forall_ne_some]
    intro list hlist
    obtain ⟨q, hq, -, hitems⟩ := foreignList?_eq_some hlist
    obtain ⟨p, -, rfl⟩ := List.mem_map.mp (List.mem_of_getElem? hq)
    simp [get?_relations_without, hstage] at hitems
  · next hstage =>
    apply findSome?_eq_of_map_eq
    apply List.ext_getElem?
    intro i
    simp only [allForeign, List.getElem?_map, List.getElem?_mapIdx]
    cases ps[i]? with
    | none => rfl
    | some p => simp [get?_relations_without, hstage]

/-- Relations are attached alike with and without what a stage governs. -/
theorem attached_without (hparses : ∀ p ∈ ps, ∃ document, Document.ParsesTo config document p)
    (stage : Stage) (i : Nat) {p : ParsedDocument} (hp : p ∈ ps) (e : Entity) :
    attached (ps.map (without stage)) i (p.without stage) (e.without stage) =
      (attached ps i p e).without stage := by
  simp only [attached, Entity.name_without, get?_relations_without, foreignList?_without]
  by_cases hstage : stage = .relations
  · subst hstage
    rfl
  · simp only [if_neg hstage]
    have hlists (list : RelationList) (hlist : ((p.relations.get? e.name).map
        (RelationList.mk i)).or (foreignList? ps e.name) = some list) :
        list.unresolved = list := by
      rcases Option.or_eq_some_iff.mp hlist with hown | ⟨-, hforeign⟩
      · obtain ⟨items, hitems, rfl⟩ := Option.map_eq_some_iff.mp hown
        exact unresolved_of_parsesTo (hparses p hp) hitems i
      · obtain ⟨q, hq, -, hitems⟩ := foreignList?_eq_some hforeign
        exact unresolved_of_parsesTo (hparses q (List.mem_of_getElem? hq)) hitems list.origin
    rw [Entity.withRelations_without hstage hlists]
    simp only [Entity.name_without]

theorem toBatch_without (stage : Stage) (ps : List ParsedDocument) :
    toBatch (ps.map (without stage)) = (toBatch ps).without stage := by
  induction ps using List.reverseRecOn with
  | nil => rfl
  | append_singleton ps p ih =>
    rw [List.map_append, List.map_singleton, Batch.toBatch_concat, Batch.toBatch_concat, ih]
    refine Keyed.alter_map (List.map (Entity.without stage)) (fun old => ?_) p.id _
    rw [List.map_append]
    cases old <;> rfl

end ParsedDocument

namespace Batch

open ParsedDocument

variable {config : Config} {ps : List ParsedDocument}

/-- Attaching gives the same with a stage switched off, apart from its fields. -/
theorem attachedEntities_without
    (hparses : ∀ p ∈ ps, ∃ document, Document.ParsesTo config document p) (stage : Stage) :
    attachedEntities (ps.map (ParsedDocument.without stage)) =
      (attachedEntities ps).map (Entity.without stage) := by
  have hattached : ((ps.map (ParsedDocument.without stage)).mapIdx fun i q =>
        q.entities.map (attached (ps.map (ParsedDocument.without stage)) i q)) =
      (ps.mapIdx fun i p => p.entities.map (attached ps i p)).map
        (List.map (Entity.without stage)) := by
    refine mapIdx_map_of_mem fun i p hp => ?_
    rw [ParsedDocument.without, List.map_map, List.map_map]
    exact List.map_congr_left fun e _ => attached_without hparses stage i hp e
  rw [attachedEntities, hattached, attachedEntities, List.map_flatten]

/-- The stages that a resolution needs are its own, the relations and the types. -/
theorem linkResolutions_without
    (hparses : ∀ p ∈ ps, ∃ document, Document.ParsesTo config document p) (stage : Stage) :
    linkResolutions (config.without stage) (ps.map (ParsedDocument.without stage)) =
      if stage.keepsResolution then linkResolutions config ps else [] := by
  have hentities := attachedEntities_without hparses stage
  have hmap (hkeeps : stage.keepsResolution) : Junction.resolutions config.heuristics
      ((attachedEntities ps).map (Entity.without stage)) =
        Junction.resolutions config.heuristics (attachedEntities ps) :=
    (Junction.resolutions_map (Entity.renaming_without hkeeps) _).trans (List.map_id _)
  cases stage with
  | comments | auditColumns =>
    simp only [linkResolutions, hentities, Stage.keepsResolution, if_true]
    rw [← hmap rfl]
    rfl
  | relations | resolution => simp [linkResolutions, Config.without, Options.without,
    Stage.keepsResolution]
  | types =>
    have hnone : Junction.junctions ((attachedEntities ps).map (Entity.without .types)) = [] := by
      simp [Junction.junctions, Entity.without]
    simp [linkResolutions, hentities, Junction.resolutions, hnone, Stage.keepsResolution]

/-- A linked batch is the same with a stage switched off, apart from its fields. -/
theorem linked_without
    (hparses : ∀ p ∈ ps, ∃ document, Document.ParsesTo config document p) (stage : Stage) :
    linked (config.without stage) (ps.map (ParsedDocument.without stage)) =
      (linked config ps).map (ParsedDocument.without stage) := by
  have hwithout : ∀ q ∈ ps.map (ParsedDocument.without stage), ∃ document,
      Document.ParsesTo (config.without stage) document q := by
    refine List.forall_mem_map.mpr fun p hp => ?_
    obtain ⟨document, hparses⟩ := hparses p hp
    exact ⟨document, hparses.without stage⟩
  rw [linked_of_parsesTo hparses, linked_of_parsesTo hwithout, linkResolutions_without hparses]
  refine mapIdx_map_of_mem fun i p hp => ?_
  have hentities : (p.without stage).entities.map (fun e => Junction.settle
        (if stage.keepsResolution then linkResolutions config ps else [])
        (attached (ps.map (ParsedDocument.without stage)) i (p.without stage) e)) =
      (p.entities.map fun e => Junction.settle (linkResolutions config ps)
        (attached ps i p e)).map (Entity.without stage) := by
    rw [ParsedDocument.without, List.map_map, List.map_map]
    refine List.map_congr_left fun e _ => ?_
    rw [Function.comp_apply, Function.comp_apply, ← Entity.settle_without,
      ← attached_without hparses stage i hp e]
    rfl
  rw [hentities]
  rfl

/-- What a source contributes is the same with a stage switched off, apart from its fields. -/
theorem contribution_without (reader : TreeReader) (config : Config) (stage : Stage)
    (s : Text × Source) : contribution reader (config.without stage) s =
      ParsedDocument.without stage <$> contribution reader config s := by
  have hempty : ({ id := s.1 } : ParsedDocument) =
      ParsedDocument.without stage { id := s.1 } := by
    simp [ParsedDocument.without]
  rw [contribution_eq, contribution_eq, parseSource, parseSource, Trace.outcome_bind,
    Trace.outcome_bind]
  cases (readSource reader s.1 none s.2).outcome with
  | error fault => rfl
  | ok result =>
    cases result with
    | error failure => exact congrArg Except.ok hempty
    | ok document =>
      simp only [Except.ok_bind, Trace.outcome_bind, Document.outcome_ofDocument_without]
      cases (ofDocument config s.1 document).outcome <;> rfl

/-- A batch that is extracted with a stage switched off is the batch without the fields that the
stage governs. -/
theorem outcome_ofSources_without (reader : TreeReader) (config : Config) (stage : Stage)
    (sources : Keyed Source) : (ofSources reader (config.without stage) sources).outcome =
      Batch.without stage <$> (ofSources reader config sources).outcome := by
  rw [outcome_ofSources, outcome_ofSources,
    funext (contribution_without reader config stage), Except.mapM_map]
  cases hparsed : sources.mapM (contribution reader config) with
  | error fault => rfl
  | ok ps =>
    have hparses : ∀ p ∈ ps, ∃ document, Document.ParsesTo config document p := by
      intro p hp
      obtain ⟨s, -, hs⟩ := exists_left_of_forall₂ (Except.mapM_eq_ok.mp hparsed) hp
      obtain ⟨document, -, -, hparses⟩ := exists_document hs
      exact ⟨document, hparses⟩
    simp only [Except.map_ok, linked_without hparses, toBatch_without]

end Batch
end SchemaAtlas
