import SchemaAtlas.Proofs.Batch.Contribution
import SchemaAtlas.Proofs.Relation.Origins

/-!
# Relations in a document of their own

Relations declarations may stand beside the tables that they are for, or in a document of their own.
Beside the tables they are attached when the document is read, and from elsewhere when the batch is
linked. Both give an entity the same list, and only its origin tells where it was declared.
-/

namespace SchemaAtlas

namespace ParsedDocument

variable {rules : DeclarationRules} {kind other : DeclarationKind} {ds : List Declaration}

/-- The declarations that are not of a kind, in order. -/
def ofOtherKinds (rules : DeclarationRules) (kind : DeclarationKind)
    (declarations : List Declaration) : List Declaration :=
  declarations.filter fun d => d.kind? rules ≠ some kind

theorem ofKind_ofOtherKinds (h : kind ≠ other) :
    ofKind rules kind (ofOtherKinds rules other ds) = ofKind rules kind ds := by
  rw [ofKind, ofOtherKinds, List.filter_filter, ofKind]
  apply List.filter_congr
  intro d _
  by_cases hkind : d.kind? rules = some kind
  · simp [hkind, h]
  · simp [hkind]

theorem ofKind_ofOtherKinds_self : ofKind rules kind (ofOtherKinds rules kind ds) = [] := by
  rw [ofKind, ofOtherKinds, List.filter_filter, List.filter_eq_nil_iff]
  simp

theorem ofKind_ofKind_self : ofKind rules kind (ofKind rules kind ds) = ofKind rules kind ds := by
  rw [ofKind, ofKind, List.filter_filter]
  simp

theorem ofKind_ofKind (h : kind ≠ other) : ofKind rules kind (ofKind rules other ds) = [] := by
  rw [ofKind, ofKind, List.filter_filter, List.filter_eq_nil_iff]
  intro d _ hd
  simp only [Bool.and_eq_true, decide_eq_true_eq] at hd
  exact h (Option.some.inj (hd.1.symm.trans hd.2))

section Origin

variable {p q r : ParsedDocument}

/-- The entities of a document get across documents what they have on their own, but for the origin,
if the relations that reach them are the same. -/
theorem map_attached_eq (hp : p.Local)
    (hentities : q.entities.map Entity.withoutRelations = p.entities.map Entity.withoutRelations)
    {ps : List ParsedDocument} {position origin : Nat}
    (hreach : ∀ name, ((q.relations.get? name).map (RelationList.mk position)).or
      (foreignList? ps name) = (p.relations.get? name).map (RelationList.mk origin)) :
    q.entities.map (attached ps position q) =
      p.entities.map (Entity.mapOrigin fun _ => origin) := by
  have hbare (es : List Entity) : es.map (attached ps position q) =
      (es.map Entity.withoutRelations).map (attached ps position q) := by
    rw [List.map_map]
    rfl
  rw [hbare, hentities, ← hbare]
  apply List.map_congr_left
  intro e he
  have hown := hp e he
  simp only [attached, hreach, Entity.mapOrigin, hown, Option.map_map]
  rfl

theorem foreignList?_singleton (p : ParsedDocument) (name : Text) : foreignList? [p] name =
    if p.has name then none else (p.relations.get? name).map (RelationList.mk 0) := by
  simp only [foreignList?, allForeign, List.mapIdx_cons, List.mapIdx_nil, List.findSome?_cons,
    List.findSome?_nil, get?_foreignRelations]
  cases p.has name <;> cases p.relations.get? name <;> rfl

theorem foreignList?_pair (p q : ParsedDocument) (name : Text) : foreignList? [p, q] name =
    (if p.has name then none else (p.relations.get? name).map (RelationList.mk 0)).or
      (if q.has name then none else (q.relations.get? name).map (RelationList.mk 1)) := by
  simp only [foreignList?, allForeign, List.mapIdx_cons, List.mapIdx_nil, List.findSome?_cons,
    List.findSome?_nil, get?_foreignRelations]
  generalize (if p.has name then none else (p.relations.get? name).map (RelationList.mk 0)) = first,
    (if q.has name then none else (q.relations.get? name).map (RelationList.mk 1)) = second
  cases first <;> cases second <;> rfl

end Origin
end ParsedDocument

namespace Batch

open ParsedDocument

variable {config : Config} {p q r : ParsedDocument}

def ownResolutions (config : Config) (p : ParsedDocument) : List Resolution :=
  if config.options.extractRelations && config.options.resolveManyToMany then
    Junction.resolutions config.heuristics p.entities
  else []

def settledAlone (config : Config) (p : ParsedDocument) : List Entity :=
  p.entities.map fun e => (Junction.settle (ownResolutions config p) e).withOrigin 0

/-- On its own a document numbers all its relation lists with zero. -/
theorem origin_eq_zero_of_mem_ownResolutions (hp : p.Local) {res : Resolution}
    (h : res ∈ ownResolutions config p) : res.origin = 0 := by
  unfold ownResolutions at h
  split at h
  · obtain ⟨junction, hthrough⟩ := Resolution.exists_foundThrough h
    obtain ⟨e, he, -, list, hlist, horigin, -⟩ := hthrough.place
    obtain ⟨items, -, rfl⟩ := Option.map_eq_some_iff.mp ((hp e he).symm.trans hlist)
    exact horigin.symm
  · cases h

/-- Entities that differ from those of a document in the origin of their relations are settled like
them. -/
theorem map_settle_eq (hp : p.Local) {ps : List ParsedDocument} {origin : Nat}
    (hattached : attachedEntities ps = p.entities.map (Entity.mapOrigin fun _ => origin)) :
    (p.entities.map (Entity.mapOrigin fun _ => origin)).map
      (fun e => (Junction.settle (linkResolutions config ps) e).withOrigin 0) =
        settledAlone config p := by
  have hresolutions : linkResolutions config ps =
      (ownResolutions config p).map (Resolution.mapOrigin fun _ => origin) := by
    unfold linkResolutions ownResolutions
    split
    · rw [hattached, Junction.resolutions_mapOrigin]
    · rfl
  rw [List.map_map, settledAlone]
  apply List.map_congr_left
  intro e he
  have hsettle : Junction.settle (linkResolutions config ps) (e.mapOrigin fun _ => origin) =
      (Junction.settle (ownResolutions config p) e).mapOrigin fun _ => origin := by
    rw [hresolutions]
    refine Junction.settle_mapOrigin fun list hlist res hres _ _ => ?_
    obtain ⟨items, -, rfl⟩ := Option.map_eq_some_iff.mp ((hp e he).symm.trans hlist)
    exact origin_eq_zero_of_mem_ownResolutions hp hres
  rw [Function.comp_apply, hsettle, Entity.withOrigin_mapOrigin]

/-- One document, listed as if it were a whole batch. -/
theorem records_listing_alone (config : Config) (hp : p.Local) :
    records (listing config [p]) = [(p.id, settledAlone config p)] := by
  have hreach (name : Text) : ((p.relations.get? name).map (RelationList.mk 0)).or
      (foreignList? [p] name) = (p.relations.get? name).map (RelationList.mk 0) := by
    rw [foreignList?_singleton]
    cases p.relations.get? name <;> simp
  have hentities := map_attached_eq hp rfl hreach
  have hattached : attachedEntities [p] = p.entities.map (Entity.mapOrigin fun _ => 0) := by
    simp [attachedEntities, hentities]
  rw [← map_settle_eq hp hattached, ← hentities]
  simp [records, listing]

/-- The entities of a document stand in one document, and its relations in another. -/
structure Parted (p q r : ParsedDocument) : Prop where
  entities : q.entities.map Entity.withoutRelations = p.entities.map Entity.withoutRelations
  noRelations : q.relations = []
  relations : r.relations = p.relations
  noEntities : r.entities = []

/-- A document of nothing but relations, behind the document of their tables, leaves the records of
the whole. -/
theorem records_listing_behind (config : Config) (hp : p.Local) (h : Parted p q r) :
    records (listing config [q, r]) = [(q.id, settledAlone config p), (r.id, [])] := by
  have hreach (name : Text) : ((q.relations.get? name).map (RelationList.mk 0)).or
      (foreignList? [q, r] name) = (p.relations.get? name).map (RelationList.mk 1) := by
    have hhas : r.has name = false := by rw [has, h.noEntities, List.any_nil]
    simp [foreignList?_pair, h.noRelations, Keyed.get?_nil, hhas, h.relations]
  have hentities := map_attached_eq hp h.entities hreach
  have hattached : attachedEntities [q, r] = p.entities.map (Entity.mapOrigin fun _ => 1) := by
    simp [attachedEntities, hentities, h.noEntities]
  rw [← map_settle_eq hp hattached, ← hentities]
  simp [records, listing, h.noEntities]

/-- In front of the document of their tables, relations leave the same records. -/
theorem records_listing_before (config : Config) (hp : p.Local) (h : Parted p q r) :
    records (listing config [r, q]) = [(r.id, []), (q.id, settledAlone config p)] := by
  have hreach (name : Text) : ((q.relations.get? name).map (RelationList.mk 1)).or
      (foreignList? [r, q] name) = (p.relations.get? name).map (RelationList.mk 0) := by
    have hhas : r.has name = false := by rw [has, h.noEntities, List.any_nil]
    simp [foreignList?_pair, h.noRelations, Keyed.get?_nil, hhas, h.relations]
  have hentities := map_attached_eq hp h.entities hreach
  have hattached : attachedEntities [r, q] = p.entities.map (Entity.mapOrigin fun _ => 0) := by
    simp [attachedEntities, hentities, h.noEntities]
  rw [← map_settle_eq hp hattached, ← hentities]
  simp [records, listing, h.noEntities]

/-- The batch of documents that are read already, each with its id. -/
def ofRead (config : Config) (documents : Keyed Document) : Trace Batch := do
  let parsed ← documents.mapM fun (name, document) => ofDocument config name document
  ofDocuments config parsed

/-- Only the tables of a document can end the run, so they are all that is run in order. -/
theorem outcome_ofRead (config : Config) (documents : Keyed Document) :
    (ofRead config documents).outcome = (fun parsed => toBatch (linked config parsed)) <$>
      documents.mapM fun d => d.2.parsedWith config d.1 <$> d.2.ownEntities config := by
  have hread : (ofRead config documents).outcome =
      (documents.mapM fun d => (ofDocument config d.1 d.2).outcome) >>= fun parsed =>
        (ofDocuments config parsed).outcome := by
    rw [ofRead, Trace.outcome_bind, Trace.outcome_mapM]
  rw [hread, map_eq_pure_bind]
  simp only [outcome_ofDocuments, Document.outcome_ofDocument_eq]
  rfl

/-- A batch of sources is the batch of the documents that they are read as. -/
theorem outcome_ofSources_of_readAs {reader : TreeReader} {sources : Keyed Source}
    {documents : Keyed Document}
    (h : List.Forall₂ (fun s d => d.1 = s.1 ∧ s.2.ReadAs reader s.1 d.2) sources documents) :
    (ofSources reader config sources).outcome = (ofRead config documents).outcome := by
  rw [outcome_ofSources, outcome_ofRead]
  congr 1
  refine Except.mapM_congr_forall₂ h ?_
  rintro s d ⟨hid, result, hread, hdocument⟩
  rw [contribution_eq, parseSource, Trace.outcome_bind, hread, hid, hdocument]
  cases result with
  | error failure =>
    have hempty := Document.parsesTo_empty config s.1 false
    rw [Document.ParsesTo, Document.outcome_ofDocument_eq] at hempty
    exact hempty.symm
  | ok document =>
    simp only [Except.ok_bind, Except.toOption, Option.getD_some, Trace.outcome_bind,
      Document.outcome_ofDocument_eq]
    cases Document.ownEntities config document <;> rfl

variable {ds : List Declaration}

theorem ownEntities_withoutRelations (config : Config) (ds : List Declaration) (f g : Bool) :
    Document.ownEntities config ⟨ofOtherKinds config.declarations .relations ds, f⟩ =
      Document.ownEntities config ⟨ds, g⟩ := by
  have htables : Document.tables config ⟨ofOtherKinds config.declarations .relations ds, f⟩ =
      Document.tables config ⟨ds, g⟩ := ofKind_ofOtherKinds (by decide)
  have henums : Document.enums config ⟨ofOtherKinds config.declarations .relations ds, f⟩ =
      Document.enums config ⟨ds, g⟩ := congrArg enumsOf (ofKind_ofOtherKinds (by decide))
  rw [Document.ownEntities, htables, henums, Document.ownEntities]

theorem ownEntities_relations (config : Config) (ds : List Declaration) (f : Bool) :
    Document.ownEntities config ⟨ofKind config.declarations .relations ds, f⟩ = .ok [] := by
  have htables : Document.tables config ⟨ofKind config.declarations .relations ds, f⟩ = [] :=
    ofKind_ofKind (by decide)
  rw [Document.ownEntities, htables]
  rfl

/-- A document without its relations declarations and one of nothing else part what the whole
document has. -/
theorem parted_parsedWith (config : Config) (ds : List Declaration) (a b c : Text) (f g h : Bool)
    (entities : List Entity) :
    Parted (Document.parsedWith config ⟨ds, f⟩ a entities)
      (Document.parsedWith config ⟨ofOtherKinds config.declarations .relations ds, g⟩ b entities)
      (Document.parsedWith config ⟨ofKind config.declarations .relations ds, h⟩ c []) := by
  have hpairs : Document.relationPairs config
      ⟨ofOtherKinds config.declarations .relations ds, g⟩ = [] := by
    rw [Document.relationPairs, ofKind_ofOtherKinds_self]
    rfl
  have hpairs' : Document.relationPairs config ⟨ofKind config.declarations .relations ds, h⟩ =
      Document.relationPairs config ⟨ds, f⟩ := by
    rw [Document.relationPairs, ofKind_ofKind_self, Document.relationPairs]
  refine ⟨?_, ?_, ?_, rfl⟩
  · simp [Document.parsedWith, Entity.attach_eq, Entity.withoutRelations, Function.comp_def]
  · simp [Document.parsedWith, hpairs, Keyed.ofList]
  · simp [Document.parsedWith, hpairs']

/-- Relations declarations in a document of their own, before or behind the rest, give the tables
the same entities as beside them, and nothing to their own document. -/
theorem records_ofRead_divided (config : Config) (ds : List Declaration) {a b c : Text}
    (hids : b ≠ c) (f g h : Bool) :
    ∃ result : Except Fault (List Entity),
      records <$> (ofRead config [(a, ⟨ds, f⟩)]).outcome = (fun es => [(a, es)]) <$> result ∧
      records <$> (ofRead config [(b, ⟨ofOtherKinds config.declarations .relations ds, g⟩),
        (c, ⟨ofKind config.declarations .relations ds, h⟩)]).outcome =
          (fun es => [(b, es), (c, [])]) <$> result ∧
      records <$> (ofRead config [(c, ⟨ofKind config.declarations .relations ds, h⟩),
        (b, ⟨ofOtherKinds config.declarations .relations ds, g⟩)]).outcome =
          (fun es => [(c, []), (b, es)]) <$> result := by
  have hrest := ownEntities_withoutRelations config ds g f
  have hrelations := ownEntities_relations config ds h
  refine ⟨(fun entities => settledAlone config (Document.parsedWith config ⟨ds, f⟩ a entities)) <$>
    Document.ownEntities config ⟨ds, f⟩, ?_⟩
  simp only [outcome_ofRead, List.mapM_cons, List.mapM_nil, hrest, hrelations]
  cases hentities : Document.ownEntities config ⟨ds, f⟩ with
  | error fault => exact ⟨rfl, rfl, rfl⟩
  | ok entities =>
    have hparses : ∀ (d : Document) (name : Text) (es : List Entity),
        d.ownEntities config = .ok es → d.ParsesTo config (d.parsedWith config name es) := by
      intro d name es hes
      rw [Document.ParsesTo, Document.outcome_ofDocument_eq, hes]
      rfl
    have hwhole := hparses ⟨ds, f⟩ a entities hentities
    have htables := hparses _ b entities (hrest.trans hentities)
    have hother := hparses _ c [] hrelations
    have hlocal := local_of_parsesTo hwhole
    have hparted := parted_parsedWith config ds a b c f g h entities
    refine ⟨?_, ?_, ?_⟩
    · show Except.ok (records (toBatch (linked config [_]))) = Except.ok [(a, _)]
      rw [toBatch_linked (by simp) (by simpa using ⟨_, hwhole⟩),
        records_listing_alone config hlocal]
      rfl
    · show Except.ok (records (toBatch (linked config [_, _]))) = Except.ok [(b, _), (c, [])]
      rw [toBatch_linked (by simpa [Document.parsedWith] using hids)
        (by simpa using ⟨⟨_, htables⟩, ⟨_, hother⟩⟩),
        records_listing_behind config hlocal hparted]
      rfl
    · show Except.ok (records (toBatch (linked config [_, _]))) = Except.ok [(c, []), (b, _)]
      rw [toBatch_linked (by simpa [Document.parsedWith] using hids.symm)
        (by simpa using ⟨⟨_, hother⟩, ⟨_, htables⟩⟩),
        records_listing_before config hlocal hparted]
      rfl

/-- Users and clubs, joined by a table, with relations that are declared in front of their table. -/
def clubDeclarations : List Declaration := [
  relationsDeclaration "users" ["usersToClubs"],
  tableDeclaration "users",
  tableDeclaration "clubs",
  callDeclaration "usersToClubs" "pgTable" [.string "users_to_clubs", .object [
    ("userId", .call (.identifier "integer") [.string "user_id"]),
    ("clubId", .call (.identifier "integer") [.string "club_id"])]]]

theorem records_ofRead_divided_clubs :
    ("tables" : Text) ≠ "relations" ∧ ∃ es : List Entity,
      (∃ e ∈ es, ∃ r ∈ e.relationItems, r.finalTarget = some ("clubs" : Text)) ∧
      records <$> (ofRead {} [("all", ⟨clubDeclarations, false⟩)]).outcome = .ok [("all", es)] ∧
      records <$> (ofRead {} [("tables", ⟨ofOtherKinds {} .relations clubDeclarations, false⟩),
        ("relations", ⟨ofKind {} .relations clubDeclarations, false⟩)]).outcome =
          .ok [("tables", es), ("relations", [])] ∧
      records <$> (ofRead {} [("relations", ⟨ofKind {} .relations clubDeclarations, false⟩),
        ("tables", ⟨ofOtherKinds {} .relations clubDeclarations, false⟩)]).outcome =
          .ok [("relations", []), ("tables", es)] := by
  have hids : ("tables" : Text) ≠ "relations" := by decide
  have hsample : (records <$> (ofRead {} [("all", ⟨clubDeclarations, false⟩)]).outcome).toOption.any
      fun (batch : Batch) => ∃ e ∈ batch.entities, ∃ r ∈ e.relationItems,
        r.finalTarget = some ("clubs" : Text) := by
    decide +kernel
  obtain ⟨batch, hbatch, hresolved⟩ := (Option.any_eq_true _ _).mp hsample
  obtain ⟨result, hwhole, hbehind, hbefore⟩ :=
    records_ofRead_divided {} clubDeclarations (a := "all") hids false false false
  rw [hwhole, Except.toOption_eq_some] at hbatch
  obtain ⟨es, rfl, rfl⟩ := Except.map_eq_ok.mp hbatch
  refine ⟨hids, es, ?_, hwhole, hbehind, hbefore⟩
  simpa [entities] using hresolved

end Batch
end SchemaAtlas
