import SchemaAtlas.Proofs.Batch.Run

/-!
# What each source contributes to a batch

Every source is read on its own and contributes one document, an empty one if it fails. Linking
keeps the documents and their entities in their places, so a batch of sources with different ids
lists under each id the entities that its source contributes, with relations attached and settled.
-/

namespace SchemaAtlas

theorem map_mapIdx {α β γ : Type} (g : β → γ) (f : Nat → α → β) (xs : List α) :
    (xs.mapIdx f).map g = xs.mapIdx fun i x => g (f i x) := by
  apply List.ext_getElem?
  simp [Function.comp_def]

theorem mapIdx_const {α β : Type} (f : α → β) (xs : List α) :
    xs.mapIdx (fun _ x => f x) = xs.map f := by
  apply List.ext_getElem?
  simp

/-- A change by positions that goes along with a change of all members. -/
theorem mapIdx_map_of_mem {α α' β β' : Type} {f : α → α'} {g : β → β'} {F : Nat → α → β}
    {F' : Nat → α' → β'} {xs : List α} (h : ∀ i, ∀ x ∈ xs, F' i (f x) = g (F i x)) :
    (xs.map f).mapIdx F' = (xs.mapIdx F).map g := by
  apply List.ext_getElem?
  intro i
  simp only [List.getElem?_mapIdx, List.getElem?_map]
  cases hx : xs[i]? with
  | none => rfl
  | some x => exact congrArg some (h i x (List.mem_of_getElem? hx))

namespace Batch

open ParsedDocument

variable {reader : TreeReader} {config : Config} {sources : Keyed Source} {batch : Batch}

theorem contribution_eq (reader : TreeReader) (config : Config) (s : Text × Source) :
    contribution reader config s = (fun result => result.toOption.getD { id := s.1 }) <$>
      (parseSource reader config s.1 none s.2).outcome := by
  have hempty (result : Except DocumentFailure ParsedDocument) :
      (orEmpty s.1 result).outcome = .ok (result.toOption.getD { id := s.1 }) := by
    cases result <;> rfl
  simp only [contribution, Trace.outcome_bind, hempty]
  cases (parseSource reader config s.1 none s.2).outcome <;> rfl

def contributed (reader : TreeReader) (config : Config) (s : Text × Source) : ParsedDocument :=
  (contribution reader config s).toOption.getD { id := s.1 }

theorem contributed_of_eq_ok {s : Text × Source}
    {result : Except DocumentFailure ParsedDocument}
    (h : (parseSource reader config s.1 none s.2).outcome = .ok result) :
    contributed reader config s = result.toOption.getD { id := s.1 } := by
  rw [contributed, contribution_eq, h]
  rfl

/-- What a source contributes is a document with its id that its source parses to. -/
theorem exists_parsesTo (reader : TreeReader) (config : Config) (s : Text × Source) :
    (contributed reader config s).id = s.1 ∧
    ∃ document, document.ParsesTo config (contributed reader config s) ∧
      (Returns (contribution reader config s) → s.2.ReadAs reader s.1 document) := by
  cases h : contribution reader config s with
  | error fault =>
    rw [contributed, h]
    exact ⟨rfl, ⟨[], false⟩, Document.parsesTo_empty config s.1 false, by simp⟩
  | ok p =>
    obtain ⟨document, hread, hid, hparses⟩ := exists_document h
    rw [contributed, h]
    exact ⟨hid, document, hparses, fun _ => hread⟩

@[simp] theorem id_contributed (reader : TreeReader) (config : Config) (s : Text × Source) :
    (contributed reader config s).id = s.1 :=
  (exists_parsesTo reader config s).1

theorem local_contributed (reader : TreeReader) (config : Config) (s : Text × Source) :
    (contributed reader config s).Local := by
  obtain ⟨-, document, hparses, -⟩ := exists_parsesTo reader config s
  exact local_of_parsesTo hparses

/-- Documents of different ids are listed as they are. -/
theorem toBatch_of_nodup {ps : List ParsedDocument} (h : (ps.map (·.id)).Nodup) :
    toBatch ps = ps.map fun p => (p.id, p.entities) := by
  induction ps using List.reverseRecOn with
  | nil => rfl
  | append_singleton ps p ih =>
    rw [List.map_append, List.nodup_append] at h
    obtain ⟨hps, -, hnew⟩ := h
    have hkeys : (ps.map fun p => (p.id, p.entities)).map (·.1) = ps.map (·.id) := by
      simp [Function.comp_def]
    have hkey : p.id ∉ (ps.map fun p => (p.id, p.entities)).map (·.1) := by
      rw [hkeys]
      exact fun hmem => hnew p.id hmem p.id (by simp) rfl
    rw [toBatch_concat, ih hps, Keyed.alter_of_notMem hkey, List.map_append]
    rfl

def attachedEntities (ps : List ParsedDocument) : List Entity :=
  (ps.mapIdx fun i p => p.entities.map (attached ps i p)).flatten

def linkResolutions (config : Config) (ps : List ParsedDocument) : List Resolution :=
  if config.options.extractRelations && config.options.resolveManyToMany then
    Junction.resolutions config.heuristics (attachedEntities ps)
  else []

/-- Numbered documents that declare no relations hold their own entities. -/
theorem numbered_eq {ps : List ParsedDocument} (hlocal : ∀ p ∈ ps, p.Local)
    (hnone : ∀ p ∈ ps, ∀ name, p.relations.get? name = none) :
    numbered ps = ps.mapIdx fun i p => { p with
      entities := p.entities.map (attached ps i p) } := by
  have hforeign (name : Text) : foreignList? ps name = none := by
    rw [Option.eq_none_iff_forall_ne_some]
    intro list hlist
    obtain ⟨p, hp, -, hitems⟩ := foreignList?_eq_some hlist
    simp [hnone p (List.mem_of_getElem? hp)] at hitems
  rw [numbered, List.mapIdx_eq_mapIdx_iff]
  intro i hi
  have hmem : ps[i] ∈ ps := List.getElem_mem hi
  have hentities : ps[i].entities.map (Entity.withOrigin i) =
      ps[i].entities.map (attached ps i ps[i]) := by
    apply List.map_congr_left
    intro e he
    simp [Entity.withOrigin, attached, hlocal _ hmem e he, hnone _ hmem, hforeign]
  rw [withOrigin, hentities]

/-- Linked documents hold their own entities, with relations attached and settled. -/
theorem linked_eq {ps : List ParsedDocument} (hlocal : ∀ p ∈ ps, p.Local)
    (hnone : config.options.extractRelations = false →
      ∀ p ∈ ps, ∀ name, p.relations.get? name = none) :
    linked config ps = ps.mapIdx fun i p => { p with
      entities := p.entities.map fun e =>
        Junction.settle (linkResolutions config ps) (attached ps i p e) } := by
  have hsettle (e : Entity) : Junction.settle [] e = e := rfl
  have hattached : allEntities (attachForeign (numbered ps)) = attachedEntities ps := by
    simp [attachForeign_numbered hlocal, allEntities, attachedEntities, List.flatMap_def,
      map_mapIdx]
  cases hrel : config.options.extractRelations with
  | false => simp [linked, hrel, linkResolutions, hsettle, numbered_eq hlocal (hnone hrel)]
  | true =>
    cases hres : config.options.resolveManyToMany with
    | false => simp [linked, hrel, hres, linkResolutions, hsettle, attachForeign_numbered hlocal]
    | true =>
      have hfound : linkResolutions config ps =
          Junction.resolutions config.heuristics (allEntities (attachForeign (numbered ps))) := by
        simp [linkResolutions, hrel, hres, hattached]
      rw [linked, if_pos hrel, if_pos hres, resolved, ← hfound, attachForeign_numbered hlocal,
        map_mapIdx]
      simp only [List.map_map, Function.comp_def]

/-- Parsed documents are linked by attaching and settling relations. -/
theorem linked_of_parsesTo {ps : List ParsedDocument}
    (hparses : ∀ p ∈ ps, ∃ document, Document.ParsesTo config document p) :
    linked config ps = ps.mapIdx fun i p => { p with
      entities := p.entities.map fun e =>
        Junction.settle (linkResolutions config ps) (attached ps i p e) } := by
  refine linked_eq (fun p hp => ?_) (fun hrel p hp name => ?_)
  · obtain ⟨document, hparses⟩ := hparses p hp
    exact local_of_parsesTo hparses
  · obtain ⟨document, hparses⟩ := hparses p hp
    rw [hparses.get?_relations, hrel]
    rfl

def listing (config : Config) (ps : List ParsedDocument) : Batch :=
  ps.mapIdx fun i p => (p.id, p.entities.map fun e =>
    Junction.settle (linkResolutions config ps) (attached ps i p e))

theorem keys_listing (config : Config) (ps : List ParsedDocument) :
    (listing config ps).map (·.1) = ps.map (·.id) := by
  rw [listing, map_mapIdx, mapIdx_const]

/-- A batch as it is seen from outside. The origins of relations only tell lists apart while the
documents are linked; they are no part of it. -/
def records (batch : Batch) : Batch :=
  batch.map fun listed => (listed.1, listed.2.map (Entity.withOrigin 0))

/-- Parsed documents of different ids are linked to what is listed for them. -/
theorem toBatch_linked {ps : List ParsedDocument} (hids : (ps.map (·.id)).Nodup)
    (hparses : ∀ p ∈ ps, ∃ document, Document.ParsesTo config document p) :
    toBatch (linked config ps) = listing config ps := by
  have hlinked := linked_of_parsesTo hparses
  have hkeys : (linked config ps).map (·.id) = ps.map (·.id) := by
    rw [hlinked, map_mapIdx, ← keys_listing config, listing, map_mapIdx]
  rw [toBatch_of_nodup (hkeys ▸ hids), hlinked, map_mapIdx]
  rfl

/-- A batch of sources with different ids returns if reading each source returns, and lists what
they contribute, one after the other. -/
theorem outcome_ofSources_eq_ok (hids : (sources.map (·.1)).Nodup) :
    (ofSources reader config sources).outcome = .ok batch ↔
      (∀ s ∈ sources, Returns (contribution reader config s)) ∧
        batch = listing config (sources.map (contributed reader config)) := by
  have hlisting : toBatch (linked config (sources.map (contributed reader config))) =
      listing config (sources.map (contributed reader config)) := by
    refine toBatch_linked (by simpa [Function.comp_def] using hids) ?_
    refine List.forall_mem_map.mpr fun s _ => ?_
    obtain ⟨-, document, hparses, -⟩ := exists_parsesTo reader config s
    exact ⟨document, hparses⟩
  have hvalues (s : Text × Source) (p : ParsedDocument) (h : contribution reader config s = .ok p) :
      contributed reader config s = p := by
    rw [contributed, h]
    rfl
  rw [outcome_ofSources, Except.map_eq_ok]
  simp only [Except.mapM_eq_ok_iff_returns hvalues]
  constructor
  · rintro ⟨parsed, ⟨hreturns, rfl⟩, rfl⟩
    exact ⟨hreturns, hlisting⟩
  · rintro ⟨hreturns, rfl⟩
    exact ⟨_, ⟨hreturns, rfl⟩, hlisting⟩

end Batch
end SchemaAtlas
