import SchemaAtlas.Proofs.Batch.Contribution
import SchemaAtlas.Proofs.Batch.Depth
import SchemaAtlas.Proofs.Batch.FinalTarget
import SchemaAtlas.Proofs.Relation.Origins

/-!
# Documents of a batch do not interfere

What a batch lists for a document are the entities that the document has on its own. The other
documents can give relations to an entity that has none, and fill in the two fields of a resolved
relation. A document that fails takes part in neither: without it the batch lists the same for all
others. Only the stack tells the two runs apart: a declaration that nests just as deep as the frames
left to one run allow is dropped by the other, if that is started further down.
-/

namespace SchemaAtlas

/-- An entity agrees with another one, but for relations that the other one has none of and for the
resolution of those that it has. -/
structure Entity.Extends (e alone : Entity) : Prop where
  fields : e.withoutRelations = alone.withoutRelations
  relations : ∀ list, alone.relations = some list → ∃ list', e.relations = some list' ∧
    list'.items.map Relation.unresolved = list.items.map Relation.unresolved

/-- Relations from its own document stay with an entity, whatever is attached and settled. -/
theorem ParsedDocument.Local.extends {p : ParsedDocument} (h : p.Local) {e : Entity}
    (he : e ∈ p.entities) (ps : List ParsedDocument) (position : Nat) (rs : List Resolution) :
    (Junction.settle rs (attached ps position p e)).Extends e := by
  refine ⟨by rw [Junction.settle_eq]; rfl, ?_⟩
  intro list hlist
  obtain ⟨items, hitems, rfl⟩ := Option.map_eq_some_iff.mp ((h e he).symm.trans hlist)
  have hattached : (attached ps position p e).relations = some ⟨position, items⟩ := by
    simp [attached, hitems]
  refine ⟨Resolution.settledList rs e.name ⟨position, items⟩, ?_, ?_⟩
  · rw [Junction.settle_eq, hattached]
    rfl
  · exact congrArg RelationList.items
      (Resolution.unresolved_settledList rs e.name ⟨position, items⟩)

def placeAfter (inserted i : Nat) : Nat := if i < inserted then i else i + 1

theorem placeAfter_injective (inserted : Nat) : Function.Injective (placeAfter inserted) := by
  intro i j h
  unfold placeAfter at h
  split at h <;> split at h <;> omega

/-- Insertion of one more element moves the places of those behind it. -/
theorem mapIdx_insert {α β : Type} (f : Nat → α → β) (before after : List α) (x : α) :
    ∃ ys zs, (before ++ x :: after).mapIdx f = ys ++ f before.length x :: zs ∧
      (before ++ after).mapIdx (fun i => f (placeAfter before.length i)) = ys ++ zs := by
  refine ⟨before.mapIdx f, after.mapIdx fun i => f (i + 1 + before.length), ?_, ?_⟩
  · rw [List.mapIdx_append, List.mapIdx_cons, Nat.zero_add]
  · rw [List.mapIdx_append]
    congr 1
    · apply List.mapIdx_eq_mapIdx_iff.mpr
      intro i hi
      rw [placeAfter, if_pos hi]
    · apply List.mapIdx_eq_mapIdx_iff.mpr
      intro i _
      have hi : ¬ i + before.length < before.length := by omega
      rw [placeAfter, if_neg hi, Nat.add_right_comm]

theorem findSome?_insert {α β : Type} {f : α → Option β} {x : α} (h : f x = none)
    (before after : List α) :
    (before ++ x :: after).findSome? f = (before ++ after).findSome? f := by
  simp [List.findSome?_append, h]

namespace ParsedDocument

variable {before after : List ParsedDocument} {id : Text}

/-- An empty document moves the origins of the lists behind it, and declares none. -/
theorem foreignList?_insert (before after : List ParsedDocument) (id name : Text) :
    foreignList? (before ++ { id } :: after) name =
      (foreignList? (before ++ after) name).map fun list =>
        { list with origin := placeAfter before.length list.origin } := by
  obtain ⟨ys, zs, hinserted, hmoved⟩ :=
    mapIdx_insert (fun i d => foreignRelations d i) before after { id }
  have hempty : (foreignRelations { id } before.length).get? name = none := by simp [Keyed.get?_nil]
  rw [foreignList?, allForeign, hinserted,
    findSome?_insert (f := fun lists : Keyed RelationList => lists.get? name) hempty, ← hmoved,
    foreignList?, List.map_findSome?]
  apply findSome?_eq_of_map_eq
  apply List.ext_getElem?
  intro i
  simp only [allForeign, List.getElem?_map, List.getElem?_mapIdx]
  cases (before ++ after)[i]? with
  | none => rfl
  | some p => cases h : p.has name <;> simp [h, Function.comp_def]

theorem attached_insert (before after : List ParsedDocument) (id : Text) (i : Nat)
    (p : ParsedDocument) :
    attached (before ++ { id } :: after) (placeAfter before.length i) p =
      Entity.mapOrigin (placeAfter before.length) ∘ attached (before ++ after) i p := by
  funext e
  simp only [attached, foreignList?_insert, Entity.mapOrigin, Function.comp_apply]
  cases p.relations.get? e.name <;> rfl

end ParsedDocument

namespace Batch

open ParsedDocument

variable {reader : TreeReader} {config : Config} {sources : Keyed Source} {batch : Batch}

theorem attachedEntities_insert (before after : List ParsedDocument) (id : Text) :
    attachedEntities (before ++ { id } :: after) =
      (attachedEntities (before ++ after)).map (Entity.mapOrigin (placeAfter before.length)) := by
  obtain ⟨ys, zs, hinserted, hmoved⟩ := mapIdx_insert
    (fun i p => p.entities.map (attached (before ++ { id } :: after) i p)) before after { id }
  have hdrop : (ys ++ [] :: zs).flatten = (ys ++ zs).flatten := by simp
  simp only [attached_insert, List.map_nil] at hinserted hmoved
  rw [attachedEntities, hinserted, hdrop, ← hmoved, attachedEntities, List.map_flatten, map_mapIdx]
  simp only [List.map_map]

theorem linkResolutions_insert (before after : List ParsedDocument) (id : Text) :
    linkResolutions config (before ++ { id } :: after) =
      (linkResolutions config (before ++ after)).map
        (Resolution.mapOrigin (placeAfter before.length)) := by
  unfold linkResolutions
  split
  · rw [attachedEntities_insert, Junction.resolutions_mapOrigin]
  · rfl

/-- Whether an empty document stands in a batch makes no difference to what is listed for the
others. -/
theorem records_listing_insert (config : Config) (before after : List ParsedDocument) (id : Text) :
    ∃ ys zs, records (listing config (before ++ { id } :: after)) = ys ++ (id, []) :: zs ∧
      records (listing config (before ++ after)) = ys ++ zs := by
  have hsettle (i : Nat) (p : ParsedDocument) (e : Entity) :
      (Junction.settle (linkResolutions config (before ++ { id } :: after))
        (attached (before ++ { id } :: after) (placeAfter before.length i) p e)).withOrigin 0 =
      (Junction.settle (linkResolutions config (before ++ after))
        (attached (before ++ after) i p e)).withOrigin 0 := by
    rw [linkResolutions_insert, attached_insert, Function.comp_apply, Junction.settle_mapOrigin,
      Entity.withOrigin_mapOrigin]
    intro list _ res _ _ h
    exact placeAfter_injective before.length h
  obtain ⟨ys, zs, hinserted, hmoved⟩ := mapIdx_insert (fun i p => (p.id, p.entities.map fun e =>
      (Junction.settle (linkResolutions config (before ++ { id } :: after))
        (attached (before ++ { id } :: after) i p e)).withOrigin 0)) before after { id }
  refine ⟨ys, zs, ?_, ?_⟩
  · rw [records, listing, map_mapIdx]
    simpa [Function.comp_def] using hinserted
  · rw [records, listing, map_mapIdx, ← hmoved]
    simp [hsettle, Function.comp_def]

/-- The entities that are listed for a document among others. -/
theorem get?_listing (config : Config) {before after : List ParsedDocument} {p : ParsedDocument}
    (hids : ((before ++ p :: after).map (·.id)).Nodup) :
    (listing config (before ++ p :: after)).get? p.id = some (p.entities.map fun e =>
      Junction.settle (linkResolutions config (before ++ p :: after))
        (attached (before ++ p :: after) before.length p e)) := by
  rw [Keyed.get?_eq_some_iff_mem (by rwa [keys_listing]), listing]
  refine List.mem_mapIdx.mpr ⟨before.length, by simp, ?_⟩
  simp

theorem map_contributed_append (before after : Keyed Source) (s : Text × Source) :
    (before ++ s :: after).map (contributed reader config) =
      before.map (contributed reader config) ++
        contributed reader config s :: after.map (contributed reader config) := by
  simp

/-- What is listed for a source: the entities that it contributes, as far as they are its own. -/
theorem exists_listed_extends (reader : TreeReader) (config : Config)
    {before after : Keyed Source} {s : Text × Source}
    (hids : ((before ++ s :: after).map (·.1)).Nodup) :
    ∃ es, (listing config ((before ++ s :: after).map (contributed reader config))).get? s.1 =
        some es ∧ List.Forall₂ Entity.Extends es (contributed reader config s).entities := by
  have hkeys : ((before.map (contributed reader config) ++
      contributed reader config s :: after.map (contributed reader config)).map (·.id)).Nodup := by
    simpa [Function.comp_def] using hids
  have hlisted := get?_listing config hkeys
  rw [id_contributed] at hlisted
  refine ⟨_, by rw [map_contributed_append, hlisted], ?_⟩
  refine List.forall₂_map_left_iff.mpr (List.forall₂_same.mpr fun e he => ?_)
  exact (local_contributed reader config s).extends he _ _ _

/-- A source that contributes an empty document can be left out of a batch. -/
theorem exists_batch_without {before after : Keyed Source} {s : Text × Source}
    (hids : ((before ++ s :: after).map (·.1)).Nodup)
    (hreturns : ∀ x ∈ before ++ s :: after, Returns (contribution reader config x))
    (hempty : contributed reader config s = { id := s.1 }) :
    ∃ batch' : Batch, (ofSources reader config (before ++ after)).outcome = .ok batch' ∧
      ∀ id, id ≠ s.1 → batch'.records.get? id =
        (listing config ((before ++ s :: after).map (contributed reader config))).records.get? id := by
  have hsublist : (before ++ after).Sublist (before ++ s :: after) :=
    (List.sublist_cons_self s after).append_left before
  obtain ⟨ys, zs, hwith, hwithout⟩ := records_listing_insert config
    (before.map (contributed reader config)) (after.map (contributed reader config)) s.1
  refine ⟨listing config ((before ++ after).map (contributed reader config)), ?_, ?_⟩
  · rw [outcome_ofSources_eq_ok (hids.sublist (hsublist.map _))]
    exact ⟨fun x hx => hreturns x (hsublist.subset hx), rfl⟩
  · intro id hid
    rw [map_contributed_append, hempty, hwith, List.map_append, hwithout, Keyed.get?_append,
      Keyed.get?_append, Keyed.get?_cons, if_neg hid]

/-- Whether a source can be encoded and read in a dialect does not depend on the frames left. -/
theorem parseSource_eq_error_withFrames {s : Text × Source} {frames : Nat}
    {failure : DocumentFailure}
    (h : (parseSource (reader.withFrames frames) config s.1 none s.2).outcome =
      .ok (.error failure)) :
    (parseSource reader config s.1 none s.2).outcome = .ok (.error failure) := by
  simp only [parseSource, readSource] at h ⊢
  cases hencoded : s.2.encoded with
  | error problem => rwa [hencoded] at h
  | ok bytes =>
    -- what was encoded and read in a dialect becomes a document
    simp only [hencoded, dialectFor, Trace.outcome_bind, Except.bind_eq_ok, Trace.outcome_map,
      Except.map_eq_ok] at h
    obtain ⟨_, ⟨document, -, rfl⟩, h⟩ := h
    simp only [Trace.outcome_bind, Except.bind_eq_ok] at h
    obtain ⟨parsed, -, h⟩ := h
    cases h

/-- In an extracted batch each document has the entities that it has on its own, with the relations
that it has on its own but for their resolution, with whatever frames left it is parsed on its own,
if that drops as many of its declarations for their depth. One that fails has none, and without it
the batch is the same for all others. -/
theorem isolated_of_ofSources (hids : (sources.map (·.1)).Nodup)
    (h : (ofSources reader config sources).outcome = .ok batch) {s : Text × Source}
    (hs : s ∈ sources) (frames : Nat) :
    ((readSource (reader.withFrames frames) s.1 none s.2).drops =
        (readSource reader s.1 none s.2).drops →
      (∃ result,
        (parseSource (reader.withFrames frames) config s.1 none s.2).outcome = .ok result) ∧
      ∀ p, (parseSource (reader.withFrames frames) config s.1 none s.2).outcome = .ok (.ok p) →
        ∃ es, batch.get? s.1 = some es ∧ List.Forall₂ Entity.Extends es p.entities) ∧
    ∀ failure,
      (parseSource (reader.withFrames frames) config s.1 none s.2).outcome = .ok (.error failure) →
      batch.get? s.1 = some [] ∧
      ∃ batch' : Batch,
        (ofSources reader config (sources.filter (·.1 ≠ s.1))).outcome = .ok batch' ∧
        ∀ id, id ≠ s.1 → batch'.records.get? id = batch.records.get? id := by
  obtain ⟨hreturns, rfl⟩ := (outcome_ofSources_eq_ok hids).mp h
  obtain ⟨before, after, rfl⟩ := List.append_of_mem hs
  obtain ⟨es, hlisted, hextends⟩ := exists_listed_extends reader config hids
  refine ⟨fun hdrops => ?_, fun failure hfailure => ?_⟩
  · rw [parseSource_withFrames config hdrops]
    refine ⟨?_, fun p hp => ?_⟩
    · have hread := hreturns s hs
      rwa [contribution_eq, returns_map] at hread
    · have hcontributed : contributed reader config s = p := contributed_of_eq_ok hp
      exact ⟨es, hlisted, hcontributed ▸ hextends⟩
  · have hempty : contributed reader config s = { id := s.1 } :=
      contributed_of_eq_ok (parseSource_eq_error_withFrames hfailure)
    refine ⟨?_, ?_⟩
    · rw [hempty, List.forall₂_nil_right_iff] at hextends
      rw [hlisted, hextends]
    · rw [Keyed.filter_ne_of_nodup hids]
      exact exists_batch_without hids hreturns hempty

/-- A source that cannot be encoded, and a table. -/
def brokenSources : Keyed Source :=
  [("broken.ts", .text [0xD800]), ("as.ts", .text nestedSource)]

/-- The table is the same in the batch and on its own, and the source that fails can be left out. -/
theorem isolated_of_brokenSources : ∃ batch : Batch,
    (ofSources (callReader 9) {} brokenSources).outcome = .ok batch ∧
    batch.get? "broken.ts" = some [] ∧
    (∃ batch' : Batch,
      (ofSources (callReader 9) {} (brokenSources.drop 1)).outcome = .ok batch' ∧
      batch'.records.get? "as.ts" = batch.records.get? "as.ts") ∧
    (readSource (callReader 10) "as.ts" none (.text nestedSource)).drops =
      (readSource (callReader 9) "as.ts" none (.text nestedSource)).drops ∧
    ∃ (p : ParsedDocument) (es : List Entity), p.entities.length = 1 ∧
      batch.get? "as.ts" = some es ∧ List.Forall₂ Entity.Extends es p.entities := by
  have hids : (brokenSources.map (·.1)).Nodup := by decide
  have hreturns : Returns (ofSources (callReader 9) {} brokenSources).outcome := by
    decide +kernel
  have hdrops : (readSource (callReader 10) "as.ts" none (.text nestedSource)).drops =
      (readSource (callReader 9) "as.ts" none (.text nestedSource)).drops := by
    decide +kernel
  have hsample : ((parseSource (callReader 10) {} "as.ts" none
      (.text nestedSource)).outcome.toOption.bind Except.toOption).any (·.entities.length = 1) := by
    decide +kernel
  obtain ⟨batch, hbatch⟩ := hreturns
  obtain ⟨hempty, batch', hbatch', hothers⟩ :=
    (isolated_of_ofSources hids hbatch List.mem_cons_self 10).2 _ rfl
  obtain ⟨p, hp, hlength⟩ := Except.exists_ok_ok_of_any hsample
  obtain ⟨es, hes, hextends⟩ := ((isolated_of_ofSources hids hbatch
    (List.mem_cons_of_mem _ List.mem_cons_self) 10).1 hdrops).2 p hp
  exact ⟨batch, hbatch, hempty, ⟨batch', hbatch', hothers "as.ts" (by decide)⟩, hdrops,
    p, es, by simpa using hlength, hes, hextends⟩

/-- One frame less, and the table that the document has on its own is missing in the batch. -/
theorem lost_of_nestedSource : ∃ (batch : Batch) (p : ParsedDocument),
    (ofSources (callReader 8) {} [("as.ts", .text nestedSource)]).outcome = .ok batch ∧
    (parseSource (callReader 9) {} "as.ts" none (.text nestedSource)).outcome = .ok (.ok p) ∧
    batch.get? "as.ts" = some [] ∧ p.entities.map (·.name) = [("as" : Text)] ∧
    ¬ ∃ es, batch.get? "as.ts" = some es ∧ List.Forall₂ Entity.Extends es p.entities := by
  have hbatch : (ofSources (callReader 8) {}
      [("as.ts", .text nestedSource)]).outcome.toOption.any fun (batch : Batch) =>
        (batch.get? "as.ts").any List.isEmpty := by
    decide +kernel
  have hparsed : ((parseSource (callReader 9) {} "as.ts" none
      (.text nestedSource)).outcome.toOption.bind Except.toOption).any fun p =>
        p.entities.map (·.name) = [("as" : Text)] := by
    decide +kernel
  obtain ⟨p, hp, hnames⟩ := Except.exists_ok_ok_of_any hparsed
  obtain ⟨batch, hread, hempty⟩ := (Option.any_eq_true _ _).mp hbatch
  obtain ⟨es, hes, hnil⟩ := (Option.any_eq_true _ _).mp hempty
  rw [List.isEmpty_iff.mp hnil] at hes
  have hnames : p.entities.map (·.name) = [("as" : Text)] := by simpa using hnames
  refine ⟨batch, p, Except.toOption_eq_some.mp hread, hp, hes, hnames, ?_⟩
  rintro ⟨es', hes', hextends⟩
  cases hes.symm.trans hes'
  rw [List.forall₂_nil_left_iff.mp hextends] at hnames
  cases hnames

end Batch
end SchemaAtlas
