import SchemaAtlas.Proofs.Batch.Attachment

/-!
# Batches of sources

An extracted batch comes from documents that its sources are read as, a failed source counting as an
empty document. The entities of the batch are those of the linked documents, and each of them is an
entity of a table declaration with relations that were attached and settled.
-/

namespace SchemaAtlas

/-- More entities under a key are more entities of the batch. -/
theorem Keyed.mem_flatMap_alter {α : Type} (m : Keyed (List α)) (key : Text) (more : List α)
    (a : α) : a ∈ (Keyed.alter key (fun old => old.getD [] ++ more) m).flatMap (·.2) ↔
      a ∈ m.flatMap (·.2) ∨ a ∈ more := by
  induction m with
  | nil => simp [Keyed.alter]
  | cons p rest ih =>
    obtain ⟨k, values⟩ := p
    by_cases h : k = key
    · simp only [Keyed.alter, if_pos h, List.flatMap_cons, List.mem_append, Option.getD_some]
      tauto
    · simp only [Keyed.alter, if_neg h, List.flatMap_cons, List.mem_append, ih]
      tauto

/-- The document that a source is read as: the empty one, if it fails. -/
def Source.ReadAs (reader : TreeReader) (id : Text) (source : Source) (document : Document) :
    Prop :=
  ∃ result, (readSource reader id none source).outcome = .ok result ∧
    document = result.toOption.getD ⟨[], false⟩

namespace Batch

open ParsedDocument

/-- The entities of a batch, whatever their documents. -/
def entities (batch : Batch) : List Entity := batch.flatMap (·.2)

theorem toBatch_concat (ps : List ParsedDocument) (p : ParsedDocument) :
    toBatch (ps ++ [p]) = (toBatch ps).alter p.id fun old => old.getD [] ++ p.entities := by
  simp [toBatch]

/-- Putting the documents of one id together keeps all entities. -/
theorem mem_entities_toBatch (ps : List ParsedDocument) (e : Entity) :
    e ∈ entities (toBatch ps) ↔ e ∈ allEntities ps := by
  induction ps using List.reverseRecOn with
  | nil => rfl
  | append_singleton ps p ih =>
    rw [toBatch_concat, entities, Keyed.mem_flatMap_alter, ← entities, ih]
    simp [allEntities]

/-- What reading a source of a batch comes to: a document, which is empty if the source fails. -/
def contribution (reader : TreeReader) (config : Config) (s : Text × Source) :
    Except Fault ParsedDocument :=
  (parseSource reader config s.1 none s.2 >>= orEmpty s.1).outcome

/-- Reading the sources is all that can end the extraction of a batch. -/
theorem outcome_ofSources (reader : TreeReader) (config : Config) (sources : Keyed Source) :
    (ofSources reader config sources).outcome =
      (fun parsed => toBatch (linked config parsed)) <$>
        sources.mapM (contribution reader config) := by
  have hread : (ofSources reader config sources).outcome =
      sources.mapM (contribution reader config) >>= fun parsed =>
        (ofDocuments config parsed).outcome := by
    rw [ofSources, Trace.outcome_bind, Trace.outcome_mapM]
    rfl
  rw [hread, map_eq_pure_bind]
  simp only [outcome_ofDocuments]
  rfl

/-- A source of a batch that does not end the run gives a document with its id. -/
theorem exists_document {reader : TreeReader} {config : Config} {s : Text × Source}
    {p : ParsedDocument} (h : contribution reader config s = .ok p) :
    ∃ document, s.2.ReadAs reader s.1 document ∧ p.id = s.1 ∧ document.ParsesTo config p := by
  simp only [contribution, parseSource, Trace.outcome_bind, Except.bind_eq_ok] at h
  obtain ⟨result, ⟨found, hread, hparse⟩, hempty⟩ := h
  cases found with
  | error failure =>
    cases hparse
    simp only [orEmpty, Trace.outcome_bind, Trace.outcome_emit, Except.ok_bind] at hempty
    cases hempty
    exact ⟨⟨[], false⟩, ⟨_, hread, rfl⟩, rfl, Document.parsesTo_empty config s.1 false⟩
  | ok document =>
    simp only [Trace.outcome_bind, Except.bind_eq_ok] at hparse
    obtain ⟨parsed, hparsed, hresult⟩ := hparse
    cases hresult
    cases hempty
    obtain ⟨hid, hparses⟩ := Document.parsesTo_of_outcome hparsed
    exact ⟨document, ⟨_, hread, rfl⟩, hid, hparses⟩

/-- An extracted batch holds what the documents of its sources parse to, once they are linked. -/
theorem exists_documents {reader : TreeReader} {config : Config} {sources : Keyed Source}
    {batch : Batch} (h : (ofSources reader config sources).outcome = .ok batch) :
    ∃ documents parsed,
      List.Forall₂ (fun s document => s.2.ReadAs reader s.1 document) sources documents ∧
      List.Forall₂ (fun s p => p.id = s.1) sources parsed ∧
      List.Forall₂ (Document.ParsesTo config) documents parsed ∧
      batch = toBatch (linked config parsed) := by
  rw [outcome_ofSources, Except.map_eq_ok] at h
  obtain ⟨parsed, hparsed, hbatch⟩ := h
  have hsteps := Except.mapM_eq_ok.mp hparsed
  suffices hdocuments : ∃ documents,
      List.Forall₂ (fun s document => s.2.ReadAs reader s.1 document) sources documents ∧
      List.Forall₂ (fun s p => p.id = s.1) sources parsed ∧
      List.Forall₂ (Document.ParsesTo config) documents parsed by
    obtain ⟨documents, hread, hids, hparse⟩ := hdocuments
    exact ⟨documents, parsed, hread, hids, hparse, hbatch.symm⟩
  clear hparsed hbatch
  induction hsteps with
  | nil => exact ⟨[], .nil, .nil, .nil⟩
  | cons hstep _ ih =>
    obtain ⟨documents, hreads, hids, hparses⟩ := ih
    obtain ⟨document, hread, hid, hparse⟩ := exists_document hstep
    exact ⟨document :: documents, .cons hread hreads, .cons hid hids, .cons hparse hparses⟩

end Batch
end SchemaAtlas
