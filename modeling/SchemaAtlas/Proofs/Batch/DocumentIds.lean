import SchemaAtlas.Proofs.Batch.Files
import SchemaAtlas.Proofs.Batch.Returns
import SchemaAtlas.Proofs.Files.DocumentId

/-!
# Files and the keys of their batch

The keys of a batch of files are the ids of their documents. Where no two paths collide, each file
has a key of its own, and what cannot be read stands under its key with no entities. A document is
read in the dialect of the file name, whatever its id tells. All of this is about names that the
system accepts; one that it refuses ends the run.
-/

namespace SchemaAtlas

open SchemaAtlas.Path (ofText Collides)

variable {reader : TreeReader} {config : Config} {system : FileSystem}

namespace Batch

open ParsedDocument

/-- A file with a text that ends the run. -/
def FileEndsRun (reader : TreeReader) (config : Config) (system : FileSystem)
    (root : Option Path) (name : Text) : Prop :=
  ∃ text, system.readText (ofText name) = .ok text ∧
    EndsRun (reader.only (Dialect.ofFileName (ofText name).fileName)) config
      ((ofText name).documentId root, .text text)

variable {root : Option Path} {name : Text}

/-- A file contributes a document iff its name is accepted and its text does not end the run. -/
theorem returns_fileContribution : Returns (fileContribution reader config system root name) ↔
    (ofText name).refusal? = none ∧ ¬ FileEndsRun reader config system root name := by
  cases haccepted : (ofText name).refusal? with
  | some refusal => simp [fileContribution_of_refused haccepted]
  | none =>
    cases hread : system.readText (ofText name) with
    | error problem =>
      simp [fileContribution_of_unreadable haccepted hread, FileEndsRun, hread]
    | ok text =>
      rw [fileContribution_of_readText haccepted hread, returns_contribution]
      simp [FileEndsRun, hread]

/-- A file contributes a document with its id. -/
theorem exists_fileDocument {parsed : ParsedDocument}
    (h : fileContribution reader config system root name = .ok parsed) :
    (ofText name).documentId root = parsed.id ∧
      ∃ document, Document.ParsesTo config document parsed := by
  have haccepted := (returns_fileContribution.mp ⟨parsed, h⟩).1
  cases hread : system.readText (ofText name) with
  | error problem =>
    rw [fileContribution_of_unreadable haccepted hread] at h
    cases h
    exact ⟨rfl, _, Document.parsesTo_empty config _ false⟩
  | ok text =>
    rw [fileContribution_of_readText haccepted hread] at h
    obtain ⟨document, -, hid, hparses⟩ := exists_document h
    exact ⟨hid.symm, document, hparses⟩

/-- Under an id stand the entities of all documents with that id. -/
theorem get?_toBatch (ps : List ParsedDocument) (id : Text) :
    (toBatch ps).get? id = if ps.any (·.id = id) then
      some ((ps.filter (·.id = id)).flatMap (·.entities)) else none := by
  induction ps using List.reverseRecOn with
  | nil => rfl
  | append_singleton ps p ih =>
    rw [toBatch_concat, Keyed.get?_alter]
    by_cases hid : p.id = id
    · subst hid
      by_cases hold : ps.any (·.id = p.id)
      · simp [ih, hold, List.filter_append]
      · have hnone : ps.filter (·.id = p.id) = [] := by
          simpa [List.filter_eq_nil_iff] using hold
        simp [ih, hold, hnone, List.filter_append]
    · simp [ih, hid, Ne.symm hid, List.filter_append]

variable {names : List Text} {batch : Batch}

/-- Files are extracted unless one of them, or its name, ends the run. -/
theorem returns_ofFiles :
    Returns (ofFiles reader config system (names.map ofText) root).outcome ↔
      ∀ name ∈ names,
        (ofText name).refusal? = none ∧ ¬ FileEndsRun reader config system root name := by
  simp only [outcome_ofFiles_eq, returns_map, returns_mapM, returns_fileContribution]

/-- What is extracted from files is the batch of what they contribute. -/
theorem exists_contributed
    (h : (ofFiles reader config system (names.map ofText) root).outcome = .ok batch) :
    ∃ ps, List.Forall₂ (fun name p => fileContribution reader config system root name = .ok p)
        names ps ∧
      names.map (fun name => (ofText name).documentId root) = ps.map (·.id) ∧
      (∀ p ∈ ps, ∃ document, Document.ParsesTo config document p) ∧
      batch = toBatch (linked config ps) := by
  rw [outcome_ofFiles_eq, Except.map_eq_ok] at h
  obtain ⟨ps, hps, rfl⟩ := h
  have hsteps := Except.mapM_eq_ok.mp hps
  refine ⟨ps, hsteps, ?_, fun p hp => ?_, rfl⟩
  · have hsame := hsteps.imp fun name p h => (exists_fileDocument h).1
    rwa [← List.forall₂_eq_eq_eq, List.forall₂_map_left_iff, List.forall₂_map_right_iff]
  · obtain ⟨name, -, hread⟩ := exists_left_of_forall₂ hsteps hp
    exact (exists_fileDocument hread).2

/-- The ids of files are those of their documents, also when these are linked. -/
theorem any_linked {ps : List ParsedDocument}
    (hids : names.map (fun name => (ofText name).documentId root) = ps.map (·.id))
    (hparses : ∀ p ∈ ps, ∃ document, Document.ParsesTo config document p) (id : Text) :
    (linked config ps).any (·.id = id) ↔
      ∃ name ∈ names, (ofText name).documentId root = id := by
  have hlinked : (linked config ps).map (·.id) = ps.map (·.id) := by
    rw [linked_of_parsesTo hparses, map_mapIdx, mapIdx_const]
  simp only [List.any_eq_true, decide_eq_true_eq, ← List.mem_map, hlinked, hids]

/-- The keys of a batch of files are their ids. -/
theorem isSome_get?_of_ofFiles
    (h : (ofFiles reader config system (names.map ofText) root).outcome = .ok batch)
    (id : Text) : (batch.get? id).isSome ↔ ∃ name ∈ names, (ofText name).documentId root = id := by
  obtain ⟨ps, -, hids, hparses, rfl⟩ := exists_contributed h
  rw [get?_toBatch, ← any_linked hids hparses]
  split <;> simp_all

/-- Files of different ids are listed in order. -/
theorem keys_of_ofFiles
    (h : (ofFiles reader config system (names.map ofText) root).outcome = .ok batch)
    (hnodup : (names.map fun name => (ofText name).documentId root).Nodup) :
    batch.map (·.1) = names.map fun name => (ofText name).documentId root := by
  obtain ⟨ps, -, hids, hparses, rfl⟩ := exists_contributed h
  rw [hids] at hnodup
  rw [toBatch_linked hnodup hparses, keys_listing, hids]

/-- An id of which no file can be read stands without entities. -/
theorem get?_of_unreadable
    (h : (ofFiles reader config system (names.map ofText) root).outcome = .ok batch)
    (hname : name ∈ names) (hunreadable : ∀ name' ∈ names,
      (ofText name').documentId root = (ofText name).documentId root →
        ∃ problem, system.readText (ofText name') = .error problem) :
    batch.get? ((ofText name).documentId root) = some [] := by
  obtain ⟨ps, hsteps, hids, hparses, rfl⟩ := exists_contributed h
  have hkey := (any_linked hids hparses ((ofText name).documentId root)).mpr ⟨name, hname, rfl⟩
  rw [get?_toBatch, if_pos hkey, linked_of_parsesTo hparses, Option.some_inj,
    List.flatMap_eq_nil_iff]
  intro q hq
  obtain ⟨hmem, hid⟩ := List.mem_filter.mp hq
  obtain ⟨i, hi, rfl⟩ := List.mem_mapIdx.mp hmem
  obtain ⟨name', hname', hread⟩ := exists_left_of_forall₂ hsteps (List.getElem_mem hi)
  have hsame : (ofText name').documentId root = (ofText name).documentId root :=
    (exists_fileDocument hread).1.trans (by simpa using hid)
  obtain ⟨problem, hproblem⟩ := hunreadable name' hname' hsame
  have haccepted := (returns_fileContribution.mp ⟨_, hread⟩).1
  rw [fileContribution_of_unreadable haccepted hproblem] at hread
  have hempty : ps[i].entities = [] := by
    rw [← Except.ok.inj hread]
  simp [hempty]

/-- Which paths share a document id, and what that means for a batch of files. Two paths share one
iff they are the same or collide: one of them lies below the root, and the other is how to get there
but does not lie below it. Unless the system refuses a name or a file ends the run, a batch has the
ids as its keys. They are all different and stand in order where the paths are different and do not
collide; and a file that cannot be read, whose path collides with no other, stands without
entities. -/
theorem told_apart_of_ofFiles (root : Option Text) :
    (∀ name name', (ofText name).documentId (root.map ofText) =
        (ofText name').documentId (root.map ofText) ↔
      ofText name = ofText name' ∨ Collides (root.map ofText) (ofText name) (ofText name')) ∧
    ∀ (reader : TreeReader) (config : Config) (system : FileSystem) (names : List Text),
      (∀ name ∈ names, (ofText name).refusal? = none) →
      (∀ name ∈ names, ¬ FileEndsRun reader config system (root.map ofText) name) →
      ∃ batch : Batch,
        (ofFiles reader config system (names.map ofText) (root.map ofText)).outcome =
          .ok batch ∧
        (∀ id, (batch.get? id).isSome ↔
          ∃ name ∈ names, (ofText name).documentId (root.map ofText) = id) ∧
        ((names.map ofText).Nodup →
          (∀ name ∈ names, ∀ name' ∈ names,
            ¬ Collides (root.map ofText) (ofText name) (ofText name')) →
          (batch.map (·.1)).Nodup ∧
            batch.map (·.1) = names.map fun name => (ofText name).documentId (root.map ofText)) ∧
        ∀ name ∈ names, (∃ problem, system.readText (ofText name) = .error problem) →
          (∀ name' ∈ names, ¬ Collides (root.map ofText) (ofText name') (ofText name)) →
          batch.get? ((ofText name).documentId (root.map ofText)) = some [] := by
  have hiff (name name' : Text) := Path.documentId_eq_iff (Path.normal_ofText name)
    (Path.normal_ofText name') (root.map ofText)
  refine ⟨hiff, fun reader config system names haccepted hruns => ?_⟩
  obtain ⟨batch, hbatch⟩ := returns_ofFiles.mpr fun name hname =>
    ⟨haccepted name hname, hruns name hname⟩
  refine ⟨batch, hbatch, isSome_get?_of_ofFiles hbatch, fun hpaths happart => ?_,
    fun name hname hunreadable happart => get?_of_unreadable hbatch hname ?_⟩
  · have hids : (names.map fun name => (ofText name).documentId (root.map ofText)).Nodup := by
      rw [List.Nodup, List.pairwise_map] at hpaths ⊢
      refine hpaths.imp_of_mem fun {name name'} hname hname' hne hsame => ?_
      rcases (hiff name name').mp hsame with heq | hcollides
      · exact hne heq
      · exact happart name hname name' hname' hcollides
    have hkeys := keys_of_ofFiles hbatch hids
    exact ⟨hkeys ▸ hids, hkeys⟩
  · intro name' hname' hsame
    rcases (hiff name' name).mp hsame with heq | hcollides
    · rwa [heq]
    · exact absurd hcollides (happart name' hname')

/-- Files of one name in several directories: the working directory, below it and elsewhere. -/
def twinSystem : FileSystem where
  files := [
    (["home", "a.ts"].map Path.nameBytes,
      some "export const cs=pgTable('cs',\x7b\x7d)".toUTF8.data),
    (["home", "schema", "a.ts"].map Path.nameBytes,
      some "export const as=pgTable('as',\x7b\x7d)".toUTF8.data),
    (["srv", "a.ts"].map Path.nameBytes,
      some "export const bs=pgTable('bs',\x7b\x7d)".toUTF8.data)]
  current := ["home"].map Path.nameBytes

/-- Paths to two of them, and one to nothing. -/
def twinNames : List Text := ["./schema/a.ts", "/srv//a.ts", "other/a.ts"]

/-- Three paths that do not collide: one below the root, one elsewhere, and one to nothing. -/
theorem told_apart_of_twinSystem :
    (∀ name ∈ twinNames, (ofText name).refusal? = none) ∧
    (∀ name ∈ twinNames, ¬ FileEndsRun grammarReader {} twinSystem
      ((some ("schema" : Text)).map ofText) name) ∧
    (twinNames.map ofText).Nodup ∧
    (∀ name ∈ twinNames, ∀ name' ∈ twinNames,
      ¬ Collides ((some ("schema" : Text)).map ofText) (ofText name) (ofText name')) ∧
    ∃ batch : Batch,
      (ofFiles grammarReader {} twinSystem (twinNames.map ofText)
        ((some ("schema" : Text)).map ofText)).outcome = .ok batch ∧
      batch.map (·.1) = [("a.ts" : Text), "/srv/a.ts", "other/a.ts"] ∧
      batch.get? "other/a.ts" = some [] := by
  have hread : ∀ name ∈ twinNames, Returns (fileContribution grammarReader {} twinSystem
      ((some ("schema" : Text)).map ofText) name) := by
    decide +kernel
  have haccepted : ∀ name ∈ twinNames, (ofText name).refusal? = none :=
    fun name hname => (returns_fileContribution.mp (hread name hname)).1
  have hruns : ∀ name ∈ twinNames, ¬ FileEndsRun grammarReader {} twinSystem
      ((some ("schema" : Text)).map ofText) name :=
    fun name hname => (returns_fileContribution.mp (hread name hname)).2
  have hpaths : (twinNames.map ofText).Nodup := by decide +kernel
  have happart : ∀ name ∈ twinNames, ∀ name' ∈ twinNames,
      ¬ Collides ((some ("schema" : Text)).map ofText) (ofText name) (ofText name') := by
    decide +kernel
  obtain ⟨batch, hbatch, -, hlists, hunreadable⟩ :=
    (told_apart_of_ofFiles (some ("schema" : Text))).2 grammarReader {} twinSystem twinNames
      haccepted hruns
  have hmissing : ("other/a.ts" : Text) ∈ twinNames := .tail _ (.tail _ (.head _))
  refine ⟨haccepted, hruns, hpaths, happart, batch, hbatch,
    (hlists hpaths happart).2.trans (by decide +kernel), ?_⟩
  exact hunreadable "other/a.ts" hmissing ⟨_, rfl⟩ fun name' hname' =>
    happart name' hname' "other/a.ts" hmissing

/-- A file below the root and the one beside it share one id, and so one key. -/
theorem put_together_of_twinSystem :
    ofText "schema/a.ts" ≠ ofText "a.ts" ∧
    (ofText "schema/a.ts").documentId (some (ofText "schema")) =
      (ofText "a.ts").documentId (some (ofText "schema")) ∧
    (ofFiles grammarReader {} twinSystem [ofText "schema/a.ts", ofText "a.ts"]
        (some (ofText "schema"))).outcome.toOption.map (fun (batch : Batch) =>
          batch.map (·.1)) = some [("a.ts" : Text)] :=
  ⟨by decide +kernel, by decide +kernel, by decide +kernel⟩

end Batch
end SchemaAtlas
