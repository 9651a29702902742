import SchemaAtlas.Proofs.Batch.Depth
import SchemaAtlas.Proofs.Files.Dialect

/-!
# Batches of files

To extract files is to extract the sources that they hold, each under the id of its document. A path
that cannot be opened or decoded counts as an empty source: reading it fails, the empty source
declares nothing, and either way the document is empty. The two runs are started at different depths
of the stack, so they can still differ in the declarations that they drop for their depth.
-/

namespace SchemaAtlas

open SchemaAtlas.Path (ofText)

/-- The source that a path holds: the text of a file, with line feeds as the only line ends, and the
empty text where no file can be opened or its bytes are no text. -/
def FileSystem.sourceAt (system : FileSystem) (p : Path) : Source :=
  match system.lookup p with
  | .ok (.file (some content)) =>
    match Utf8.decode content with
    | .ok text => .text (unifyLineEnds text)
    | .error _ => .text []
  | _ => .text []

/-- A text can be read from a path iff it is the source there; otherwise the source is empty. -/
theorem FileSystem.readText_cases (system : FileSystem) (p : Path) :
    (∃ text, system.readText p = .ok text ∧ system.sourceAt p = .text text) ∨
      ∃ problem, system.readText p = .error problem ∧ system.sourceAt p = .text [] := by
  unfold readText sourceAt
  cases system.lookup p with
  | error problem => exact .inr ⟨_, rfl, rfl⟩
  | ok found =>
    cases found with
    | directory => exact .inr ⟨_, rfl, rfl⟩
    | file content? =>
      cases content? with
      | none => exact .inr ⟨_, rfl, rfl⟩
      | some content =>
        dsimp only
        cases Utf8.decode content with
        | error problem => exact .inr ⟨_, rfl, rfl⟩
        | ok text => exact .inl ⟨_, rfl, rfl⟩

/-- A reader that keeps to one dialect. -/
def TreeReader.only (reader : TreeReader) (dialect : Dialect) : TreeReader :=
  { reader with read := fun _ => reader.read dialect }

variable {reader : TreeReader} {config : Config}

/-- An empty source, whose tree has no children, declares nothing. -/
theorem outcome_parseSource_nil (hempty : ∀ dialect, (reader.read dialect #[]).tree.children = [])
    (id : Text) :
    (parseSource reader config id none (.text [])).outcome = .ok (.ok { id := id }) := by
  have hencoded : Source.encoded (.text []) = .ok #[] := rfl
  have hdocument (dialect : Dialect) :
      (Document.ofTree #[] reader.stack (reader.read dialect #[]).tree
        (reader.read dialect #[]).hasErrors).outcome =
          .ok ⟨[], (reader.read dialect #[]).hasErrors⟩ := by
    rw [Document.ofTree, Syntax.Tree.placedChildren, hempty]
    rfl
  have hparsed (hasErrors : Bool) :
      (ParsedDocument.ofDocument config id ⟨[], hasErrors⟩).outcome = .ok { id := id } :=
    Document.parsesTo_empty config id hasErrors
  simp only [parseSource, readSource, hencoded, dialectFor, Trace.outcome_bind, Trace.outcome_map,
    hdocument, Except.map_ok, Except.ok_bind, hparsed]
  rfl

variable {system : FileSystem}

/-- A file is read as its text, in the dialect of the file name. -/
theorem parseFile_of_readText {p : Path} {id text : Text} (haccepted : p.refusal? = none)
    (hid : id ≠ []) (htext : system.readText p = .ok text) :
    parseFile reader config system p (some id) =
      parseSource (reader.only (Dialect.ofFileName p.fileName)) config id none (.text text) := by
  obtain ⟨c, rest, rfl⟩ := List.exists_cons_of_ne_nil hid
  have hlabel (dialect : Dialect) : dialectFor (c :: rest) (some dialect.label) = .ok dialect := by
    cases dialect <;> rfl
  have hnone : dialectFor (c :: rest) none = .ok (Dialect.ofFileName (c :: rest)) := rfl
  simp only [parseFile, haccepted, htext, parseSource, readSource, hlabel, hnone]
  rfl

/-- Where the id tells the dialect, a source is read in that dialect anyway. -/
theorem parseSource_only {id : Text} {dialect : Dialect} (h : Dialect.ofFileName id = dialect)
    (source : Source) :
    parseSource (reader.only dialect) config id none source =
      parseSource reader config id none source := by
  subst h
  rfl

/-- A path without a text fails as a document. -/
theorem parseFile_of_unreadable {p : Path} {id : Option Text} {problem : FileSystem.ReadProblem}
    (haccepted : p.refusal? = none) (h : system.readText p = .error problem) :
    ∃ failure, (parseFile reader config system p id).outcome = .ok (.error failure) := by
  unfold parseFile
  rw [haccepted, h]
  exact ⟨_, rfl⟩

/-- The sources that paths hold, each with the id of its document. -/
def FileSystem.sources (system : FileSystem) (names : List Text) (root : Option Text) :
    Keyed Source :=
  names.map fun name =>
    ((ofText name).documentId (root.map ofText), system.sourceAt (ofText name))

namespace Batch

open ParsedDocument

/-- What reading a file of a batch comes to: a document, which is empty if the file fails. -/
def fileContribution (reader : TreeReader) (config : Config) (system : FileSystem)
    (root : Option Path) (name : Text) : Except Fault ParsedDocument :=
  let id := (ofText name).documentId root
  (parseFile reader config system (ofText name) (some id) >>= orEmpty id).outcome

section FileContribution

variable {root : Option Path} {name : Text}

/-- Reading the files is all that can end the extraction of a batch. -/
theorem outcome_ofFiles_eq (names : List Text) :
    (ofFiles reader config system (names.map ofText) root).outcome =
      (fun parsed => toBatch (linked config parsed)) <$>
        names.mapM (fileContribution reader config system root) := by
  rw [ofFiles, Trace.outcome_bind, Trace.outcome_mapM, map_eq_pure_bind, List.mapM_map]
  simp only [outcome_ofDocuments]
  rfl

theorem fileContribution_of_readText {text : Text} (haccepted : (ofText name).refusal? = none)
    (htext : system.readText (ofText name) = .ok text) :
    fileContribution reader config system root name =
      contribution (reader.only (Dialect.ofFileName (ofText name).fileName)) config
        ((ofText name).documentId root, .text text) := by
  have hid := Path.documentId_ne_nil (Path.proper_ofText name) root
  rw [fileContribution, parseFile_of_readText haccepted hid htext]
  rfl

/-- A file that cannot be read contributes an empty document. -/
theorem fileContribution_of_unreadable {problem : FileSystem.ReadProblem}
    (haccepted : (ofText name).refusal? = none)
    (h : system.readText (ofText name) = .error problem) :
    fileContribution reader config system root name =
      .ok { id := (ofText name).documentId root } := by
  obtain ⟨failure, hfailure⟩ : ∃ failure, (parseFile reader config system (ofText name)
      (some ((ofText name).documentId root))).outcome = .ok (.error failure) :=
    parseFile_of_unreadable haccepted h
  rw [fileContribution, Trace.outcome_bind, hfailure]
  rfl

/-- A name that the system refuses contributes nothing. -/
theorem fileContribution_of_refused {refusal : Path.Refusal}
    (h : (ofText name).refusal? = some refusal) :
    fileContribution reader config system root name = .error (.pathRefused refusal) := by
  simp only [fileContribution, parseFile, h]
  rfl

end FileContribution

variable {names : List Text} {root : Option Text}

/-- With as many frames left, files are extracted like the sources that they hold. -/
theorem outcome_ofFiles_sources
    (hempty : ∀ dialect, (reader.read dialect #[]).tree.children = [])
    (haccepted : ∀ name ∈ names, (ofText name).refusal? = none)
    (hdialect : ∀ name ∈ names, Dialect.ofFileName ((ofText name).documentId (root.map ofText)) =
      Dialect.ofFileName (ofText name).fileName) :
    (ofFiles reader config system (names.map ofText) (root.map ofText)).outcome =
      (ofSources reader config (system.sources names root)).outcome := by
  rw [outcome_ofFiles_eq, outcome_ofSources, FileSystem.sources, List.mapM_map]
  congr 1
  have hsame : List.Forall₂ (fun name name' => name ∈ names ∧ name = name') names names :=
    List.forall₂_same.mpr fun name hname => ⟨hname, rfl⟩
  refine Except.mapM_congr_forall₂ hsame ?_
  rintro name _ ⟨hname, rfl⟩
  simp only [Function.comp_apply, contribution]
  rcases system.readText_cases (ofText name) with
    ⟨text, htext, hsource⟩ | ⟨problem, hfail, hsource⟩
  · rw [fileContribution_of_readText (haccepted name hname) htext, contribution,
      parseSource_only (hdialect name hname), hsource]
  · rw [fileContribution_of_unreadable (haccepted name hname) hfail, hsource,
      Trace.outcome_bind, outcome_parseSource_nil hempty]
    rfl

/-- Files whose names the system accepts are extracted like the sources that they hold, each under
the id of its document and in the dialect that the id tells, whatever the paths lead to and with
whatever frames left the sources are extracted, if that drops as many declarations of each for their
depth. Only a root that is itself among the paths is left out, as its document is known as a dot. -/
theorem outcome_ofFiles (hempty : ∀ dialect, (reader.read dialect #[]).tree.children = [])
    (system : FileSystem) (haccepted : ∀ name ∈ names, (ofText name).refusal? = none)
    (hroot : ∀ name ∈ names, root.map ofText ≠ some (ofText name)) :
    (∀ name ∈ names, Dialect.ofFileName ((ofText name).documentId (root.map ofText)) =
      Dialect.ofFileName (ofText name).fileName) ∧
    ∀ frames,
      (∀ s ∈ system.sources names root,
        (readSource (reader.withFrames frames) s.1 none s.2).drops =
          (readSource reader s.1 none s.2).drops) →
      (ofFiles reader config system (names.map ofText) (root.map ofText)).outcome =
        (ofSources (reader.withFrames frames) config (system.sources names root)).outcome := by
  have hdialect (name : Text) (hname : name ∈ names) :
      Dialect.ofFileName ((ofText name).documentId (root.map ofText)) =
        Dialect.ofFileName (ofText name).fileName :=
    Path.ofFileName_documentId (hroot name hname)
  refine ⟨hdialect, fun frames hdrops => ?_⟩
  rw [ofSources_withFrames config hdrops]
  exact outcome_ofFiles_sources hempty haccepted hdialect

/-- A file with two kinds of line ends below the working directory, one that is no text, one that may
not be opened and a directory without files; a file in the directory above, and one elsewhere. -/
def sampleSystem : FileSystem where
  files := [
    (["home", "work", "app", "as.ts"].map Path.nameBytes,
      some "export const\r\nas=pgTable((('as')),\r\x7b\x7d)".toUTF8.data),
    (["home", "work", "app", "bs.ts"].map Path.nameBytes, some #[0xFF]),
    (["home", "work", "app", "shut.ts"].map Path.nameBytes, none),
    (["home", "up.ts"].map Path.nameBytes,
      some "export const up=pgTable('up',\x7b\x7d)".toUTF8.data),
    (["srv", "far.ts"].map Path.nameBytes,
      some "export const far=pgTable('far',\x7b\x7d)".toUTF8.data)]
  directories := [["home", "work", "app", "cs.ts"].map Path.nameBytes]
  current := ["home", "work"].map Path.nameBytes

/-- Paths to each of them, and one to nothing. -/
def sampleNames : List Text :=
  ["app/as.ts", "app/bs.ts", "app/cs.ts", "app/shut.ts", "ds.ts", "../up.ts", "/srv/far.ts"]

/-- Files in three places, two that cannot be read, a directory and nothing are extracted alike. -/
theorem outcome_ofFiles_sampleSystem :
    (∀ dialect, ((callReader 9).read dialect #[]).tree.children = []) ∧
    (∀ name ∈ sampleNames, (ofText name).refusal? = none) ∧
    (∀ name ∈ sampleNames, (some ("app" : Text)).map ofText ≠ some (ofText name)) ∧
    (∀ s ∈ sampleSystem.sources sampleNames (some "app"),
      (readSource ((callReader 9).withFrames 10) s.1 none s.2).drops =
        (readSource (callReader 9) s.1 none s.2).drops) ∧
    (ofFiles (callReader 9) {} sampleSystem (sampleNames.map ofText)
        ((some ("app" : Text)).map ofText)).outcome =
      (ofSources ((callReader 9).withFrames 10) {}
        (sampleSystem.sources sampleNames (some "app"))).outcome ∧
    (ofFiles (callReader 9) {} sampleSystem (sampleNames.map ofText)
        ((some ("app" : Text)).map ofText)).outcome.toOption.map (fun (batch : Batch) =>
          batch.map fun listed => (listed.1, listed.2.map (·.name))) =
      some [(("as.ts" : Text), [("as" : Text)]), ("bs.ts", []), ("cs.ts", []), ("shut.ts", []),
        ("ds.ts", []), ("../up.ts", ["up"]), ("/srv/far.ts", ["far"])] := by
  have hempty (dialect : Dialect) : ((callReader 9).read dialect #[]).tree.children = [] := by
    have hread : (Syntax.read #[]).1.children.isEmpty := by decide +kernel
    exact List.isEmpty_iff.mp hread
  have haccepted : ∀ name ∈ sampleNames, (ofText name).refusal? = none := by decide +kernel
  have hroot : ∀ name ∈ sampleNames, (some ("app" : Text)).map ofText ≠ some (ofText name) := by
    decide +kernel
  have hdrops : ∀ s ∈ sampleSystem.sources sampleNames (some "app"),
      (readSource ((callReader 9).withFrames 10) s.1 none s.2).drops =
        (readSource (callReader 9) s.1 none s.2).drops := by
    decide +kernel
  exact ⟨hempty, haccepted, hroot, hdrops,
    (outcome_ofFiles hempty sampleSystem haccepted hroot).2 10 hdrops, by decide +kernel⟩

/-- A file with a table whose name stands in parentheses. -/
def nestedSystem : FileSystem where
  files := [([Path.nameBytes "as.ts"], some (Utf8.encodePoints nestedSource))]

/-- One frame less, and the table of the source is missing in the batch of the file. -/
theorem ofFiles_ne_of_nestedSystem :
    (ofText "as.ts").refusal? = none ∧
    (nestedSystem.readText (ofText "as.ts")).toOption = some nestedSource ∧
    (ofFiles (callReader 8) {} nestedSystem [ofText "as.ts"] none).outcome.toOption.map
        (fun (batch : Batch) => batch.map fun listed => (listed.1, listed.2.map (·.name))) =
      some [(("as.ts" : Text), [])] ∧
    (ofSources (callReader 9) {} (nestedSystem.sources ["as.ts"] none)).outcome.toOption.map
        (fun (batch : Batch) => batch.map fun listed => (listed.1, listed.2.map (·.name))) =
      some [(("as.ts" : Text), [("as" : Text)])] ∧
    (ofFiles (callReader 8) {} nestedSystem [ofText "as.ts"] none).outcome ≠
      (ofSources (callReader 9) {} (nestedSystem.sources ["as.ts"] none)).outcome := by
  have hfiles : (ofFiles (callReader 8) {} nestedSystem [ofText "as.ts"] none).outcome.toOption.map
      (fun (batch : Batch) => batch.map fun listed => (listed.1, listed.2.map (·.name))) =
        some [(("as.ts" : Text), [])] := by
    decide +kernel
  have hsources : (ofSources (callReader 9) {}
      (nestedSystem.sources ["as.ts"] none)).outcome.toOption.map
        (fun (batch : Batch) => batch.map fun listed => (listed.1, listed.2.map (·.name))) =
          some [(("as.ts" : Text), [("as" : Text)])] := by
    decide +kernel
  refine ⟨by decide, by decide +kernel, hfiles, hsources, fun heq => ?_⟩
  rw [heq, hsources] at hfiles
  exact absurd hfiles (by decide)

end Batch
end SchemaAtlas
