import SchemaAtlas.Batch.Document

/-!
# Sources

Reading one document from its text, its bytes or its file. A document that cannot be encoded, read
or understood is a failure of that document; what is wrong inside it only drops declarations.
-/

namespace SchemaAtlas

open Syntax (Tree)

/-- A document before it is read. -/
inductive Source where
  | text (content : Text)
  | bytes (content : Bytes)
  deriving Inhabited

/-- The bytes of a source, unless its text holds surrogates. -/
def Source.encoded : Source → Except Utf8.Unencodable Bytes
  | .text content => Utf8.encode content
  | .bytes content => .ok content

/-- A concrete tree over a source, and whether it covers syntax errors. -/
structure Reading where
  tree : Tree
  hasErrors : Bool := false
  deriving Inhabited

/-- What a run reads documents with: something that gives every sequence of bytes a concrete tree,
and the stack that is left for reading the tree. -/
structure TreeReader where
  read : Dialect → Bytes → Reading
  stack : Stack

/-- The dialect that is asked for by name, or else the one that the document's id suggests. -/
def dialectFor (id : Text) (requested : Option Text) : Except FailureReason Dialect :=
  match requested with
  | some (c :: rest) =>
    match Dialect.ofLabel? (c :: rest) with
    | some dialect => .ok dialect
    | none => .error (.unsupportedDialect (c :: rest))
  | _ => .ok (Dialect.ofFileName id)

def readSource (reader : TreeReader) (id : Text) (dialect : Option Text) (source : Source) :
    Trace (Except DocumentFailure Document) :=
  match source.encoded with
  | .error problem => pure (.error ⟨id, .unencodable problem⟩)
  | .ok bytes =>
    match dialectFor id dialect with
    | .error reason => pure (.error ⟨id, reason⟩)
    | .ok dialect =>
      let reading := reader.read dialect bytes
      Except.ok <$> Document.ofTree bytes reader.stack reading.tree reading.hasErrors

def parseSource (reader : TreeReader) (config : Config) (id : Text) (dialect : Option Text)
    (source : Source) : Trace (Except DocumentFailure ParsedDocument) := do
  match ← readSource reader id dialect source with
  | .error failure => return .error failure
  | .ok document => return .ok (← ParsedDocument.ofDocument config id document)

/-- Read one document from a file. Without an id it is known by its path. A path that the system
refuses is no failure of the document: it ends the run. -/
def parseFile (reader : TreeReader) (config : Config) (system : FileSystem) (path : Path)
    (id : Option Text) : Trace (Except DocumentFailure ParsedDocument) :=
  let id := match id with
    | some (c :: rest) => c :: rest
    | _ => path.toText
  match path.refusal? with
  | some refusal => Trace.halt (.pathRefused refusal)
  | none =>
    match system.readText path with
    | .error problem => pure (.error ⟨id, .unreadable problem⟩)
    | .ok text =>
      parseSource reader config id (some (Dialect.ofFileName path.fileName).label) (.text text)

end SchemaAtlas
