import SchemaAtlas.Config.Basic
import SchemaAtlas.Files.Basic
import SchemaAtlas.Report.Mismatch

/-!
# Events and failures

What an extraction reports while it runs, and how it may end early. An event records its cause; the
wording is in one place. A failure costs one document, a fault ends the whole run.
-/

namespace SchemaAtlas

/-- What ends a whole run. -/
inductive Fault where
  | codePointBeyondWord
  | integerBeyondDigitLimit
  | pathRefused (refusal : Path.Refusal)
  deriving DecidableEq, Repr

/-- Why a document cannot be read. -/
inductive FailureReason where
  | unencodable (problem : Utf8.Unencodable)
  | unsupportedDialect (name : Text)
  | unreadable (problem : FileSystem.ReadProblem)
  deriving DecidableEq, Repr

def FailureReason.message : FailureReason → Text
  | .unencodable problem => "cannot encode source: " ++ problem.message
  | .unsupportedDialect name => "cannot parse source: Unsupported source language: " ++ name
  | .unreadable problem => "cannot read file: " ++ problem.message

/-- A document that cannot be read. -/
structure DocumentFailure where
  document : Text
  reason : FailureReason
  deriving DecidableEq, Repr

def DocumentFailure.message (f : DocumentFailure) : Text := f.document ++ ": " ++ f.reason.message

/-- How much an event matters. -/
inductive Severity where
  | debug
  | info
  | warning
  deriving DecidableEq, Repr

/-- The activity that an event belongs to. -/
inductive Topic where
  | reading
  | columns
  | extras
  | relations
  | junctions
  | extraction
  | configuration
  deriving DecidableEq, Repr

/-- Something that is reported. -/
inductive Event where
  | declarationTooDeep (name : Text) (line : Nat)
  | columnSkipped (key : Text) (line : Nat) (cause : Mismatch)
  | extraSkipped (label table : Text) (cause : Mismatch)
  | relationSkipped (key table : Text) (cause : Mismatch)
  | partialParse (document : Text)
  | tableSkipped (document name : Text) (line : Nat) (cause : Mismatch)
  | relationsSkipped (document name : Text) (line : Nat) (cause : Mismatch)
  | entityParsed (name table : Text) (type : Option EntityType) (columns keys foreignKeys : Nat)
  | documentFailed (failure : DocumentFailure)
  | junctionIncomplete (name : Text)
  | relationsResolved (count : Nat)
  | batchExtracted (entities documents : Nat)
  | defaultsInEffect (setting : Text)
  | configurationInEffect
  | optionsInEffect (options : Options)
  | dialectsInEffect (markers : List Text)
  | junctionMarkersInEffect (markers : List Text)
  deriving DecidableEq, Repr

namespace Event

def severity : Event → Severity
  | partialParse .. => .warning
  | documentFailed .. => .warning
  | batchExtracted .. => .info
  | _ => .debug

def topic : Event → Topic
  | declarationTooDeep .. => .reading
  | columnSkipped .. => .columns
  | extraSkipped .. => .extras
  | relationSkipped .. => .relations
  | junctionIncomplete .. => .junctions
  | defaultsInEffect .. | configurationInEffect | optionsInEffect .. | dialectsInEffect ..
  | junctionMarkersInEffect .. => .configuration
  | _ => .extraction

def listText (items : List Text) : Text :=
  "[" ++ Text.join ", " (items.map Text.quoted) ++ "]"

def flagText (b : Bool) : Text := if b then "True" else "False"

def optionsText (o : Options) : Text :=
  let flags : List (Text × Bool) := [
    ("include_comments", o.includeComments),
    ("classify_entities", o.classifyEntities),
    ("detect_audit_columns", o.detectAuditColumns),
    ("extract_relations", o.extractRelations),
    ("resolve_many_to_many", o.resolveManyToMany)]
  let entry (flag : Text × Bool) : Text := flag.1.quoted ++ ": " ++ flagText flag.2
  "\x7b" ++ Text.join ", " (flags.map entry) ++ "\x7d"

def message : Event → Text
  | declarationTooDeep name line =>
    "Skipping " ++ name ++ " at line " ++ Text.ofNat line ++ ": expression nested too deeply"
  | columnSkipped key line cause =>
    "Skipping column '" ++ key ++ "' at line " ++ Text.ofNat line ++ ": " ++ cause.message
  | extraSkipped label table cause =>
    "Skipping extra '" ++ label ++ "' of " ++ table ++ ": " ++ cause.message
  | relationSkipped key table cause =>
    "Skipping relation '" ++ key ++ "' of " ++ table ++ ": " ++ cause.message
  | partialParse document => document ++ ": syntax errors, continuing with a partial parse"
  | tableSkipped document name line cause =>
    document ++ ": skipping table " ++ name ++ " at line " ++ Text.ofNat line ++ ": "
      ++ cause.message
  | relationsSkipped document name line cause =>
    document ++ ": skipping relations " ++ name ++ " at line " ++ Text.ofNat line ++ ": "
      ++ cause.message
  | entityParsed name table type columns keys foreignKeys =>
    let type : Text := (type.map fun t => Text.ofString t.label).getD "-"
    "  " ++ name ++ " (" ++ table ++ ") [" ++ type ++ "] columns=" ++ Text.ofNat columns
      ++ " pks=" ++ Text.ofNat keys ++ " fks=" ++ Text.ofNat foreignKeys
  | documentFailed failure =>
    "Failed to parse " ++ failure.document ++ ": " ++ failure.reason.message
  | junctionIncomplete name =>
    "Junction " ++ name ++ " joins fewer than two known tables"
  | relationsResolved count => "Resolved " ++ Text.ofNat count ++ " many-to-many relations"
  | batchExtracted entities documents =>
    "Extracted " ++ Text.ofNat entities ++ " entities from " ++ Text.ofNat documents
      ++ " documents"
  | defaultsInEffect setting => setting ++ " not set, using built-in extractor defaults"
  | configurationInEffect => "Effective extractor configuration:"
  | optionsInEffect options => "  Options: " ++ optionsText options
  | dialectsInEffect markers => "  Dialects: " ++ listText markers
  | junctionMarkersInEffect markers => "  Junction markers: " ++ listText markers

end Event
end SchemaAtlas
