import SchemaAtlas.Config.Basic
import SchemaAtlas.Config.Value

/-!
# Validation of configurations

A plain value is turned into a configuration field by field, in the order of the fields. All
problems are reported, each with its place; keys that name no field are ignored, and a field without
a value takes its default. Values are converted leniently: a truth value may be written as a word or
as zero or one, an integer as a text or as an integral number.
-/

namespace SchemaAtlas

/-- One step from a value to a part of it. -/
inductive PlaceStep where
  | key (name : Text)
  | index (position : Nat)
  deriving DecidableEq, Repr

/-- What a value has to meet beyond its type. -/
inductive Objection where
  | dialectsEmpty
  | markerBlank
  | suffixEmpty
  | markerEmpty
  | ruleWithoutMatcher (role : AuditRole)
  deriving DecidableEq, Repr

def Objection.message : Objection → Text
  | .dialectsEmpty => "dialect_markers must not be empty"
  | .markerBlank => "marker must not be blank"
  | .suffixEmpty => "id_suffix must not be empty"
  | .markerEmpty => "markers must not be empty strings"
  | .ruleWithoutMatcher role =>
    "audit rule for " ++ Text.ofString role.label ++ " needs contains_all or exact"

/-- What is wrong with a value. -/
inductive Complaint where
  | modelType
  | stringType
  | listType
  | boolType
  | boolParsing
  | intType
  | intParsing
  | intParsingSize
  | intFromFloat
  | finiteNumber
  | greaterThanEqual
  | literalError
  | missing
  | valueError (objection : Objection)
  deriving DecidableEq, Repr

/-- A complaint and its place. -/
structure ConfigProblem where
  place : List PlaceStep
  complaint : Complaint
  deriving DecidableEq, Repr

/-- A result, or all the problems that stand in its way. -/
inductive Checked (α : Type) where
  | valid (value : α)
  | invalid (problems : List ConfigProblem)
  deriving Repr, Inhabited

namespace Checked

variable {α β : Type}

def map (f : α → β) : Checked α → Checked β
  | valid a => valid (f a)
  | invalid problems => invalid problems

/-- Apply a checked function; the problems of both sides are kept. -/
def ap : Checked (α → β) → Checked α → Checked β
  | valid f, x => x.map f
  | invalid ps, valid _ => invalid ps
  | invalid ps, invalid qs => invalid (ps ++ qs)

def andThen (x : Checked α) (f : α → Checked β) : Checked β :=
  match x with
  | valid a => f a
  | invalid problems => invalid problems

def complain (c : Complaint) : Checked α := invalid [⟨[], c⟩]

/-- A result that is found inside a larger value. -/
def within (step : PlaceStep) : Checked α → Checked α
  | valid a => valid a
  | invalid problems => invalid (problems.map fun p => { p with place := step :: p.place })

def items (check : Value → Checked α) (position : Nat) : List Value → Checked (List α)
  | [] => valid []
  | v :: rest =>
    ap (map List.cons (within (.index position) (check v))) (items check (position + 1) rest)

end Checked

namespace Value

open Checked

def checkText : Value → Checked Text
  | text t => .valid t
  | _ => complain .stringType

def checkList {α : Type} (check : Value → Checked α) : Value → Checked (List α)
  | list values => items check 0 values
  | _ => complain .listType

def checkTexts : Value → Checked (List Text) := checkList checkText

/-- The words for false and for true, in lower case. -/
def falseWords : List Text := ["0", "off", "f", "false", "n", "no"]

@[inherit_doc falseWords] def trueWords : List Text := ["1", "on", "t", "true", "y", "yes"]

def flagOfInt (n : Int) : Checked Bool :=
  if n = 0 then .valid false else if n = 1 then .valid true else complain .boolParsing

def longWordBound : Nat := Nat.pow 2 63

def fitsWord (n : Int) : Bool := -(longWordBound : Int) ≤ n && n < longWordBound

def checkFlag : Value → Checked Bool
  | boolean b => .valid b
  | text t =>
    let word := Numeral.asciiLower t
    if falseWords.contains word then .valid false
    else if trueWords.contains word then .valid true
    else complain .boolParsing
  | integer n => if fitsWord n then flagOfInt n else complain .boolType
  | float x =>
    match x.toInt? with
    | some n => if fitsWord n then flagOfInt n else complain .boolType
    | none => complain .boolType
  | _ => complain .boolType

/-- Blanks around a numeral; separators of information are none. -/
def isNumeralBlank (c : CodePoint) : Bool := c.isBlank && !(0x1C ≤ c.val && c.val ≤ 0x1F)

def dropZeroFraction (t : Text) : Text :=
  let whole := t.takeWhile (· ≠ 0x2E)
  match t.drop whole.length with
  | _ :: fraction => if fraction.all (· = 0x30) then whole else t
  | [] => t

/-- The integer that a text denotes: ASCII digits with single underscores between them, a sign in
front, a fraction of zeros behind, and blanks around. -/
def intOfText? (t : Text) : Option Int := do
  let (negative, t) := Numeral.sign (dropZeroFraction (Text.trim isNumeralBlank t))
  let t ← Numeral.dropUnderscores false t
  if t.all fun c => c.val < 0x80 then
    Numeral.signed negative <$> (Numeral.ofDigits 10 <$> Numeral.digits? 10 t)
  else none

def checkInt : Value → Checked Int
  | boolean b => .valid (if b then 1 else 0)
  | integer n => .valid n
  | text t =>
    match intOfText? t with
    | some n => .valid n
    | none => complain .intParsing
  | float x =>
    match x with
    | .finite .. =>
      match x.toInt? with
      | none => complain .intFromFloat
      | some n => if n.natAbs < longWordBound then .valid n else complain .intParsingSize
    | _ => complain .finiteNumber
  | _ => complain .intType

def checkPositive (v : Value) : Checked Nat :=
  (checkInt v).andThen fun n => if 1 ≤ n then .valid n.toNat else complain .greaterThanEqual

/-- A text that is not blank. -/
def checkMarker (v : Value) : Checked Text :=
  (checkText v).andThen fun t =>
    if t.isBlank then complain (.valueError .markerBlank) else .valid t

def checkMarkers (v : Value) : Checked (List Text) :=
  (checkTexts v).andThen fun ts =>
    if ts.any List.isEmpty then complain (.valueError .markerEmpty) else .valid ts

/-- A list of texts that is not empty. -/
def checkDialects (v : Value) : Checked (List Text) :=
  (checkTexts v).andThen fun ts =>
    if ts.isEmpty then complain (.valueError .dialectsEmpty) else .valid ts

/-- A suffix that is not empty, in lower case. -/
def checkSuffix (v : Value) : Checked Text :=
  (checkText v).andThen fun t =>
    if t.isEmpty then complain (.valueError .suffixEmpty) else .valid t.lower

def checkRole : Value → Checked AuditRole
  | text t =>
    match AuditRole.ofLabel? t with
    | some role => .valid role
    | none => complain .literalError
  | _ => complain .literalError

/-- The value of a field, with a default for one that is not given. -/
def field {α : Type} (entries : List (Value × Value)) (name : Text) (default : α)
    (check : Value → Checked α) : Checked α :=
  match field? entries name with
  | none => .valid default
  | some v => within (.key name) (check v)

def requiredField {α : Type} (entries : List (Value × Value)) (name : Text)
    (check : Value → Checked α) : Checked α :=
  match field? entries name with
  | none => within (.key name) (complain .missing)
  | some v => within (.key name) (check v)

def checkFields {α : Type} (check : List (Value × Value) → Checked α) : Value → Checked α
  | map entries => check entries
  | _ => complain .modelType

end Value

open Checked Value

def Options.ofValue : Value → Checked Options :=
  checkFields fun entries =>
    let flag (name : Text) : Checked Bool := field entries name true checkFlag
    ((((flag "include_comments").map Options.mk).ap (flag "classify_entities")).ap
      (flag "detect_audit_columns")).ap (flag "extract_relations") |>.ap
      (flag "resolve_many_to_many")

def DeclarationRules.ofValue : Value → Checked DeclarationRules :=
  checkFields fun entries =>
    let d : DeclarationRules := {}
    let table := field entries "table_builder_marker" d.tableBuilderMarker checkMarker
    let enum := field entries "enum_builder_marker" d.enumBuilderMarker checkText
    let dialects := field entries "dialect_markers" d.dialectMarkers checkDialects
    let helper := field entries "relation_helper" d.relationHelper checkMarker
    let suffix := field entries "relations_suffix" d.relationsSuffix checkMarker
    ((((table.map DeclarationRules.mk).ap enum).ap dialects).ap helper).ap suffix

/-- Validate an audit rule; it has to have something to match by. -/
def AuditRule.ofValue : Value → Checked AuditRule :=
  checkFields fun entries =>
    let role := requiredField entries "role" checkRole
    let containsAll := field entries "contains_all" [] checkTexts
    let exact := field entries "exact" [] checkTexts
    (((role.map AuditRule.mk).ap containsAll).ap exact).andThen fun rule =>
      if rule.containsAll.isEmpty && rule.exact.isEmpty then
        complain (.valueError (.ruleWithoutMatcher rule.role))
      else .valid rule

def HeuristicRules.ofValue : Value → Checked HeuristicRules :=
  checkFields fun entries =>
    let d : HeuristicRules := {}
    let markers (name : Text) (default : List Text) := field entries name default checkMarkers
    let count (name : Text) (default : Nat) := field entries name default checkPositive
    let built := (markers "junction_markers" d.junctionMarkers).map HeuristicRules.mk
    let built := built.ap (field entries "id_suffix" d.idSuffix checkSuffix)
    let built := built.ap (count "junction_max_columns" d.junctionMaxColumns)
    let built := built.ap (count "min_junction_id_columns" d.minJunctionIdColumns)
    let built := built.ap (count "association_min_foreign_keys" d.associationMinForeignKeys)
    let built := built.ap (markers "audit_name_markers" d.auditNameMarkers)
    let built := built.ap (count "reference_max_columns" d.referenceMaxColumns)
    let built := built.ap (markers "reference_column_markers" d.referenceColumnMarkers)
    let built := built.ap (markers "reference_name_markers" d.referenceNameMarkers)
    let built := built.ap (markers "self_reference_markers" d.selfReferenceMarkers)
    built.ap (field entries "audit_columns" d.auditColumns (checkList AuditRule.ofValue))

def Config.ofValue : Value → Checked Config :=
  checkFields fun entries =>
    let options := field entries "options" {} Options.ofValue
    let declarations := field entries "declarations" {} DeclarationRules.ofValue
    let heuristics := field entries "heuristics" {} HeuristicRules.ofValue
    ((options.map Config.mk).ap declarations).ap heuristics

end SchemaAtlas
