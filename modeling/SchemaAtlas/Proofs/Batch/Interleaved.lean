import SchemaAtlas.Batch.Source
import SchemaAtlas.Proofs.Batch.Rejected

/-!
# Declarations of different kinds in any order

A document may mix enums, tables, relations and whatever else it declares. One pass over the
declarations puts those of each kind aside, and a declaration of one kind never touches what is put
aside of another. So a document reads the same as any other that has the same enums, the same tables
and the same relations in their order, wherever they stand among each other.
-/

namespace SchemaAtlas

namespace ParsedDocument

/-- What a pass over declarations has put aside: enums by name, and the tables and relations that
are still to be read. -/
structure Sorted where
  enums : Enums := []
  tables : List Declaration := []
  relations : List Declaration := []

/-- Put a declaration aside. An enum takes the place of an earlier one of its name, unless it does
not list its values. -/
def Sorted.add (rules : DeclarationRules) (s : Sorted) (d : Declaration) : Sorted :=
  match d.kind? rules with
  | some .table => { s with tables := s.tables ++ [d] }
  | some .relations => { s with relations := s.relations ++ [d] }
  | some .enum =>
    match d.enumValues? with
    | some values => { s with enums := s.enums.set d.name values }
    | none => s
  | none => s

/-- What one pass over declarations puts aside. -/
def sorted (rules : DeclarationRules) (declarations : List Declaration) : Sorted :=
  declarations.foldl (Sorted.add rules) {}

/-- Read what a pass has put aside: first the tables, with all enums at hand, then the relations. -/
def ofSorted (config : Config) (id : Text) (hasErrors : Bool) (s : Sorted) :
    Trace ParsedDocument := do
  if hasErrors then Trace.emit (.partialParse id)
  let entities ← entitiesOf config id s.enums s.tables
  if config.options.extractRelations then
    let relations ← relationsOf config id s.relations
    let parsed : ParsedDocument :=
      { id, entities, relations := Keyed.ofList relations, enums := s.enums }
    return { parsed with entities := entities.map (Entity.attach (parsed.relationLists 0) false) }
  else return { id, entities, enums := s.enums }

/-- Read a document after a single pass over its declarations. -/
def ofDocumentInOnePass (config : Config) (id : Text) (document : Document) :
    Trace ParsedDocument :=
  ofSorted config id document.hasErrors (sorted config.declarations document.declarations)

variable {rules : DeclarationRules} {ds ds' : List Declaration}

theorem sorted_concat (ds : List Declaration) (d : Declaration) :
    sorted rules (ds ++ [d]) = (sorted rules ds).add rules d := by
  rw [sorted, List.foldl_concat, sorted]

theorem ofKind_concat (kind : DeclarationKind) (ds : List Declaration) (d : Declaration) :
    ofKind rules kind (ds ++ [d]) =
      ofKind rules kind ds ++ if d.kind? rules = some kind then [d] else [] := by
  rw [ofKind, List.filter_append, List.filter_singleton, ofKind]
  by_cases h : d.kind? rules = some kind <;> simp [h]

theorem enumsOf_concat (ds : List Declaration) (d : Declaration) :
    enumsOf (ds ++ [d]) = match d.enumValues? with
      | some values => (enumsOf ds).set d.name values
      | none => enumsOf ds := by
  rw [enumsOf, List.filterMap_append, enumsOf]
  cases h : d.enumValues? with
  | none => simp [h]
  | some values => simpa [h] using Keyed.ofList_concat _ (d.name, values)

/-- A pass puts aside what the declarations of each kind give by themselves. The induction adds one
declaration behind the others: it belongs to one kind at most, and leaves the rest as it was. -/
theorem sorted_eq (rules : DeclarationRules) (ds : List Declaration) :
    sorted rules ds =
      ⟨enumsOf (ofKind rules .enum ds), ofKind rules .table ds, ofKind rules .relations ds⟩ := by
  induction ds using List.reverseRecOn with
  | nil => rfl
  | append_singleton ds d ih =>
    rw [sorted_concat, ih, ofKind_concat, ofKind_concat, ofKind_concat, Sorted.add]
    cases hkind : d.kind? rules with
    | none => simp
    | some kind =>
      cases kind with
      | table => simp
      | relations => simp
      | enum =>
        simp only [if_true, enumsOf_concat]
        cases d.enumValues? <;> simp

theorem ofDocumentInOnePass_eq (config : Config) (id : Text) (document : Document) :
    ofDocumentInOnePass config id document = ofDocument config id document := by
  rw [ofDocumentInOnePass, sorted_eq]
  rfl

/-- Two lists have the same declarations of every kind, each kind in its order. -/
def SameKinds (rules : DeclarationRules) (ds ds' : List Declaration) : Prop :=
  ∀ kind, ofKind rules kind ds' = ofKind rules kind ds

theorem SameKinds.sorted_eq (h : SameKinds rules ds ds') : sorted rules ds' = sorted rules ds := by
  rw [ParsedDocument.sorted_eq, ParsedDocument.sorted_eq, h .enum, h .table, h .relations]

theorem SameKinds.trans {ds'' : List Declaration} (h : SameKinds rules ds ds')
    (h' : SameKinds rules ds' ds'') : SameKinds rules ds ds'' :=
  fun kind => (h' kind).trans (h kind)

/-- Neighbours of different kinds may change places. -/
theorem sameKinds_swap {d d' : Declaration} (h : d.kind? rules ≠ d'.kind? rules)
    (before after : List Declaration) :
    SameKinds rules (before ++ d :: d' :: after) (before ++ d' :: d :: after) := by
  intro kind
  have hone : ¬ (d.kind? rules = some kind ∧ d'.kind? rules = some kind) := fun hboth =>
    h (hboth.1.trans hboth.2.symm)
  simp only [ofKind, List.filter_append, List.filter_cons, decide_eq_true_eq]
  split_ifs with hd' hd
  · exact absurd ⟨hd, hd'⟩ hone
  · rfl
  · rfl
  · rfl

/-- What declares nothing may stand anywhere. -/
theorem sameKinds_insert {d : Declaration} (h : d.kind? rules = none)
    (before after : List Declaration) :
    SameKinds rules (before ++ after) (before ++ d :: after) := by
  intro kind
  simp [ofKind, List.filter_append, h]

end ParsedDocument

open ParsedDocument

theorem outcome_parseSource_of_readSource {reader : TreeReader} {config : Config} {id : Text}
    {dialect : Option Text} {source : Source} {document : Document}
    (h : (readSource reader id dialect source).outcome = .ok (.ok document)) :
    (parseSource reader config id dialect source).outcome =
      Except.ok <$> (ofDocument config id document).outcome := by
  rw [parseSource, Trace.outcome_bind, h, Except.ok_bind, Trace.outcome_bind, map_eq_pure_bind]
  rfl

/-- How declarations of different kinds are interleaved does not matter: a single pass over them
puts the same aside, and the document parses to the same entities, relations and enums, in the same
order, or ends the run in the same way. The reports are the same, too, but for that of syntax
errors. -/
theorem outcome_ofDocument_of_sameKinds (config : Config) (id : Text)
    {document document' : Document}
    (h : SameKinds config.declarations document.declarations document'.declarations) :
    (ofDocumentInOnePass config id document').outcome = (ofDocument config id document).outcome ∧
    (ofDocument config id document').outcome = (ofDocument config id document).outcome ∧
    (document'.hasErrors = document.hasErrors →
      ofDocument config id document' = ofDocument config id document) ∧
    ∀ (reader reader' : TreeReader) (dialect dialect' : Option Text) (source source' : Source),
      (readSource reader id dialect source).outcome = .ok (.ok document) →
      (readSource reader' id dialect' source').outcome = .ok (.ok document') →
      (parseSource reader' config id dialect' source').outcome =
        (parseSource reader config id dialect source).outcome := by
  have hpass (hasErrors : Bool) : ofDocument config id ⟨document'.declarations, hasErrors⟩ =
      ofDocument config id ⟨document.declarations, hasErrors⟩ := by
    rw [← ofDocumentInOnePass_eq, ← ofDocumentInOnePass_eq, ofDocumentInOnePass,
      ofDocumentInOnePass, h.sorted_eq]
  have hflag (document : Document) (hasErrors : Bool) :
      (ofDocument config id document).outcome =
        (ofDocument config id ⟨document.declarations, hasErrors⟩).outcome := by
    rw [ParsedDocument.ofDocument, Trace.outcome_ite_emit, ParsedDocument.ofDocument,
      Trace.outcome_ite_emit]
  have houtcome : (ofDocument config id document').outcome =
      (ofDocument config id document).outcome := by
    rw [hflag document' document.hasErrors, hpass]
  refine ⟨by rw [ofDocumentInOnePass_eq, houtcome], houtcome, fun herrors => ?_, ?_⟩
  · calc ofDocument config id document'
      _ = ofDocument config id ⟨document.declarations, document'.hasErrors⟩ :=
        hpass document'.hasErrors
      _ = ofDocument config id document := by rw [herrors]
  · intro reader reader' dialect dialect' source source' hread hread'
    rw [outcome_parseSource_of_readSource hread, outcome_parseSource_of_readSource hread', houtcome]

namespace Document.Accounts

def role : Declaration :=
  exported "role" (invocation "pgEnum" [literal "role", .array default [literal "admin"]])

def accounts : Declaration := exported "accounts" (table [idColumn, roleColumn] [idIndex])

def accountsRelations : Declaration := exported "accountsRelations" (relations [posts])

def limit : Declaration := exported "limit" (literal "none")

/-- The sound document the other way round: the relations come before their table, the enum comes
after it, and something else stands in between. -/
def mixed : Document where
  declarations := [accountsRelations, limit, accounts, role]

def parsedMixed : Except Fault ParsedDocument :=
  (ParsedDocument.ofDocument {} "accounts.ts" mixed).outcome

end Document.Accounts

open Document.Accounts in
/-- An enum may be declared behind the table that uses it, and relations in front of theirs. -/
theorem outcome_ofDocument_mixed :
    SameKinds {} sound.declarations mixed.declarations ∧
    parsedMixed = (ofDocument {} "accounts.ts" sound).outcome ∧
    parsedMixed.toOption.map (fun p => p.entities.flatMap fun e =>
      e.columns.map fun c => (c.name, c.enumValues)) =
        some [(("id" : Text), none), ("role", some [("admin" : Text)])] ∧
    parsedMixed.toOption.map (fun p => p.entities.flatMap fun e =>
      (e.relations.map (·.items.map (·.name))).toList) = some [[("posts" : Text)]] := by
  have hrelations : SameKinds {} [role, accounts, accountsRelations]
      [accountsRelations, role, accounts] :=
    (sameKinds_swap (by decide) [role] []).trans (sameKinds_swap (by decide) [] [accounts])
  have henum : SameKinds {} [accountsRelations, role, accounts]
      [accountsRelations, accounts, role] :=
    sameKinds_swap (by decide) [accountsRelations] []
  have hlimit : SameKinds {} [accountsRelations, accounts, role] mixed.declarations :=
    sameKinds_insert (d := limit) (by decide) [accountsRelations] [accounts, role]
  have hsame : SameKinds {} sound.declarations mixed.declarations :=
    (hrelations.trans henum).trans hlimit
  exact ⟨hsame, (outcome_ofDocument_of_sameKinds {} "accounts.ts" hsame).2.1, by decide +kernel,
    by decide +kernel⟩

end SchemaAtlas
