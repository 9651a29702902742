import SchemaAtlas.Proofs.Batch.Parsed
import SchemaAtlas.Proofs.Expr.Chained
import SchemaAtlas.Proofs.Expr.Pruned

/-!
# Rejected units leave no trace

A unit of a document is rejected if it does not have the expected shape: a declaration of a table, of
relations or of an enum, an entry of a map of columns, an extra of a table, or an entry of a mapping
of relations. Each reader skips what it rejects before anything of it is recorded, so a document
parses to the same whether rejected units stand in it or are deleted.
-/

namespace SchemaAtlas

namespace Column

/-- An entry of a map of columns is rejected if its value is no call. -/
def Rejected (entry : Entry) : Prop :=
  ∀ x callee arguments, entry.value.unwrap ≠ .call x callee arguments

theorem chain_of_rejected {entry : Entry} (h : Rejected entry) : entry.value.unwrap.chain = [] := by
  rw [Expr.chain_unwrap]
  exact Expr.chain_eq_nil h

/-- Columns that are rejected can be taken out of a map. -/
theorem outcome_ofEntries_of_thinned (includeComments : Bool) (enums : Enums)
    {entries entries' : List Entry} (h : Thinned Rejected Eq entries entries') :
    (ofEntries includeComments enums entries').outcome =
      (ofEntries includeComments enums entries).outcome := by
  induction h with
  | nil => rfl
  | @drop entry rest rest' hentry _ ih =>
    have hmismatch : ofEntry includeComments enums entry =
        .error (.mismatch (.columnWithoutCall entry.value.unwrap.form)) := by
      simp [ofEntry, chain_of_rejected hentry]
    simp [ofEntries, hmismatch, ih]
  | @keep entry _ rest rest' hsame _ ih =>
    subst hsame
    cases hread : ofEntry includeComments enums entry with
    | ok column => simp [ofEntries, hread, ih]
    | error problem =>
      cases problem with
      | mismatch cause => simp [ofEntries, hread, ih]
      | fault fault => simp [ofEntries, hread]

end Column

namespace Extra

/-- An extra is rejected if it cannot be read, whatever the name of the table. -/
def Rejected (key : Option Text) (value : Expr) : Prop :=
  ∃ table cause, ofEntry table key value = .error cause

theorem isOk_ofIndex (table table' : Text) (key : Option Text) (base : List Expr)
    (modifiers : List Expr.Link) (unique : Bool) :
    (index <$> ofIndex table key base modifiers unique).isOk =
      (index <$> ofIndex table' key base modifiers unique).isOk := by
  unfold ofIndex
  cases indexTarget? modifiers <;> rfl

/-- The name of the table only serves to name an index. -/
theorem isOk_ofEntry (table table' : Text) (key : Option Text) (value : Expr) :
    (ofEntry table key value).isOk = (ofEntry table' key value).isOk := by
  unfold ofEntry
  cases value.chain.getLast? with
  | none => rfl
  | some base =>
    dsimp only
    split
    · exact isOk_ofIndex ..
    · split
      · exact isOk_ofIndex ..
      · rfl

/-- Extras that are rejected can be taken out of a list. -/
theorem readable_eq_of_thinned (table : Text) {entries entries' : List (Option Text × Expr)}
    (h : Thinned (fun x => Rejected x.1 x.2) Eq entries entries') :
    readable table entries' = readable table entries := by
  refine h.filterMap_eq ?_ ?_
  · rintro ⟨key, value⟩ ⟨table', cause, hcause⟩
    have hnot : (ofEntry table key value).isOk = false := by
      rw [isOk_ofEntry table table', hcause]
      rfl
    cases hread : ofEntry table key value with
    | error cause => rfl
    | ok extra => simp [hread, Except.isOk, Except.toBool] at hnot
  · rintro x y rfl
    rfl

/-- A pruned function for extras has the entries that are left. -/
theorem entries_of_pruned {e e' : Expr}
    (h : Expr.Pruned (fun p => Rejected (some p.key) p.value) (Rejected none) e e') :
    Thinned (fun x => Rejected x.1 x.2) Eq (entries e) (entries e') := by
  unfold entries
  have hunwrap := h.unwrap
  generalize e.unwrap = u, e'.unwrap = u' at hunwrap
  cases hunwrap with
  | same u => exact .refl _
  | object x h => exact .refl _
  | array x h => exact .refl _
  | parenthesized x h => exact .refl _
  | block x y hbefore h => exact .refl _
  | @function x parameters body body' h =>
    dsimp only
    have hresult := h.result?
    generalize body.result? = r, body'.result? = r' at hresult
    cases hresult with
    | none => exact .refl _
    | some h =>
      cases h with
      | same r => exact .refl _
      | object x h => exact h.map (fun _ hp => hp) (fun _ _ hsame => hsame ▸ rfl)
      | array x h => exact h.map (fun _ hp => hp) (fun _ _ hsame => hsame ▸ rfl)
      | parenthesized x h => exact .refl _
      | function x parameters h => exact .refl _
      | block x y hbefore h => exact .refl _

end Extra

namespace Relation

/-- An entry of a mapping is rejected if it declares no relation. -/
def Rejected (rules : HeuristicRules) (entry : Entry) : Prop :=
  ∃ cause, ofEntry rules entry = .error cause

theorem filterMap_ofEntry_of_thinned (rules : HeuristicRules) {entries entries' : List Entry}
    (h : Thinned (Rejected rules) Eq entries entries') :
    entries'.filterMap (fun e => (ofEntry rules e).toOption) =
      entries.filterMap fun e => (ofEntry rules e).toOption := by
  refine h.filterMap_eq ?_ ?_
  · rintro entry ⟨cause, hcause⟩
    rw [hcause]
    rfl
  · rintro x y rfl
    rfl

/-- A declaration whose mapping is pruned declares the same relations. -/
theorem declared?_of_pruned {config : Config} {d d' : Declaration} {table callback callback' : Expr}
    {rest : List Expr} (hname : d'.name = d.name)
    (h : d.arguments? = some (table :: callback :: rest))
    (h' : d'.arguments? = some (table :: callback' :: rest))
    (hcallback : Expr.Pruned (Rejected config.heuristics) (fun _ => False) callback callback') :
    declared? config d' = declared? config d := by
  unfold declared? mapping
  rw [hname, h, h']
  cases owner? config.declarations d.name with
  | none => rfl
  | some owner =>
    dsimp only
    have hunwrap := hcallback.unwrap
    generalize callback.unwrap = u, callback'.unwrap = u' at hunwrap
    cases hunwrap with
    | @function x parameters body body' hbody =>
      dsimp only
      have hresult := hbody.result?
      generalize body.result? = r, body'.result? = r' at hresult
      cases hresult with
      | none => rfl
      | some hresult =>
        cases hresult with
        | object x hentries =>
          show some (owner, _) = some (owner, _)
          rw [filterMap_ofEntry_of_thinned config.heuristics hentries]
        | _ => rfl
    | _ => rfl

end Relation

namespace Declaration

def withArguments (d : Declaration) (arguments : List Expr) : Declaration :=
  { d with initializer := match d.initializer with
      | some (.call x callee _) => some (.call x callee arguments)
      | other => other }

/-- What a declaration declares follows from its callee. -/
theorem kind?_withArguments (d : Declaration) (arguments : List Expr) (rules : DeclarationRules) :
    (d.withArguments arguments).kind? rules = d.kind? rules := by
  obtain ⟨_, initializer, exported, _, _, _⟩ := d
  cases initializer with
  | none => rfl
  | some e => cases e <;> cases exported <;> rfl

theorem arguments?_withArguments {d : Declaration} {old : List Expr} (h : d.arguments? = some old)
    (arguments : List Expr) : (d.withArguments arguments).arguments? = some arguments := by
  obtain ⟨_, initializer, _, _, _, _⟩ := d
  cases initializer with
  | none => cases h
  | some e =>
    cases e with
    | call x callee found => rfl
    | _ => cases h

/-- A declaration of a table, of relations or of an enum is rejected if it has the wrong shape. -/
def Rejected (config : Config) (enums : Enums) (d : Declaration) : Prop :=
  match d.kind? config.declarations with
  | some .table => ∃ cause, (Entity.ofDeclaration config enums d).outcome = .ok (.error cause)
  | some .relations =>
    ∃ cause, (Relation.ofDeclaration config.declarations config.heuristics d).outcome =
      .ok (.error cause)
  | some .enum => d.enumValues? = none
  | none => False

/-- The same declaration less some rejected units inside it: entries of the map of columns and extras
of a table, entries of the mapping of relations. -/
inductive Trimmed (config : Config) : Declaration → Declaration → Prop
  | same (d : Declaration) : Trimmed config d d
  | columns {d : Declaration} {name columns columns' : Expr} {rest : List Expr} :
      d.kind? config.declarations = some .table →
      d.arguments? = some (name :: columns :: rest) →
      Expr.Pruned Column.Rejected (fun _ => False) columns columns' →
      Trimmed config d (d.withArguments (name :: columns' :: rest))
  | extras {d : Declaration} {name columns columns' extras extras' : Expr} {rest : List Expr} :
      d.kind? config.declarations = some .table →
      d.arguments? = some (name :: columns :: extras :: rest) →
      Expr.Pruned Column.Rejected (fun _ => False) columns columns' →
      Expr.Pruned (fun p => Extra.Rejected (some p.key) p.value) (Extra.Rejected none) extras
        extras' →
      Trimmed config d (d.withArguments (name :: columns' :: extras' :: rest))
  | relations {d : Declaration} {table mapping mapping' : Expr} {rest : List Expr} :
      d.kind? config.declarations = some .relations →
      d.arguments? = some (table :: mapping :: rest) →
      Expr.Pruned (Relation.Rejected config.heuristics) (fun _ => False) mapping mapping' →
      Trimmed config d (d.withArguments (table :: mapping' :: rest))

end Declaration

namespace Entity

/-- Pruned maps of columns have the entries that are left. -/
theorem columnMap?_of_pruned {entry : Entry → Prop} {e e' : Expr}
    (h : Expr.Pruned entry (fun _ => False) e e') :
    Option.Rel (Thinned entry Eq) (columnMap? e) (columnMap? e') := by
  have hsame (o : Option (List Entry)) : Option.Rel (Thinned entry Eq) o o := by
    cases o with
    | none => exact .none
    | some es => exact .some (.refl es)
  unfold columnMap?
  have hunwrap := h.unwrap
  generalize e.unwrap = u, e'.unwrap = u' at hunwrap
  cases hunwrap with
  | same u => exact hsame _
  | object x h => exact .some h
  | array x h => exact .none
  | parenthesized x h => exact .none
  | block x y hbefore h => exact .none
  | @function x parameters body body' h =>
    dsimp only
    have hresult := h.result?
    generalize body.result? = r, body'.result? = r' at hresult
    cases hresult with
    | none => exact .none
    | some h => exact h.properties?

/-- Two tables of one name are declared alike if one is the other less rejected columns and extras,
or if neither has the shape of a table. -/
def LikeShapes : Except Mismatch Shape → Except Mismatch Shape → Prop
  | .error cause, .error cause' => cause' = cause
  | .ok parts, .ok parts' => parts'.tableName = parts.tableName ∧
      Thinned Column.Rejected Eq parts.columns parts'.columns ∧
      Thinned (fun x => Extra.Rejected x.1 x.2) Eq parts.extras parts'.extras
  | _, _ => False

/-- Calls that differ in what is rejected have shapes that are read alike. -/
theorem likeShapes_of_arguments {d d' : Declaration} {name columns columns' : Expr}
    {rest rest' : List Expr} (h : d.arguments? = some (name :: columns :: rest))
    (h' : d'.arguments? = some (name :: columns' :: rest'))
    (hcolumns : Expr.Pruned Column.Rejected (fun _ => False) columns columns')
    (hrest : Thinned (fun x => Extra.Rejected x.1 x.2) Eq
      ((rest.head?.map Extra.entries).getD []) ((rest'.head?.map Extra.entries).getD [])) :
    LikeShapes (shape d) (shape d') := by
  have hmaps := columnMap?_of_pruned hcolumns
  unfold shape
  rw [h, h']
  dsimp only
  cases name.unwrap.string? with
  | none => rfl
  | some tableName =>
    cases tableName with
    | nil => rfl
    | cons c others =>
      generalize columnMap? columns = map, columnMap? columns' = map' at hmaps
      cases hmaps with
      | none => rfl
      | some hmap => exact ⟨rfl, hmap, hrest⟩

/-- What a declaration gives depends on its name, its comments and what it is read from. -/
theorem outcome_ofDeclaration_of_likeShapes {config : Config} {enums : Enums} {d d' : Declaration}
    (h : LikeShapes (shape d) (shape d')) (hname : d'.name = d.name)
    (hstatement : d'.statementComments = d.statementComments) (hcomments : d'.comments = d.comments) :
    (ofDeclaration config enums d').outcome = (ofDeclaration config enums d).outcome := by
  refine outcome_ofDeclaration_congr hname (fun _ => ⟨hstatement, hcomments⟩) ?_
  generalize shape d = s, shape d' = s' at h
  cases s with
  | error cause =>
    cases s' with
    | error cause' => rw [show cause' = cause from h]
    | ok parts' => exact h.elim
  | ok parts =>
    cases s' with
    | error cause' => exact h.elim
    | ok parts' =>
      obtain ⟨htable, hcolumns, hextras⟩ := h
      simp only [Except.map_ok, Shape.read, htable,
        Column.outcome_ofEntries_of_thinned config.options.includeComments enums hcolumns,
        Extra.readable_eq_of_thinned parts.tableName hextras]

end Entity

namespace Declaration

variable {config : Config} {d d' : Declaration}

theorem Trimmed.kind?_eq (h : Trimmed config d d') :
    d'.kind? config.declarations = d.kind? config.declarations := by
  cases h with
  | same => rfl
  | _ => exact kind?_withArguments ..

/-- Only tables and relations have units inside them. -/
theorem Trimmed.eq_of_enum (h : Trimmed config d d')
    (hkind : d.kind? config.declarations = some .enum) : d' = d := by
  cases h with
  | same => rfl
  | columns htable => simp [htable] at hkind
  | extras htable => simp [htable] at hkind
  | relations hrelations => simp [hrelations] at hkind

/-- A trimmed table declaration declares the same entity. -/
theorem Trimmed.outcome_ofDeclaration (h : Trimmed config d d') (enums : Enums)
    (hkind : d.kind? config.declarations = some .table) :
    (Entity.ofDeclaration config enums d').outcome =
      (Entity.ofDeclaration config enums d).outcome := by
  cases h with
  | same => rfl
  | columns _ harguments hcolumns =>
    exact Entity.outcome_ofDeclaration_of_likeShapes (Entity.likeShapes_of_arguments harguments
      (arguments?_withArguments harguments _) hcolumns (.refl _)) rfl rfl rfl
  | extras _ harguments hcolumns hextras =>
    exact Entity.outcome_ofDeclaration_of_likeShapes (Entity.likeShapes_of_arguments harguments
      (arguments?_withArguments harguments _) hcolumns (Extra.entries_of_pruned hextras)) rfl rfl rfl
  | relations hrelations => simp [hrelations] at hkind

/-- A trimmed relations declaration declares the same relations. -/
theorem Trimmed.declared?_eq (h : Trimmed config d d')
    (hkind : d.kind? config.declarations = some .relations) :
    Relation.declared? config d' = Relation.declared? config d := by
  cases h with
  | same => rfl
  | columns htable => simp [htable] at hkind
  | extras htable => simp [htable] at hkind
  | relations _ harguments hmapping =>
    exact Relation.declared?_of_pruned rfl harguments (arguments?_withArguments harguments _)
      hmapping

end Declaration

/-- Declarations that give no entity, and changes that keep the entity, leave no trace. -/
theorem ParsedDocument.outcome_entitiesOf_of_thinned {config : Config} {id : Text} {enums : Enums}
    {ds ds' : List Declaration}
    (h : Thinned
      (fun d => ∃ cause, (Entity.ofDeclaration config enums d).outcome = .ok (.error cause))
      (fun d d' => (Entity.ofDeclaration config enums d').outcome =
        (Entity.ofDeclaration config enums d).outcome) ds ds') :
    (entitiesOf config id enums ds').outcome = (entitiesOf config id enums ds).outcome := by
  induction h with
  | nil => rfl
  | drop hd _ ih =>
    obtain ⟨cause, hcause⟩ := hd
    simp [entitiesOf, hcause, ih]
  | @keep d d' rest rest' hsame _ ih =>
    simp only [entitiesOf, Trace.outcome_bind, hsame]
    cases (Entity.ofDeclaration config enums d).outcome with
    | error fault => rfl
    | ok result => cases result <;> simp [ih]

namespace Document

/-- The same document less some rejected units: whole declarations, and units inside declarations
that stay. -/
structure Trimmed (config : Config) (document document' : Document) : Prop where
  declarations : Thinned (Declaration.Rejected config (document.enums config))
    (Declaration.Trimmed config) document.declarations document'.declarations
  hasErrors : document'.hasErrors = document.hasErrors

variable {config : Config} {document document' : Document}

/-- The declarations of one kind in a trimmed document. -/
theorem Trimmed.ofKind (h : document.Trimmed config document') (kind : DeclarationKind) :
    Thinned
      (fun d => d.Rejected config (document.enums config) ∧ d.kind? config.declarations = some kind)
      (fun d d' => d.Trimmed config d' ∧ d.kind? config.declarations = some kind)
      (ParsedDocument.ofKind config.declarations kind document.declarations)
      (ParsedDocument.ofKind config.declarations kind document'.declarations) := by
  have hfilter := h.declarations.filter
    (q := fun d => decide (d.kind? config.declarations = some kind))
    (fun d d' hd => by rw [hd.kind?_eq])
  exact hfilter.mono (fun d hd => ⟨hd.1, of_decide_eq_true hd.2⟩)
    fun d d' hd => ⟨hd.1, of_decide_eq_true hd.2⟩

/-- What is trimmed off gives no enum. -/
theorem Trimmed.enums_eq (h : document.Trimmed config document') :
    document'.enums config = document.enums config := by
  have hvalues := (h.ofKind .enum).filterMap_eq
    (f := fun d => d.enumValues?.map (d.name, ·)) ?_ ?_
  · exact congrArg Keyed.ofList hvalues
  · rintro d ⟨hrejected, hkind⟩
    rw [Declaration.Rejected, hkind] at hrejected
    rw [hrejected]
    rfl
  · rintro d d' ⟨htrimmed, hkind⟩
    rw [htrimmed.eq_of_enum hkind]

/-- What is trimmed off gives no relation. -/
theorem Trimmed.relationPairs_eq (h : document.Trimmed config document') :
    document'.relationPairs config = document.relationPairs config := by
  have hdeclared := (h.ofKind .relations).filterMap_eq (f := Relation.declared? config) ?_ ?_
  · exact congrArg (List.filter (!·.2.isEmpty)) hdeclared
  · rintro d ⟨hrejected, hkind⟩
    rw [Declaration.Rejected, hkind] at hrejected
    obtain ⟨cause, hcause⟩ := hrejected
    unfold Relation.ofDeclaration at hcause
    unfold Relation.declared?
    cases hmapping : Relation.mapping config.declarations d with
    | error cause => rfl
    | ok found => simp [hmapping, Relation.outcome_ofEntries] at hcause
  · rintro d d' ⟨htrimmed, hkind⟩
    exact htrimmed.declared?_eq hkind

theorem Trimmed.outcome_entitiesOf (h : document.Trimmed config document') (id : Text) :
    (ParsedDocument.entitiesOf config id (document.enums config)
      (document'.tables config)).outcome =
      (ParsedDocument.entitiesOf config id (document.enums config)
        (document.tables config)).outcome := by
  refine ParsedDocument.outcome_entitiesOf_of_thinned ((h.ofKind .table).mono ?_ ?_)
  · rintro d ⟨hrejected, hkind⟩
    rw [Declaration.Rejected, hkind] at hrejected
    exact hrejected
  · rintro d d' ⟨htrimmed, hkind⟩
    exact htrimmed.outcome_ofDeclaration _ hkind

/-- Deleting rejected units leaves no trace: the document still parses to the same entities,
relations and enums, or still ends the run in the same way. -/
theorem outcome_ofDocument_of_trimmed (h : document.Trimmed config document') (id : Text) :
    (ParsedDocument.ofDocument config id document').outcome =
      (ParsedDocument.ofDocument config id document).outcome := by
  have hparsed : document'.parsedWith config id = document.parsedWith config id := by
    funext entities
    simp only [parsedWith, h.relationPairs_eq, h.enums_eq]
  rw [outcome_ofDocument, outcome_ofDocument, hparsed, h.enums_eq, h.outcome_entitiesOf id]

namespace Accounts

def invocation (callee : Text) (arguments : List Expr) : Expr :=
  .call default (.identifier ⟨callee, 1⟩ callee) arguments

def entry (key : Text) (value : Expr) : Entry := ⟨default, key, value, []⟩

def exported (name : Text) (value : Expr) : Declaration := ⟨name, some value, true, 1, [], []⟩

def literal (value : Text) : Expr := .string default value

def identifier (name : Text) : Expr := .identifier default name

def idIndex : Expr :=
  .call default (.memberAccess default (invocation "index" []) "on") [identifier "id"]

def table (columns : List Entry) (extras : List Expr) : Expr :=
  invocation "pgTable" [literal "accounts", .object default columns,
    .function default ["t"] (.block default
      [.other default "comment", .returned default (some (.array default extras))])]

def relations (mapping : List Entry) : Expr :=
  invocation "relations" [identifier "accounts",
    .function default [] (.parenthesized default (.object default mapping))]

def idColumn : Entry := entry "id" (invocation "serial" [])

def roleColumn : Entry := entry "role" (invocation "role" [])

def posts : Entry := entry "posts" (invocation "many" [identifier "posts"])

/-- A document with every kind of unit that is rejected, some behind good ones of their name. -/
def declared : Document where
  declarations := [
    exported "role" (invocation "pgEnum" [literal "role", .array default [literal "admin"]]),
    exported "role" (invocation "pgEnum" [literal "role"]),
    exported "accounts" (invocation "pgTable" [literal "accounts"]),
    exported "accounts" (table [idColumn, entry "note" (literal "none"), roleColumn]
      [invocation "index" [], idIndex, literal "none"]),
    exported "accountsRelations" (relations [posts, entry "tags" (invocation "some" [])]),
    exported "accountsRelations" (invocation "relations" [identifier "accounts"])]

def sound : Document where
  declarations := [
    exported "role" (invocation "pgEnum" [literal "role", .array default [literal "admin"]]),
    exported "accounts" (table [idColumn, roleColumn] [idIndex]),
    exported "accountsRelations" (relations [posts])]

def parsed : Except Fault ParsedDocument :=
  (ParsedDocument.ofDocument {} "accounts.ts" declared).outcome

end Accounts

open Accounts in
/-- A document with something to reject at every level, and the same document without. -/
theorem outcome_ofDocument_accounts :
    declared.Trimmed {} sound ∧
    (ParsedDocument.ofDocument {} "accounts.ts" sound).outcome = parsed ∧
    parsed.toOption.map (fun p =>
      p.entities.map fun e => (e.columns.map (·.name), e.indexes.map (·.columns))) =
        some [([("id" : Text), "role"], [[("id" : Text)]])] ∧
    parsed.toOption.map (fun p => (p.relations.map fun r => (r.1, r.2.map (·.name)), p.enums)) =
      some ([(("accounts" : Text), [("posts" : Text)])], [(("role" : Text), [("admin" : Text)])]) := by
  have hcolumns : Thinned Column.Rejected Eq [idColumn, entry "note" (literal "none"), roleColumn]
      [idColumn, roleColumn] :=
    .keep rfl (.drop (fun _ _ _ h => by cases h) (.keep rfl .nil))
  have hextras : Thinned (Extra.Rejected none) Eq [invocation "index" [], idIndex, literal "none"]
      [idIndex] :=
    .drop ⟨[], .indexWithoutColumns, rfl⟩ (.keep rfl (.drop ⟨[], .extraWithoutCall, rfl⟩ .nil))
  have hmapping : Thinned (Relation.Rejected {}) Eq [posts, entry "tags" (invocation "some" [])]
      [posts] :=
    .keep rfl (.drop ⟨.relationHelperUnknown "some", rfl⟩ .nil)
  have hreturned : ∀ s ∈ [Expr.other default "comment"], ∀ z r, s ≠ .returned z r := by simp
  have htrimmed : declared.Trimmed {} sound := by
    refine ⟨?_, rfl⟩
    refine .keep (.same _) (.drop rfl (.drop ⟨.tableWithoutArguments, rfl⟩ ?_))
    refine .keep (.extras rfl rfl (.object _ hcolumns)
      (.function _ _ (.block _ _ hreturned (.array _ hextras)))) ?_
    exact .keep (.relations rfl rfl (.function _ _ (.parenthesized _ (.object _ hmapping))))
      (.drop ⟨.relationsWithoutArguments, rfl⟩ .nil)
  exact ⟨htrimmed, outcome_ofDocument_of_trimmed htrimmed "accounts.ts", by decide +kernel,
    by decide +kernel⟩

end Document
end SchemaAtlas
