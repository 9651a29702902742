import SchemaAtlas.Proofs.Batch.Contribution
import SchemaAtlas.Proofs.Batch.FinalTarget
import SchemaAtlas.Proofs.Column.Modifiers
import SchemaAtlas.Proofs.Expr.Unreadable

/-!
# When a batch returns

A document that cannot be encoded counts as empty, and a unit of the wrong shape is dropped. Two
things are not dropped but end the whole run: an escape sequence whose number does not fit a word,
in the initial value of a declaration, and an integer as a default with more digits than are
written. Without them a batch returns, and lists all its documents in order.
-/

namespace SchemaAtlas

namespace Column

/-- A column whose default is an integer that cannot be written. -/
def EndsRun (entry : Entry) : Prop := ∃ call ∈ entry.value.unwrap.chain.dropLast, Unwritable call

/-- A map of columns is read unless one of them ends the run. -/
theorem returns_ofEntries (includeComments : Bool) (enums : Enums) (entries : List Entry) :
    Returns (ofEntries includeComments enums entries).outcome ↔
      ∀ entry ∈ entries, ¬ EndsRun entry := by
  induction entries with
  | nil => simp [ofEntries]
  | cons entry rest ih =>
    rw [List.forall_mem_cons, ← ih]
    cases htype : entry.value.unwrap.chain.getLast? with
    | none =>
      have hchain := List.getLast?_eq_none_iff.mp htype
      have hentry : ¬ EndsRun entry := by simp [EndsRun, hchain]
      simp [ofEntries, ofEntry, htype, hentry]
    | some type =>
      have hentry : Returns (ofChain entry.key entry.value.unwrap.chain.dropLast type) ↔
          ¬ EndsRun entry := by
        rw [ofChain, returns_foldlM_applyModifier]
        simp [EndsRun]
      rw [← hentry]
      cases hchain : ofChain entry.key entry.value.unwrap.chain.dropLast type <;>
        simp [ofEntries, ofEntry, htype, hchain]

end Column

namespace Declaration

def EndsRun (d : Declaration) : Prop :=
  ∃ parts, Entity.shape d = .ok parts ∧ ∃ entry ∈ parts.columns, Column.EndsRun entry

/-- A table is read unless one of its columns ends the run. -/
theorem returns_ofDeclaration (config : Config) (enums : Enums) (d : Declaration) :
    Returns (Entity.ofDeclaration config enums d).outcome ↔ ¬ d.EndsRun := by
  unfold Entity.ofDeclaration EndsRun
  cases hshape : Entity.shape d with
  | error cause => simp
  | ok parts =>
    have hcolumns : Returns
        (Column.ofEntries config.options.includeComments enums parts.columns).outcome ↔
          ¬ ∃ entry ∈ parts.columns, Column.EndsRun entry := by
      rw [Column.returns_ofEntries]
      simp
    simp only [Except.ok.injEq, exists_eq_left', ← hcolumns, Trace.outcome_bind,
      Extra.outcome_ofEntries]
    cases (Column.ofEntries config.options.includeComments enums parts.columns).outcome <;> simp

def nodesOf (statement : Syntax.Tree) : List Syntax.Tree :=
  if statement.kind == .exportStatement then statement.namedChildren.filter isDeclarationNode
  else if isDeclarationNode statement then [statement] else []

def initialValue? (declarator : Syntax.Tree) : Option Syntax.Tree :=
  if (declarator.child? .name).any (·.kind == .identifier) then declarator.child? .value else none

/-- The initial values of the variables that a node declares by name. -/
def initialValues (node : Syntax.Tree) : List Syntax.Tree :=
  (node.namedChildren.filter (·.kind == .variableDeclarator)).filterMap initialValue?

/-- A value ends the run if it is given up by an escape sequence, before it nests too deeply. -/
def ValueEndsRun (source : Bytes) (stack : Stack) (value : Syntax.Tree) : Prop :=
  Expr.ofTree source stack value = .error .codePointBeyondWord

variable (source : Bytes) (stack : Stack)

/-- A declarator is read unless its value ends the run. -/
theorem returns_ofDeclarator (exported : Bool) (comments : List Text) (before : List Syntax.Tree)
    (declarator : Syntax.Tree) :
    Returns (ofDeclarator source stack exported comments before declarator).outcome ↔
      ∀ value, initialValue? declarator = some value → ¬ ValueEndsRun source stack value := by
  unfold ofDeclarator initialValue?
  cases hname : declarator.child? .name with
  | none => simp
  | some name =>
    by_cases hkind : name.kind = .identifier
    · cases hvalue : declarator.child? .value with
      | none => simp [hkind, pure, Except.pure]
      | some value =>
        cases hread : Expr.ofTree source stack value with
        | ok e => simp [hkind, hread, ValueEndsRun]
        | error obstacle => cases obstacle <;> simp [hkind, hread, ValueEndsRun]
    · simp [hkind]

omit source stack in
/-- The declarators of a node, without what stands before them. -/
theorem map_snd_declarators (node : Syntax.Tree) :
    (node.placedChildren.filter fun p =>
      p.2.named && p.2.kind == .variableDeclarator).map (·.2) =
        node.namedChildren.filter (·.kind == .variableDeclarator) := by
  rw [Syntax.Tree.map_filter_placedChildren node fun child =>
    child.named && child.kind == .variableDeclarator, Syntax.Tree.namedChildren,
    List.filter_filter]
  simp only [Bool.and_comm]

theorem returns_ofStatement (exported : Bool) (before : List Syntax.Tree) (node : Syntax.Tree) :
    Returns (ofStatement source stack exported before node).outcome ↔
      ∀ value ∈ initialValues node, ¬ ValueEndsRun source stack value := by
  rw [outcome_ofStatement, returns_map, returns_mapM]
  simp only [returns_ofDeclarator, initialValues, ← map_snd_declarators]
  constructor
  · intro h value hvalue
    obtain ⟨declarator, hdeclarator, hvalue⟩ := List.mem_filterMap.mp hvalue
    obtain ⟨p, hp, rfl⟩ := List.mem_map.mp hdeclarator
    exact h p hp value hvalue
  · intro h p hp value hvalue
    exact h value (List.mem_filterMap.mpr ⟨p.2, List.mem_map_of_mem hp, hvalue⟩)

theorem returns_ofTopLevel (before : List Syntax.Tree) (statement : Syntax.Tree) :
    Returns (ofTopLevel source stack before statement).outcome ↔
      ∀ node ∈ nodesOf statement, ∀ value ∈ initialValues node,
        ¬ ValueEndsRun source stack value := by
  unfold ofTopLevel nodesOf
  split
  · simp only [Trace.outcome_map, returns_map, Trace.outcome_mapM, returns_mapM,
      returns_ofStatement]
  · split
    · simp [returns_ofStatement]
    · simp

end Declaration

namespace Document

/-- The initial values of the variables that are declared by name at the top level. -/
def initialValues (root : Syntax.Tree) : List Syntax.Tree :=
  root.namedChildren.flatMap fun statement =>
    (Declaration.nodesOf statement).flatMap Declaration.initialValues

/-- A document is read unless one of its initial values ends the run. -/
theorem returns_ofTree (source : Bytes) (stack : Stack) (root : Syntax.Tree) (hasErrors : Bool) :
    Returns (ofTree source stack root hasErrors).outcome ↔
      ∀ value ∈ initialValues root, ¬ Declaration.ValueEndsRun source stack value := by
  rw [outcome_ofTree, returns_map, returns_map, returns_mapM]
  simp only [Declaration.returns_ofTopLevel, initialValues, Syntax.Tree.namedChildren,
    ← Syntax.Tree.map_filter_placedChildren root (·.named), List.mem_flatMap]
  constructor
  · rintro h value ⟨statement, hstatement, node, hnode, hvalue⟩
    obtain ⟨p, hp, rfl⟩ := List.mem_map.mp hstatement
    exact h p hp node hnode value hvalue
  · intro h p hp node hnode value hvalue
    exact h value ⟨p.2, List.mem_map_of_mem hp, node, hnode, hvalue⟩

theorem returns_ofDocument (config : Config) (id : Text) (document : Document) :
    Returns (ParsedDocument.ofDocument config id document).outcome ↔
      ∀ d ∈ document.tables config, ¬ d.EndsRun := by
  rw [outcome_ofDocument, returns_map, ParsedDocument.outcome_entitiesOf, returns_map,
    returns_mapM]
  simp only [Declaration.returns_ofDeclaration]

end Document

namespace Batch

open ParsedDocument

/-- What in a source of a batch ends the run. -/
inductive EndsRun (reader : TreeReader) (config : Config) (s : Text × Source) : Prop where
  /-- An initial value with an escape sequence whose number does not fit a word. -/
  | escape {bytes : Bytes} {value escape : Syntax.Tree} (encoded : s.2.encoded = .ok bytes)
      (mem : value ∈ Document.initialValues (reader.read (Dialect.ofFileName s.1) bytes).tree)
      (ends : Declaration.ValueEndsRun bytes reader.stack value) (below : escape.Below value)
      (kind : escape.kind = .escapeSequence)
      (decode : Escape.decode (escape.text bytes) = .error .beyondWord)
  /-- A table with an integer as a default that has too many digits to be written. -/
  | default {document : Document} {d : Declaration} (read : s.2.ReadAs reader s.1 document)
      (mem : d ∈ document.tables config) (ends : d.EndsRun)

variable {reader : TreeReader} {config : Config} {sources : Keyed Source}

theorem returns_readSource (reader : TreeReader) (s : Text × Source) :
    Returns (readSource reader s.1 none s.2).outcome ↔ ∀ bytes, s.2.encoded = .ok bytes →
      ∀ value ∈ Document.initialValues (reader.read (Dialect.ofFileName s.1) bytes).tree,
        ¬ Declaration.ValueEndsRun bytes reader.stack value := by
  unfold readSource
  cases hbytes : s.2.encoded with
  | error problem => simp
  | ok bytes => simp [dialectFor, Document.returns_ofTree]

/-- Reading a source ends the run only by an escape sequence below an initial value. -/
theorem EndsRun.of_readSource {s : Text × Source}
    (h : ¬ Returns (readSource reader s.1 none s.2).outcome) : EndsRun reader config s := by
  rw [returns_readSource] at h
  push Not at h
  obtain ⟨bytes, hbytes, value, hvalue, hends⟩ := h
  obtain ⟨escape, hbelow, hkind, hdecode⟩ := Expr.holdsBeyondWord_of_ofTree hends
  exact .escape hbytes hvalue hends hbelow hkind hdecode

/-- What ends the run in a source that can be read is in a table that it declares. -/
theorem endsRun_iff_of_readAs {s : Text × Source} {document : Document}
    (h : s.2.ReadAs reader s.1 document) :
    EndsRun reader config s ↔ ∃ d ∈ document.tables config, d.EndsRun := by
  obtain ⟨result, hread, rfl⟩ := h
  constructor
  · intro hends
    cases hends with
    | escape encoded mem ends below kind decode =>
      exact absurd ends ((returns_readSource reader s).mp ⟨result, hread⟩ _ encoded _ mem)
    | default read mem ends =>
      obtain ⟨result', hread', rfl⟩ := read
      rw [hread] at hread'
      cases hread'
      exact ⟨_, mem, ends⟩
  · rintro ⟨d, hd, hends⟩
    exact .default ⟨result, hread, rfl⟩ hd hends

/-- A source contributes a document unless something in it ends the run. -/
theorem returns_contribution (s : Text × Source) :
    Returns (contribution reader config s) ↔ ¬ EndsRun reader config s := by
  rw [contribution_eq, returns_map, parseSource, Trace.outcome_bind]
  cases hread : (readSource reader s.1 none s.2).outcome with
  | error fault =>
    have hnot : ¬ Returns (readSource reader s.1 none s.2).outcome := by simp [hread]
    simp [EndsRun.of_readSource hnot]
  | ok result =>
    rw [endsRun_iff_of_readAs ⟨result, hread, rfl⟩]
    cases result with
    | error failure => simp [Except.toOption, Document.tables, ofKind]
    | ok document =>
      have hdocument : Returns (ofDocument config s.1 document).outcome ↔
          ¬ ∃ d ∈ document.tables config, d.EndsRun := by
        rw [Document.returns_ofDocument]
        simp
      simp only [Except.ok_bind, Except.toOption, Option.getD_some, ← hdocument,
        Trace.outcome_bind]
      cases (ofDocument config s.1 document).outcome <;> simp

/-- A batch of sources with different ids returns and lists all of them in order, unless something
in one of them ends the run. -/
theorem returns_ofSources_iff (hids : (sources.map (·.1)).Nodup) :
    (∃ batch : Batch, (ofSources reader config sources).outcome = .ok batch ∧
        batch.map (·.1) = sources.map (·.1)) ↔
      ∀ s ∈ sources, ¬ EndsRun reader config s := by
  simp only [← returns_contribution, outcome_ofSources_eq_ok hids]
  constructor
  · rintro ⟨batch, ⟨hreturns, -⟩, -⟩
    exact hreturns
  · intro hreturns
    refine ⟨listing config (sources.map (contributed reader config)), ⟨hreturns, rfl⟩, ?_⟩
    simp [keys_listing]

/-- A source that declares no table, with an escape sequence beyond a word, and an empty one. -/
def overflowSources : Keyed Source :=
  [("a.ts", .text "const x=\"\\u\x7b80000000\x7d\";\n"), ("b.ts", .text "")]

theorem not_returns_outcome_overflowSources :
    ¬ Returns (ofSources grammarReader {} overflowSources).outcome := by
  decide +kernel

/-- One escape sequence takes all documents with it. -/
theorem not_returns_overflowSources :
    ¬ ∃ batch : Batch, (ofSources grammarReader {} overflowSources).outcome = .ok batch ∧
      batch.map (·.1) = overflowSources.map (·.1) := by
  rintro ⟨batch, hbatch, -⟩
  exact not_returns_outcome_overflowSources ⟨batch, hbatch⟩

theorem returns_ofSources_iff_overflowSources :
    (overflowSources.map (·.1)).Nodup ∧
    (∃ s ∈ overflowSources, EndsRun grammarReader {} s) ∧
    ∀ s ∈ overflowSources.drop 1, ¬ EndsRun grammarReader {} s := by
  refine ⟨by decide, ?_, ?_⟩
  · by_contra hnone
    push Not at hnone
    obtain ⟨batch, hbatch, -⟩ := (returns_ofSources_iff (by decide)).mpr hnone
    exact not_returns_outcome_overflowSources ⟨batch, hbatch⟩
  · exact (returns_ofSources_iff (by decide)).mp ⟨[("b.ts", [])], by decide +kernel, rfl⟩

end Batch
end SchemaAtlas
