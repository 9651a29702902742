import SchemaAtlas.Proofs.Batch.Returns
import SchemaAtlas.Proofs.Declaration.Texts

/-!
# Which results can be encoded

A source with surrogates is refused, and what is read from bytes holds none, so a surrogate in a
parsed document can only come from an escape sequence. Each escape is decoded on its own and may
name any code point: a single escape, or one half of a pair, puts a surrogate into the result, and
the text that holds it cannot be encoded. Without such escapes in the initial values of declarations
every text of a parsed document can be encoded.
-/

namespace SchemaAtlas

open Syntax (Tree)

def ParsedDocument.texts (p : ParsedDocument) : List Text :=
  p.id :: (p.entities.flatMap Entity.texts ++
    p.relations.flatMap (fun (table, relations) => table :: relations.flatMap Relation.texts) ++
    p.enums.flatMap fun (name, values) => name :: values)

variable {P : CodePoint → Prop}

namespace Declaration

variable {source : Bytes} {stack : Stack} {exported : Bool} {before : List Tree}

/-- A declarator brings nothing into its declaration but scalars and what its escape sequences stand
for. -/
theorem within_ofDeclarator (hP : HoldsOfScalars P) {comments : List Text}
    (hcomments : ∀ comment ∈ comments, comment.Within P) {declarator : Tree}
    (hvalue : ∀ value ∈ initialValue? declarator, ∀ c ∈ Expr.spelled source value, P c)
    {d : Declaration}
    (h : (ofDeclarator source stack exported comments before declarator).outcome = .ok (some d)) :
    d.Within P := by
  unfold ofDeclarator at h
  unfold initialValue? at hvalue
  cases hname : declarator.child? .name with
  | none => simp [hname] at h
  | some name =>
    by_cases hkind : name.kind = .identifier
    · simp only [hname, hkind, ne_eq, not_true_eq_false, if_false] at h
      have hread : ∀ initializer,
          (declarator.child? .value).mapM (Expr.ofTree source stack) = .ok initializer →
            ∀ e ∈ initializer, e.Within P := by
        intro initializer hinitializer e he
        cases hchild : declarator.child? .value with
        | none =>
          rw [hchild] at hinitializer
          cases hinitializer
          cases he
        | some value =>
          rw [hchild] at hinitializer
          obtain ⟨e', he', heq⟩ := Except.map_eq_ok.mp hinitializer
          subst heq
          cases he
          refine Expr.within_ofTree hP (hvalue value ?_) he'
          simp [hname, hkind, hchild]
      split at h
      · next initializer hinitializer =>
        cases h
        exact ⟨name.within_text hP source, hread initializer hinitializer, hcomments,
          Syntax.within_leadingComments hP source before⟩
      · cases h
      · cases h
    · simp [hname, hkind] at h

theorem within_ofStatement (hP : HoldsOfScalars P) {node : Tree}
    (hvalues : ∀ value ∈ initialValues node, ∀ c ∈ Expr.spelled source value, P c)
    {ds : List Declaration} (h : (ofStatement source stack exported before node).outcome = .ok ds) :
    ∀ d ∈ ds, d.Within P := by
  intro d hd
  rw [outcome_ofStatement] at h
  obtain ⟨found, hfound, rfl⟩ := Except.map_eq_ok.mp h
  obtain ⟨_, hmem, rfl⟩ := List.mem_filterMap.mp hd
  obtain ⟨placed, hplaced, hread⟩ := exists_left_of_forall₂ (Except.mapM_eq_ok.mp hfound) hmem
  refine within_ofDeclarator hP (Syntax.within_leadingComments hP source before) ?_ hread
  intro value hvalue
  refine hvalues value (List.mem_filterMap.mpr ⟨placed.2, ?_, hvalue⟩)
  rw [← map_snd_declarators]
  exact List.mem_map_of_mem hplaced

theorem within_ofTopLevel (hP : HoldsOfScalars P) {statement : Tree}
    (hvalues : ∀ node ∈ nodesOf statement, ∀ value ∈ initialValues node,
      ∀ c ∈ Expr.spelled source value, P c)
    {ds : List Declaration} (h : (ofTopLevel source stack before statement).outcome = .ok ds) :
    ∀ d ∈ ds, d.Within P := by
  unfold ofTopLevel at h
  unfold nodesOf at hvalues
  split at h
  · next hexport =>
    rw [if_pos hexport] at hvalues
    rw [Trace.outcome_map, Trace.outcome_mapM] at h
    obtain ⟨found, hfound, rfl⟩ := Except.map_eq_ok.mp h
    intro d hd
    obtain ⟨declared, hdeclared, hd⟩ := List.mem_flatten.mp hd
    obtain ⟨node, hnode, hread⟩ := exists_left_of_forall₂ (Except.mapM_eq_ok.mp hfound) hdeclared
    exact within_ofStatement hP (hvalues node hnode) hread d hd
  · next hexport =>
    rw [if_neg hexport] at hvalues
    split at h
    · next hnode =>
      rw [if_pos hnode] at hvalues
      exact within_ofStatement hP (hvalues statement List.mem_cons_self) h
    · cases h
      simp

end Declaration

/-- The declarations of a tree hold scalar values and what the escape sequences in their initial
values spell. -/
theorem Document.within_ofTree (hP : HoldsOfScalars P) {source : Bytes} {stack : Stack}
    {root : Tree}
    {hasErrors : Bool}
    (hvalues : ∀ value ∈ initialValues root, ∀ c ∈ Expr.spelled source value, P c)
    {document : Document} (h : (ofTree source stack root hasErrors).outcome = .ok document) :
    ∀ d ∈ document.declarations, d.Within P := by
  rw [outcome_ofTree, Functor.map_map] at h
  obtain ⟨found, hfound, rfl⟩ := Except.map_eq_ok.mp h
  intro d hd
  obtain ⟨declared, hdeclared, hd⟩ := List.mem_flatten.mp hd
  obtain ⟨placed, hplaced, hread⟩ := exists_left_of_forall₂ (Except.mapM_eq_ok.mp hfound) hdeclared
  have hstatement := Tree.mem_namedChildren_of_placed hplaced
  refine Declaration.within_ofTopLevel hP (fun node hnode value hvalue => hvalues value ?_) hread d
    hd
  exact List.mem_flatMap.mpr ⟨placed.2, hstatement, List.mem_flatMap.mpr ⟨node, hnode, hvalue⟩⟩

namespace Document

variable {config : Config} {document : Document}

theorem within_enums (h : ∀ d ∈ document.declarations, d.Within P) :
    (document.enums config).Within P := by
  intro pair hpair
  obtain ⟨d, hd, hvalues⟩ := List.mem_filterMap.mp (Keyed.mem_of_mem_ofList hpair)
  have hwithin := h d (List.mem_filter.mp hd).1
  obtain ⟨values, hread, rfl⟩ := Option.map_eq_some_iff.mp hvalues
  exact ⟨hwithin.name, hwithin.enumValues? values hread⟩

theorem within_relationPairs (hP : HoldsOfScalars P)
    (h : ∀ d ∈ document.declarations, d.Within P) :
    ∀ pair ∈ document.relationPairs config,
      pair.1.Within P ∧ ∀ r ∈ pair.2, ∀ t ∈ r.texts, t.Within P := by
  intro pair hpair
  obtain ⟨d, hd, hdeclared⟩ := List.mem_filterMap.mp (List.mem_filter.mp hpair).1
  exact (h d (List.mem_filter.mp hd).1).declared? hP hdeclared

/-- The texts of a parsed document are its id, texts of its declarations, and texts of scalar
values. -/
theorem ParsesTo.within_texts (hP : HoldsOfScalars P) {p : ParsedDocument}
    (h : document.ParsesTo config p) (hid : p.id.Within P)
    (hdeclarations : ∀ d ∈ document.declarations, d.Within P) : ∀ t ∈ p.texts, t.Within P := by
  have hrelations : ∀ pair ∈ p.relations,
      pair.1.Within P ∧ ∀ r ∈ pair.2, ∀ t ∈ r.texts, t.Within P := by
    obtain ⟨results, -, hp⟩ := h.eq_parsedWith
    intro pair hpair
    rw [hp, parsedWith] at hpair
    split at hpair
    · exact within_relationPairs hP hdeclarations pair (Keyed.mem_of_mem_ofList hpair)
    · cases hpair
  have henums : p.enums.Within P := by
    obtain ⟨results, -, hp⟩ := h.eq_parsedWith
    rw [hp]
    exact within_enums hdeclarations
  have hentities : ∀ e ∈ p.entities, ∀ t ∈ e.texts, t.Within P := by
    intro e he
    obtain ⟨d, hd, e₀, hof, rfl⟩ := h.exists_declaration he
    have hwithin := Entity.within_ofDeclaration hP (within_enums hdeclarations)
      (hdeclarations d (List.mem_filter.mp hd).1) hof
    refine Entity.within_withRelations hwithin fun list hlist => ?_
    obtain ⟨items, hitems, rfl⟩ := Option.map_eq_some_iff.mp hlist
    exact (hrelations _ (Keyed.mem_of_get? hitems)).2
  simp only [ParsedDocument.texts, List.forall_mem_cons, List.forall_mem_append,
    List.forall_mem_flatMap]
  exact ⟨hid, ⟨hentities, hrelations⟩, henums⟩

end Document

/-- A source that holds surrogates is refused. -/
theorem outcome_parseSource_of_encoded_eq_error (reader : TreeReader) (config : Config) (id : Text)
    (dialect : Option Text) {source : Source} {problem : Utf8.Unencodable}
    (h : source.encoded = .error problem) :
    (parseSource reader config id dialect source).outcome =
      .ok (.error ⟨id, .unencodable problem⟩) := by
  simp [parseSource, readSource, h, pure, Trace.outcome_bind]

/-- What a source that is not refused parses to. -/
theorem exists_parsesTo_of_parseSource {reader : TreeReader} {config : Config} {id : Text}
    {dialect : Option Text} {source : Source} {p : ParsedDocument}
    (h : (parseSource reader config id dialect source).outcome = .ok (.ok p)) :
    ∃ bytes d document, source.encoded = .ok bytes ∧ dialectFor id dialect = .ok d ∧
      (Document.ofTree bytes reader.stack (reader.read d bytes).tree
        (reader.read d bytes).hasErrors).outcome =
        .ok document ∧ p.id = id ∧ document.ParsesTo config p := by
  unfold parseSource readSource at h
  cases hbytes : source.encoded with
  | error problem => simp [hbytes] at h
  | ok bytes =>
    cases hdialect : dialectFor id dialect with
    | error reason => simp [hbytes, hdialect] at h
    | ok d =>
      simp only [hbytes, hdialect, Trace.outcome_bind, Trace.outcome_map, Except.bind_eq_ok] at h
      obtain ⟨result, hresult, h⟩ := h
      obtain ⟨document, hdocument, rfl⟩ := Except.map_eq_ok.mp hresult
      simp only [Trace.outcome_bind, Except.bind_eq_ok] at h
      obtain ⟨parsed, hparsed, h⟩ := h
      cases h
      exact ⟨bytes, d, document, rfl, rfl, hdocument, Document.parsesTo_of_outcome hparsed⟩

/-- A surrogate in a parsed document is one of its id, or an escape sequence of a string literal in
an initial value stands for it. Without such escapes all texts of the document can be encoded. -/
theorem spelled_of_parseSource (reader : TreeReader) (config : Config) (id : Text)
    (dialect : Option Text) (source : Source) :
    (∀ problem, source.encoded = .error problem →
      (parseSource reader config id dialect source).outcome =
        .ok (.error ⟨id, .unencodable problem⟩)) ∧
    ∀ p, (parseSource reader config id dialect source).outcome = .ok (.ok p) →
      ∃ bytes d, source.encoded = .ok bytes ∧ dialectFor id dialect = .ok d ∧
        (∀ t ∈ p.texts, ∀ c ∈ t, c.isSurrogate → c ∈ id ∨
          ∃ value ∈ Document.initialValues (reader.read d bytes).tree,
            c ∈ Expr.spelled bytes value) ∧
        (Returns (Utf8.encode id) →
          (∀ value ∈ Document.initialValues (reader.read d bytes).tree,
            ∀ c ∈ Expr.spelled bytes value, c.isSurrogate = false) →
          ∀ t ∈ p.texts, Returns (Utf8.encode t)) := by
  refine ⟨fun _ => outcome_parseSource_of_encoded_eq_error reader config id dialect, fun p hp => ?_⟩
  obtain ⟨bytes, d, document, hbytes, hdialect, hdocument, hid, hparses⟩ :=
    exists_parsesTo_of_parseSource hp
  refine ⟨bytes, d, hbytes, hdialect, ?_⟩
  have hspelled : ∀ t ∈ p.texts, ∀ c ∈ t, c.isSurrogate → c ∈ id ∨
      ∃ value ∈ Document.initialValues (reader.read d bytes).tree,
        c ∈ Expr.spelled bytes value := by
    have hscalars : HoldsOfScalars fun c => c.isSurrogate → c ∈ id ∨
        ∃ value ∈ Document.initialValues (reader.read d bytes).tree,
          c ∈ Expr.spelled bytes value := by
      intro c hscalar hsurrogate
      simp [hscalar] at hsurrogate
    refine hparses.within_texts hscalars (fun c hc _ => .inl (hid ▸ hc)) ?_
    exact Document.within_ofTree hscalars (fun value hvalue c hc _ => .inr ⟨value, hvalue, hc⟩)
      hdocument
  refine ⟨hspelled, fun hencoded hescapes t ht => ?_⟩
  rw [Utf8.returns_encode_iff] at hencoded ⊢
  intro c hc
  by_contra hsurrogate
  rw [Bool.not_eq_false] at hsurrogate
  rcases hspelled t ht c hc hsurrogate with hmem | ⟨value, hvalue, hmem⟩
  · rw [hencoded c hmem] at hsurrogate
    cases hsurrogate
  · rw [hescapes value hvalue c hmem] at hsurrogate
    cases hsurrogate

/-- A table whose column has an escape sequence for a letter in its default. -/
def letterSource : Source :=
  .text "export const as=pgTable('as',\x7ba:text().default('\\u0041')\x7d)"

/-- A table whose column has the two halves of a pair of surrogates as its default. -/
def halvesSource : Source :=
  .text "export const as=pgTable('as',\x7ba:text().default('\\uD83D\\uDE00')\x7d)"

/-- A text of the document that a source gives with the grammar at hand. -/
theorem exists_parsed_of_mem (source : Source) (t : Text)
    (h : ((parseSource Batch.grammarReader {} "as.ts" none source).outcome.toOption.bind
      Except.toOption).any fun p => decide (∃ s ∈ p.texts, s = t)) :
    ∃ p, (parseSource Batch.grammarReader {} "as.ts" none source).outcome = .ok (.ok p) ∧
      t ∈ p.texts := by
  obtain ⟨p, hp, hmem⟩ := Except.exists_ok_ok_of_any h
  obtain ⟨s, hs, rfl⟩ := of_decide_eq_true hmem
  exact ⟨p, hp, hs⟩

/-- The halves of the pair are a text of their own. -/
theorem exists_parsed_halvesSource :
    ∃ p, (parseSource Batch.grammarReader {} "as.ts" none halvesSource).outcome = .ok (.ok p) ∧
      [0xD83D, 0xDE00] ∈ p.texts :=
  exists_parsed_of_mem halvesSource [0xD83D, 0xDE00] (by decide +kernel)

/-- A text of a result that cannot be encoded, though its source can. -/
theorem not_returns_encode_halvesSource : Returns halvesSource.encoded ∧
    ∃ p, (parseSource Batch.grammarReader {} "as.ts" none halvesSource).outcome = .ok (.ok p) ∧
      ¬ ∀ t ∈ p.texts, Returns (Utf8.encode t) := by
  refine ⟨by decide +kernel, ?_⟩
  obtain ⟨p, hp, hmem⟩ := exists_parsed_halvesSource
  exact ⟨p, hp, fun hencoded => absurd (hencoded _ hmem) (by decide +kernel)⟩

/-- A surrogate in a result comes from an escape sequence, and a letter may as well. -/
theorem spelled_of_parseSource_letterSource :
    (∃ p, (parseSource Batch.grammarReader {} "as.ts" none letterSource).outcome = .ok (.ok p) ∧
      ("A" : Text) ∈ p.texts ∧ ∀ t ∈ p.texts, Returns (Utf8.encode t)) ∧
    ∃ bytes, halvesSource.encoded = .ok bytes ∧
      ∃ value ∈ Document.initialValues (Syntax.read bytes).1,
        0xD83D ∈ Expr.spelled bytes value := by
  constructor
  · obtain ⟨p, hp, hmem⟩ := exists_parsed_of_mem letterSource "A" (by decide +kernel)
    obtain ⟨bytes, d, hbytes, -, -, hencoded⟩ :=
      (spelled_of_parseSource Batch.grammarReader {} "as.ts" none letterSource).2 p hp
    have hescapes : letterSource.encoded.toOption.any fun (bytes : Bytes) =>
        (Document.initialValues (Syntax.read bytes).1).all fun value =>
          (Expr.spelled bytes value).all fun c => !c.isSurrogate := by
      decide +kernel
    rw [hbytes] at hescapes
    refine ⟨p, hp, hmem, hencoded (by decide +kernel) ?_⟩
    simpa [Except.toOption, Batch.grammarReader] using hescapes
  · obtain ⟨p, hp, hmem⟩ := exists_parsed_halvesSource
    obtain ⟨bytes, d, hbytes, -, hspelled, -⟩ :=
      (spelled_of_parseSource Batch.grammarReader {} "as.ts" none halvesSource).2 p hp
    refine ⟨bytes, hbytes, ?_⟩
    exact (hspelled _ hmem 0xD83D (by decide) (by decide)).resolve_left (by decide)

end SchemaAtlas
