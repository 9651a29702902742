import SchemaAtlas.Proofs.Expr.Unreadable
import SchemaAtlas.Proofs.Text.CodePoints

/-!
# The code points of expressions

Every text in an expression is cut out of its source or is the value of an escape sequence. Of the
code points of such a text only those can be surrogates that an escape sequence of a string literal
spells: one that stands for this code point and nothing else. All readers of expressions pass that
on.
-/

namespace SchemaAtlas

namespace Expr

inductive Within (P : CodePoint → Prop) : Expr → Prop
  | identifier {x : Extent} {name : Text} :
      x.text.Within P → name.Within P → Within P (.identifier x name)
  | memberAccess {x : Extent} {receiver : Expr} {property : Text} :
      x.text.Within P → Within P receiver → property.Within P →
      Within P (.memberAccess x receiver property)
  | call {x : Extent} {callee : Expr} {arguments : List Expr} :
      x.text.Within P → Within P callee → (∀ e ∈ arguments, Within P e) →
      Within P (.call x callee arguments)
  | string {x : Extent} {value : Text} :
      x.text.Within P → value.Within P → Within P (.string x value)
  | template {x : Extent} {raw : Text} {substitutions : List Expr} :
      x.text.Within P → raw.Within P → (∀ e ∈ substitutions, Within P e) →
      Within P (.template x raw substitutions)
  | number {x : Extent} {value : Number} : x.text.Within P → Within P (.number x value)
  | boolean {x : Extent} {value : Bool} : x.text.Within P → Within P (.boolean x value)
  | array {x : Extent} {elements : List Expr} :
      x.text.Within P → (∀ e ∈ elements, Within P e) → Within P (.array x elements)
  | object {x : Extent} {properties : List Entry} :
      x.text.Within P → (∀ p ∈ properties, p.key.Within P) →
      (∀ p ∈ properties, ∀ comment ∈ p.comments, comment.Within P) →
      (∀ p ∈ properties, Within P p.value) → Within P (.object x properties)
  | function {x : Extent} {parameters : List Text} {body : Expr} :
      x.text.Within P → (∀ p ∈ parameters, p.Within P) → Within P body →
      Within P (.function x parameters body)
  | parenthesized {x : Extent} {e : Expr} :
      x.text.Within P → Within P e → Within P (.parenthesized x e)
  | block {x : Extent} {statements : List Expr} :
      x.text.Within P → (∀ s ∈ statements, Within P s) → Within P (.block x statements)
  | returned {x : Extent} {result : Option Expr} :
      x.text.Within P → (∀ e ∈ result, Within P e) → Within P (.returned x result)
  | other {x : Extent} {kind : String} : x.text.Within P → Within P (.other x kind)

end Expr

/-- All texts in an entry pass a test on code points. -/
structure Property.Within (P : CodePoint → Prop) (p : Entry) : Prop where
  key : p.key.Within P
  comments : ∀ comment ∈ p.comments, comment.Within P
  value : p.value.Within P

/-- All texts in a call of a chain pass a test on code points. -/
structure Expr.Link.Within (P : CodePoint → Prop) (link : Link) : Prop where
  name : ∀ name ∈ link.name, name.Within P
  arguments : ∀ e ∈ link.arguments, e.Within P

namespace Expr.Within

variable {P : CodePoint → Prop} {e : Expr}

theorem text (h : e.Within P) : e.text.Within P := by
  cases h <;> assumption

theorem unwrap (h : e.Within P) : e.unwrap.Within P := by
  induction e using Expr.unwrap.induct with
  | case1 x e ih =>
    cases h with
    | parenthesized _ he => exact ih he
  | case2 e hne =>
    cases e with
    | parenthesized x e => exact absurd rfl (hne x e)
    | _ => exact h

theorem invokedName? (h : e.Within P) : ∀ name ∈ e.invokedName?, name.Within P := by
  intro name hname
  cases h <;> cases hname <;> assumption

theorem string? (h : e.Within P) : ∀ value ∈ e.string?, value.Within P := by
  intro value hvalue
  cases h <;> cases hvalue
  assumption

theorem elements? (h : e.Within P) : ∀ es ∈ e.elements?, ∀ e ∈ es, e.Within P := by
  intro es hes
  cases h <;> cases hes
  assumption

theorem properties? (h : e.Within P) : ∀ entries ∈ e.properties?, ∀ p ∈ entries, p.Within P := by
  intro entries hentries
  cases h <;> cases hentries
  next hkeys hcomments hvalues => exact fun p hp => ⟨hkeys p hp, hcomments p hp, hvalues p hp⟩

theorem literalText (h : e.Within P) : e.literalText.Within P := by
  cases h <;> assumption

theorem referencedName? (h : e.Within P) : ∀ name ∈ e.referencedName?, name.Within P := by
  intro name hname
  have hbare (t : Text) (ht : t.Within P) {q : CodePoint → Bool}
      (hname : name ∈ if (t.filter q).isEmpty then none else some (t.filter q)) :
      name.Within P := by
    split at hname
    · cases hname
    · cases hname
      exact ht.mono fun _ hc => List.mem_of_mem_filter hc
  unfold Expr.referencedName? at hname
  have hunwrap := h.unwrap
  generalize e.unwrap = bare at hunwrap hname
  have htext := hunwrap.text
  cases hunwrap with
  | identifier _ hidentifier => cases hname; exact hidentifier
  | memberAccess _ _ hproperty => cases hname; exact hproperty
  | string _ hvalue => cases hname; exact hvalue
  | _ => exact hbare _ htext hname

theorem chain (h : e.Within P) : ∀ link ∈ e.chain, link.Within P := by
  induction e using Expr.chain.induct with
  | case1 x e ih =>
    cases h with
    | parenthesized _ he => exact ih he
  | case2 x y receiver property arguments ih =>
    cases h with
    | call _ hcallee harguments =>
      cases hcallee with
      | memberAccess _ hreceiver hproperty =>
        rw [Expr.chain, List.forall_mem_cons]
        refine ⟨⟨fun name hname => ?_, harguments⟩, ih hreceiver⟩
        cases hname
        exact hproperty
  | case3 x callee arguments hne =>
    cases h with
    | call _ hcallee harguments =>
      rw [Expr.chain, List.forall_mem_singleton]
      · exact ⟨hcallee.invokedName?, harguments⟩
      · exact hne
  | case4 e hparenthesized hmember hcall =>
    intro link hlink
    rw [Expr.chain] at hlink
    · cases hlink
    all_goals assumption

/-- What a block returns is inside of one of its statements. -/
theorem firstReturned? {statements : List Expr} (h : ∀ s ∈ statements, s.Within P) :
    ∀ e ∈ Expr.firstReturned? statements, e.Within P := by
  induction statements with
  | nil =>
    intro e he
    cases he
  | cons s rest ih =>
    obtain ⟨hs, hrest⟩ := List.forall_mem_cons.mp h
    intro e he
    cases hs with
    | returned _ hresult =>
      obtain ⟨e₀, he₀, rfl⟩ := Option.map_eq_some_iff.mp he
      exact (hresult e₀ he₀).unwrap
    | _ => exact ih hrest e he

theorem result? (h : e.Within P) : ∀ r ∈ e.result?, r.Within P := by
  intro r hr
  have hunwrap := h.unwrap
  unfold Expr.result? at hr
  split at hr
  · next statements hblock =>
    rw [hblock] at hunwrap
    cases hunwrap with
    | block _ hstatements => exact firstReturned? hstatements r hr
  · cases hr
    exact hunwrap

end Expr.Within

theorem within_lastValue? {P : CodePoint → Prop} {entries : List Entry}
    (h : ∀ p ∈ entries, p.Within P) (key : Text) : ∀ e ∈ lastValue? entries key, e.Within P := by
  intro e he
  obtain ⟨p, hp, rfl⟩ := Option.map_eq_some_iff.mp he
  exact (h p (List.mem_reverse.mp (List.mem_of_find?_eq_some hp))).value

/-! ## Escape sequences -/

/-- An escape sequence stands for a single code point, or for code points that are written in it. -/
theorem Escape.within_decode {P : CodePoint → Prop} {sequence value : Text}
    (hsequence : sequence.Within P) (hsingle : ∀ c, value = [c] → P c)
    (h : decode sequence = .ok value) : value.Within P := by
  have hbody : Text.Within P (sequence.drop 1) := hsequence.mono fun _ hc => List.mem_of_mem_drop hc
  have hone (c : CodePoint) (hvalue : value = [c]) : value.Within P := by
    rw [hvalue]
    exact Text.within_singleton.mpr (hsingle c hvalue)
  have hnumeric (body : Text) (hbody : body.Within P) (h : numeric body = .ok value) :
      value.Within P := by
    unfold numeric at h
    split at h
    · cases h
      exact hbody
    · split_ifs at h
      · cases h
        exact hbody
      · exact hone _ (Except.ok.inj h).symm
      · cases h
        exact hbody
  unfold decode at h
  split at h
  · cases h
    exact Text.within_nil
  · next c rest hdrop =>
    rw [hdrop] at hbody
    split at h
    · exact hone _ (Except.ok.inj h).symm
    · split_ifs at h
      · exact hnumeric _ hbody h
      · cases h
        exact Text.within_nil
      · cases h
        exact hbody

/-! ## Trees -/

namespace Syntax

mutual

def Tree.nodes : Tree → List Tree
  | .node kind start stop named role children =>
    .node kind start stop named role children :: nodesOfAll children

def nodesOfAll : List Tree → List Tree
  | [] => []
  | t :: rest => t.nodes ++ nodesOfAll rest

end

theorem mem_nodesOfAll {ts : List Tree} {t u : Tree} (ht : t ∈ ts) (hu : u ∈ t.nodes) :
    u ∈ nodesOfAll ts := by
  induction ts with
  | nil => cases ht
  | cons s rest ih =>
    rw [nodesOfAll]
    rcases List.mem_cons.mp ht with rfl | ht
    · exact List.mem_append_left _ hu
    · exact List.mem_append_right _ (ih ht)

theorem Tree.self_mem_nodes (t : Tree) : t ∈ t.nodes := by
  cases t
  exact List.mem_cons_self

theorem Tree.nodes_subset_of_mem_children {t u : Tree} (h : u ∈ t.children) :
    u.nodes ⊆ t.nodes := by
  intro v hv
  cases t
  exact List.mem_cons_of_mem _ (mem_nodesOfAll h hv)

variable {P : CodePoint → Prop} (hP : HoldsOfScalars P) (source : Bytes)

include hP

/-- The source text of a node holds scalar values only. -/
theorem Tree.within_text (t : Tree) : (t.text source).Within P :=
  Utf8.within_decodeLossy hP _

theorem within_leadingComments (before : List Tree) :
    ∀ comment ∈ leadingComments source before, comment.Within P := by
  intro comment hcomment
  obtain ⟨t, -, rfl⟩ := List.mem_map.mp (List.mem_reverse.mp hcomment)
  exact Tree.within_text hP source t

end Syntax

namespace Expr

open Syntax (Tree Kind)

/-- The code point that a node stands for if it is an escape sequence for a single one. -/
def spelled? (source : Bytes) (t : Tree) : Option CodePoint :=
  match t.kind, Escape.decode (t.text source) with
  | .escapeSequence, .ok [c] => some c
  | _, _ => none

/-- The code points that escape sequences stand for, each for one alone, in the string literals
below a node. -/
def spelled (source : Bytes) (t : Tree) : List CodePoint :=
  (t.nodes.filter (·.kind == .string)).flatMap fun literal =>
    literal.namedChildren.filterMap (spelled? source)

variable {P : CodePoint → Prop} {source : Bytes} {t u : Tree}

theorem spelled_of_child (h : ∀ c ∈ spelled source t, P c) (hu : u ∈ t.children) :
    ∀ c ∈ spelled source u, P c := by
  intro c hc
  obtain ⟨literal, hliteral, hc⟩ := List.mem_flatMap.mp hc
  obtain ⟨hnode, hkind⟩ := List.mem_filter.mp hliteral
  have hnode := Tree.nodes_subset_of_mem_children hu hnode
  exact h c (List.mem_flatMap.mpr ⟨literal, List.mem_filter.mpr ⟨hnode, hkind⟩, hc⟩)

theorem spelled_of_below (h : ∀ c ∈ spelled source t, P c) (hu : u.Below t) :
    ∀ c ∈ spelled source u, P c := by
  induction hu with
  | refl => exact h
  | child _ hmem ih => exact ih (spelled_of_child h hmem)

theorem spelled_of_string (h : ∀ c ∈ spelled source t, P c) (hkind : t.kind = .string)
    (hu : u ∈ t.namedChildren) : ∀ c ∈ spelled? source u, P c := by
  intro c hc
  have hliteral : t ∈ t.nodes.filter (·.kind == .string) :=
    List.mem_filter.mpr ⟨t.self_mem_nodes, by simp [hkind]⟩
  exact h c (List.mem_flatMap.mpr ⟨t, hliteral, List.mem_filterMap.mpr ⟨u, hu, hc⟩⟩)

section Reading

variable (hP : HoldsOfScalars P)

include hP

theorem within_parametersOf : ∀ p ∈ parametersOf source t, p.Within P := by
  intro p hp
  unfold parametersOf at hp
  split at hp
  · rw [List.mem_singleton.mp hp]
    exact Tree.within_text hP source _
  · obtain ⟨u, -, rfl⟩ := List.mem_map.mp hp
    exact Tree.within_text hP source _
  · cases hp

/-- A part of a string is a run of its source or what its escape sequence stands for. -/
theorem within_stringPart (hspelled : ∀ c ∈ spelled? source t, P c) {value : Text}
    (h : stringPart source t = .ok value) : value.Within P := by
  unfold stringPart at h
  split at h
  · cases h
    exact t.within_text hP source
  · next hkind =>
    split at h
    · next hdecode =>
      cases h
      refine Escape.within_decode (t.within_text hP source) (fun c hc => hspelled c ?_) hdecode
      simp [spelled?, hkind, hdecode, hc]
    · cases h
  · cases h
    exact Text.within_nil

variable (hspelled : ∀ c ∈ spelled source t, P c)

include hspelled

theorem within_stringValue (hkind : t.kind = .string) {value : Text}
    (h : stringValue source t = .ok value) : value.Within P := by
  unfold stringValue at h
  split at h
  · cases h
    exact (t.within_text hP source).inner
  · obtain ⟨parts, hparts, rfl⟩ := Except.map_eq_ok.mp h
    refine Text.within_flatten fun part hpart => ?_
    obtain ⟨u, hu, hread⟩ := exists_left_of_forall₂ (Except.mapM_eq_ok.mp hparts) hpart
    exact within_stringPart hP (spelled_of_string hspelled hkind hu) hread

theorem within_keyOf {key : Text} (h : keyOf source t = .ok key) : key.Within P := by
  unfold keyOf at h
  split at h
  · next hkind => exact within_stringValue hP hspelled hkind h
  · cases h
    exact t.within_text hP source

variable {read : Tree → Except Obstacle Expr}
  (hread : ∀ u, (∀ c ∈ spelled source u, P c) → ∀ e, read u = .ok e → e.Within P)

include hread

theorem within_entryOf {before : List Tree} {entry : Entry}
    (h : entryOf source read before t = .ok (some entry)) : entry.Within P := by
  have hcomments := Syntax.within_leadingComments hP source before
  unfold entryOf at h
  split at h
  · split at h
    · next key value hkey hvalue =>
      obtain ⟨name, hname, h⟩ := Except.bind_eq_ok.mp h
      obtain ⟨e, he, h⟩ := Except.bind_eq_ok.mp h
      cases h
      exact ⟨within_keyOf hP (spelled_of_child hspelled (Tree.mem_of_child? hkey)) hname, hcomments,
        hread value (spelled_of_child hspelled (Tree.mem_of_child? hvalue)) e he⟩
    · cases h
  · cases h
    have htext := t.within_text hP source
    exact ⟨htext, hcomments, .identifier htext htext⟩
  · cases h

theorem within_entriesOf {entries : List Entry} (h : entriesOf source read t = .ok entries) :
    ∀ p ∈ entries, p.Within P := by
  intro p hp
  obtain ⟨found, hfound, rfl⟩ := Except.map_eq_ok.mp h
  obtain ⟨_, hmem, rfl⟩ := List.mem_filterMap.mp hp
  obtain ⟨placed, hplaced, hentry⟩ := exists_left_of_forall₂ (Except.mapM_eq_ok.mp hfound) hmem
  have hmem := Tree.mem_of_namedChildren (Tree.mem_namedChildren_of_placed hplaced)
  exact within_entryOf hP (spelled_of_child hspelled hmem) hread hentry

end Reading

section Productions

variable {read : Kind → Tree → Except Obstacle Expr} {e : Expr}
  (hspelled : ∀ c ∈ spelled source t, P c)
  (hread : ∀ holder u e, (∀ c ∈ spelled source u, P c) → read holder u = .ok e → e.Within P)

include hspelled hread

theorem within_read_of_below {holder : Kind} (hu : u.Below t) (h : read holder u = .ok e) :
    e.Within P :=
  hread holder u e (spelled_of_below hspelled hu) h

theorem within_ofPart {part : Option Tree} {missing : Expr} {build : Expr → Expr}
    (hpart : ∀ u, part = some u → u ∈ t.children) (hmissing : missing.Within P)
    (hbuild : ∀ e : Expr, e.Within P → (build e).Within P)
    (h : ofPart read t part missing build = .ok e) : e.Within P := by
  obtain ⟨-, rfl⟩ | ⟨u, f, hu, hf, rfl⟩ := ofPart_eq_ok h
  · exact hmissing
  · exact hbuild f (within_read_of_below hspelled hread (.of_mem (hpart u hu)) hf)

theorem within_ofMember (hP : HoldsOfScalars P) (h : ofMember source read t = .ok e) :
    e.Within P := by
  have htext := t.within_text hP source
  obtain rfl | ⟨receiver, property, f, hreceiver, hf, rfl⟩ := ofMember_eq_ok h
  · exact .other htext
  · have hmem := Tree.mem_of_child? hreceiver
    exact .memberAccess htext (within_read_of_below hspelled hread (.of_mem hmem) hf)
      (property.within_text hP source)

/-- A call has its texts from its callee and its arguments. -/
theorem within_ofCall (hP : HoldsOfScalars P) (h : ofCall source read t = .ok e) :
    e.Within P := by
  have htext := t.within_text hP source
  obtain rfl | ⟨callee, f, arguments, hcallee, hf, harguments, rfl⟩ := ofCall_eq_ok h
  · exact .other htext
  · have hmem := Tree.mem_of_child? hcallee
    refine .call htext (within_read_of_below hspelled hread (.of_mem hmem) hf) fun e he => ?_
    obtain ⟨holder, u, hu, h⟩ := argumentsOf_eq_ok harguments e he
    exact within_read_of_below hspelled hread hu h

theorem within_substitutionsOf {es : List Expr} (h : substitutionsOf read t = .ok es) :
    ∀ e ∈ es, e.Within P := by
  intro e he
  obtain ⟨u, hu, h⟩ := substitutionsOf_eq_ok h e he
  exact within_read_of_below hspelled hread hu h

theorem within_expressions {es : List Expr} (h : t.expressions.mapM (read t.kind) = .ok es) :
    ∀ e ∈ es, e.Within P := by
  intro e he
  obtain ⟨u, hu, h⟩ := expressions_eq_ok h e he
  exact within_read_of_below hspelled hread hu h

/-- The expression that a node is read as is within bounds if those of its parts are. -/
theorem within_ofNode (hP : HoldsOfScalars P) (h : ofNode source read t = .ok e) : e.Within P := by
  have htext : (extentOf source t).text.Within P := t.within_text hP source
  have hopaque : (opaqueNode source t).Within P := .other htext
  unfold ofNode at h
  cases hkind : t.kind <;> simp only [hkind] at h
  case identifier => exact Except.ok.inj h ▸ .identifier htext htext
  case memberExpression => exact within_ofMember hspelled hread hP h
  case callExpression => exact within_ofCall hspelled hread hP h
  case string =>
    obtain ⟨value, hvalue, rfl⟩ := Except.map_eq_ok.mp h
    exact .string htext (within_stringValue hP hspelled hkind hvalue)
  case templateString =>
    obtain ⟨es, hes, rfl⟩ := Except.map_eq_ok.mp h
    have hwithin := within_substitutionsOf hspelled hread hes
    cases es with
    | nil => exact .string htext htext.inner
    | cons e rest => exact .template htext htext.inner hwithin
  case number =>
    rw [← Except.ok.inj h, numberOf]
    split
    · exact .number htext
    · exact hopaque
  case true | false => exact Except.ok.inj h ▸ .boolean htext
  case array =>
    obtain ⟨es, hes, rfl⟩ := Except.map_eq_ok.mp h
    exact .array htext (within_expressions hspelled hread (hkind ▸ hes))
  case statementBlock =>
    obtain ⟨es, hes, rfl⟩ := Except.map_eq_ok.mp h
    exact .block htext (within_expressions hspelled hread (hkind ▸ hes))
  case object =>
    obtain ⟨entries, hentries, rfl⟩ := Except.map_eq_ok.mp h
    have hwithin := within_entriesOf hP hspelled (fun u hu e => hread _ u e hu) hentries
    exact .object htext (fun p hp => (hwithin p hp).key) (fun p hp => (hwithin p hp).comments)
      fun p hp => (hwithin p hp).value
  case arrowFunction | functionExpression | function =>
    exact within_ofPart hspelled hread (fun _ => Tree.mem_of_child?) hopaque
      (fun _ he => .function htext (within_parametersOf hP) he) h
  case parenthesizedExpression =>
    exact within_ofPart hspelled hread (fun _ => Tree.mem_of_expression?) hopaque
      (fun _ he => .parenthesized htext he) h
  case returnStatement =>
    have hnone : (returned (extentOf source t) none).Within P :=
      .returned htext fun _ he => by cases he
    refine within_ofPart hspelled hread (fun _ => Tree.mem_of_expression?) hnone (fun e he => ?_) h
    exact .returned htext fun _ he' => Option.some.inj he' ▸ he
  case asExpression | satisfiesExpression | nonNullExpression =>
    exact within_ofPart hspelled hread (fun _ => Tree.mem_of_expression?) hopaque
      (fun _ he => he) h
  all_goals exact Except.ok.inj h ▸ hopaque

end Productions

/-- An expression holds the code points that escape sequences of its tree stand for, and scalar
values. -/
theorem within_ofTree (hP : HoldsOfScalars P) {stack : Stack} {e : Expr}
    (hspelled : ∀ c ∈ spelled source t, P c) (h : ofTree source stack t = .ok e) : e.Within P :=
  ofTree_induction
    (motive := fun t x => ∀ e, (∀ c ∈ spelled source t, P c) → x = .ok e → e.Within P)
    (fun _ _ _ h => by cases h) (fun _ _ hread _ hspelled h => within_ofNode hspelled hread hP h)
    stack t e hspelled h

end Expr
end SchemaAtlas
