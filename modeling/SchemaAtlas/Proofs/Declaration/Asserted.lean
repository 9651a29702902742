import SchemaAtlas.Declaration.Basic
import SchemaAtlas.Proofs.Declaration.Depth
import SchemaAtlas.Proofs.Expr.Asserted

/-!
# Declarations with type assertions

Assertions in the initial values of declarations change nothing of what is declared, and nothing of
what is reported, as long as no declaration is dropped for its depth.
-/

namespace SchemaAtlas

open Syntax (Tree)
open Syntax.Tree (Asserted SameSpan isOperandIn)

open Trace (Deepens)

namespace Declaration

variable {source : Bytes} {stack stack' : Stack} {t t' : Tree} {before before' : List Tree}

/-- A declarator is read as deep without the assertions in its value. -/
theorem deepens_ofDeclarator (hle : stack' ≤ stack) (h : Asserted false t t')
    (hkind : t.kind = .variableDeclarator) (hbefore : List.Forall₂ SameSpan before before')
    (exported : Bool) (comments : List Text) :
    Deepens (ofDeclarator source stack exported comments before t)
      (ofDeclarator source stack' exported comments before' t') := by
  have hname := Expr.child?_asserted h .name fun c hc => by simp [isOperandIn, hkind, hc]
  have hvalue := h.child? .value
  unfold ofDeclarator
  rw [h.sameSpan.line, Syntax.Tree.leadingComments_of_sameSpan hbefore]
  generalize t.child? .name = name, t'.child? .name = name' at hname
  generalize t.child? .value = value, t'.child? .value = value' at hvalue
  cases hname with
  | none => exact .refl _
  | some hname =>
    simp only [hname.2.sameSpan.kind, hname.2.sameSpan.text]
    split
    · exact .refl _
    · have hread : Expr.Deepens (value.mapM (Expr.ofTree source stack))
          (value'.mapM (Expr.ofTree source stack')) := by
        cases hvalue with
        | none => exact .refl _
        | some hvalue => exact (Expr.deepens_of_asserted hle hvalue.2).map some
      rcases hread with hdeep | hsame
      · rw [hdeep]
        cases value.mapM (Expr.ofTree source stack) with
        | ok initializer => exact .inr ⟨Nat.zero_lt_one, fun _ => returns_ok none⟩
        | error obstacle =>
          cases obstacle with
          | nestedTooDeeply => exact .refl _
          | codePointBeyondWord => exact .inr ⟨Nat.zero_lt_one, fun _ => returns_ok none⟩
      · rw [hsame]
        exact .refl _

/-- Declarators stand outside of all expressions, so assertions leave their list alone. -/
theorem deepens_ofStatement (hle : stack' ≤ stack) (h : Asserted false t t')
    (hkind : isDeclarationNode t = true) (hbefore : List.Forall₂ SameSpan before before')
    (exported : Bool) :
    Deepens (ofStatement source stack exported before t)
      (ofStatement source stack' exported before' t') := by
  have hnot (c : Tree) : isOperandIn t.kind t.role c = false := by
    rw [isDeclarationNode, Bool.or_eq_true, beq_iff_eq, beq_iff_eq] at hkind
    rcases hkind with hkind | hkind <;> simp [isOperandIn, hkind]
  have hdeclarators := forall₂_filter
    (q := fun p => p.2.named && p.2.kind == .variableDeclarator) (h.placedChildren hnot)
    fun p p' hp => by rw [hp.2.named_eq, hp.2.sameSpan.kind]
  unfold ofStatement
  rw [Syntax.Tree.leadingComments_of_sameSpan hbefore]
  rw [← map_eq_pure_bind, ← map_eq_pure_bind]
  refine (Deepens.mapM (hdeclarators.imp fun p p' hp => ?_)).map _
  have hdeclarator := beq_iff_eq.mp (Bool.and_eq_true_iff.mp hp.1).2
  exact deepens_ofDeclarator hle hp.2.2 hdeclarator hp.2.1 exported _

theorem deepens_ofTopLevel (hle : stack' ≤ stack) (h : Asserted false t t')
    (hbefore : List.Forall₂ SameSpan before before') :
    Deepens (ofTopLevel source stack before t) (ofTopLevel source stack' before' t') := by
  have hdeclaration {u u' : Tree} (hu : Asserted false u u') :
      isDeclarationNode u' = isDeclarationNode u := by
    rw [isDeclarationNode, hu.sameSpan.kind, isDeclarationNode]
  unfold ofTopLevel
  rw [hdeclaration h, h.sameSpan.kind]
  split
  next hexport =>
    have hchildren : List.Forall₂ (Asserted false) t.namedChildren t'.namedChildren :=
      h.namedChildren.imp fun c c' hc => by simpa [isOperandIn, beq_iff_eq.mp hexport] using hc
    have hnodes := forall₂_filter (q := isDeclarationNode) hchildren fun c c' hc =>
      (hdeclaration hc).symm
    refine (Deepens.mapM (hnodes.imp fun c c' hc => ?_)).map _
    exact deepens_ofStatement hle hc.2 hc.1 hbefore true
  next =>
    split
    next hstatement => exact deepens_ofStatement hle h hstatement hbefore false
    next => exact .refl _

end Declaration

section Statements

variable {source : Bytes} {stack stack' : Stack} {root root' : Tree}

/-- A document is read as deep if its top-level statements are. -/
theorem Document.deepens_of_statements
    (h : List.Forall₂ (fun p p' => Deepens (Declaration.ofTopLevel source stack p.1 p.2)
        (Declaration.ofTopLevel source stack' p'.1 p'.2))
      (root.placedChildren.filter (·.2.named)) (root'.placedChildren.filter (·.2.named)))
    (hasErrors : Bool) :
    Deepens (ofTree source stack root hasErrors) (ofTree source stack' root' hasErrors) := by
  unfold ofTree
  rw [← map_eq_pure_bind, ← map_eq_pure_bind]
  exact (Deepens.mapM h).map _

theorem Document.deepens_ofTree (hle : stack' ≤ stack) (h : Asserted false root root')
    (hroot : ∀ c, isOperandIn root.kind root.role c = false) (hasErrors : Bool) :
    Deepens (ofTree source stack root hasErrors) (ofTree source stack' root' hasErrors) := by
  have hstatements := forall₂_filter (q := fun p => p.2.named) (h.placedChildren hroot)
    fun p p' hp => hp.2.named_eq.symm
  refine deepens_of_statements (hstatements.imp fun p p' hp => ?_) hasErrors
  exact Declaration.deepens_ofTopLevel hle hp.2.2 hp.2.1

end Statements

/-- Type assertions are invisible: a document with assertions around any of its expressions, at
whatever depth, gives the declarations and reports that it gives without them, as long as none of
its declarations is dropped for its depth. The root of a document holds statements only. -/
theorem Document.ofTree_of_asserted {source : Bytes} {root root' : Tree}
    (h : Asserted false root root') (hroot : ∀ c, isOperandIn root.kind root.role c = false)
    (stack : Stack) (hasErrors : Bool)
    (hdeep : ∀ name line,
      Event.declarationTooDeep name line ∉ (ofTree source stack root' hasErrors).events) :
    ofTree source stack root hasErrors = ofTree source stack root' hasErrors := by
  have hdeepens : Deepens (ofTree source stack root hasErrors)
      (ofTree source stack root' hasErrors) :=
    deepens_ofTree (Stack.le_refl stack) h hroot hasErrors
  have hkept := Trace.drops_eq_zero hdeep
  refine hdeepens.eq_of_drops_eq ?_
  rw [hkept]
  exact Nat.le_zero.mp (hkept ▸ hdeepens.drops_le)

namespace AssertedCall

def source : Bytes := Utf8.encodePoints "let x=f(a!)as T"

def token (label : String) (start stop : Nat) : Tree :=
  .node (.other label) start stop false none []

def name (start stop : Nat) (role : Option Syntax.Role) : Tree :=
  .node .identifier start stop true role []

def call (role : Option Syntax.Role) (argument : Tree) : Tree :=
  .node .callExpression 6 11 true role [name 6 7 (some .function),
    .node .arguments 7 11 true (some .arguments) [token "(" 7 8, argument, token ")" 10 11]]

def root (value : Tree) : Tree :=
  .node .program 0 15 true none [.node .lexicalDeclaration 0 15 true none
    [token "let" 0 3, .node .variableDeclarator 4 15 true none
      [name 4 5 (some .name), token "=" 5 6, value]]]

def plain : Tree := root (call (some .value) (name 8 9 none))

def assertedValue : Tree :=
  .node .asExpression 6 15 true (some .value)
    [call none (.node .nonNullExpression 8 10 true none [name 8 9 none, token "!" 9 10]),
      token "as" 11 13, .node (.other "type_identifier") 14 15 true none []]

def asserted : Tree := root assertedValue

theorem asserted_plain : Asserted false plain asserted := by
  have hargument : Asserted true (name 8 9 none)
      (.node .nonNullExpression 8 10 true none [name 8 9 none, token "!" 9 10]) :=
    .leading rfl (by decide) (.refl _ _) rfl
  have hcall : Asserted true (call (some .value) (name 8 9 none)) (call (some .value)
      (.node .nonNullExpression 8 10 true none [name 8 9 none, token "!" 9 10])) :=
    .node (.cons (.refl _ _) (.cons (.node (.cons (.refl _ _) (.cons hargument
      (.cons (.refl _ _) .nil)))) .nil))
  have hvalue : Asserted true (call (some .value) (name 8 9 none)) assertedValue :=
    .leading rfl (by decide) hcall rfl
  exact .node (.cons (.node (.cons (.refl _ _) (.cons (.node (.cons (.refl _ _)
    (.cons (.refl _ _) (.cons hvalue .nil)))) .nil))) .nil)

end AssertedCall

open AssertedCall in
theorem Document.ofTree_asserted :
    ofTree source (.levels 4) plain false = ofTree source (.levels 4) asserted false ∧
    (ofTree source (.levels 4) asserted false).events = [] ∧
    (ofTree source (.levels 4) asserted false).outcome.toOption.map (fun document =>
      document.declarations.map fun d => (d.name, d.initializer.map (·.form))) =
        some [(("x" : Text), some "Call")] := by
  have hnone : (ofTree source (.levels 4) asserted false).events = [] := by decide +kernel
  have hdeep (name : Text) (line : Nat) :
      Event.declarationTooDeep name line ∉ (ofTree source (.levels 4) asserted false).events :=
    hnone ▸ List.not_mem_nil
  exact ⟨ofTree_of_asserted asserted_plain (fun _ => Bool.and_false _) _ false hdeep, hnone,
    by decide +kernel⟩

end SchemaAtlas
