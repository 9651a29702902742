import SchemaAtlas.Proofs.Expr.Rewritten
import SchemaAtlas.Relation.OfDeclaration

/-!
# Relations that are rewritten inside

All that a relation is read from is read without its parentheses, so a rewriting that such readers do
not notice leaves it as it is.
-/

namespace SchemaAtlas

open SchemaAtlas.Expr (Faithful SameNode)

section Relation

variable {R : Expr → Expr → Prop} {Q : List Entry → List Entry → Prop} (hR : Faithful R Q)
variable {e e' : Expr}

theorem Expr.SameNode.tableName?_eq (h : SameNode R Q e e') :
    Relation.tableName? e' = Relation.tableName? e := by
  cases h <;> rfl

include hR

namespace Expr.Faithful

/-- Related expressions name the same table. -/
theorem relatedTable?_eq (h : R e e') : Relation.target? e' = Relation.target? e := by
  have hnode := hR.node h
  unfold Relation.target?
  generalize e.unwrap = u, e'.unwrap = u' at hnode
  cases hnode with
  | function x parameters hbody =>
    cases parameters with
    | nil => exact bind_eq_of_rel (hR.result? hbody) fun _ _ => SameNode.tableName?_eq
    | cons parameter others => rfl
  | _ => rfl

theorem names_eq {es es' : List Expr} (h : List.Forall₂ R es es') :
    Relation.names es' = Relation.names es := by
  rw [Relation.names, Relation.names, filterMap_eq_of_forall₂ h fun _ _ => hR.referencedName?_eq]

theorem setting? {config config' : List Entry} (h : Q config config') (key : Text) :
    Option.Rel (SameNode R Q) (Relation.setting? config key) (Relation.setting? config' key) :=
  rel_map_of_rel (hR.last h key) fun _ _ => hR.node

/-- Related configurations say the same. -/
theorem withConfig_eq {config config' : List Entry} (h : Q config config') (r : Relation) :
    r.withConfig config' = r.withConfig config := by
  have hnames (key : Text) :
      ((Relation.setting? config' key).bind Expr.elements?).map Relation.names =
        ((Relation.setting? config key).bind Expr.elements?).map Relation.names :=
    map_eq_of_rel (rel_bind_of_rel (hR.setting? h key) fun _ _ hnode => hnode.elements?)
      fun _ _ => hR.names_eq
  have hlabel : (Relation.setting? config' "relationName").bind Expr.string? =
      (Relation.setting? config "relationName").bind Expr.string? :=
    bind_eq_of_rel (hR.setting? h _) fun _ _ hnode => hnode.string?_eq
  rw [Relation.withConfig, Relation.withConfig, hnames, hnames, hlabel]

theorem config? {arguments arguments' : List Expr} (h : List.Forall₂ R arguments arguments') :
    Option.Rel Q (Relation.config? arguments) (Relation.config? arguments') := by
  match h with
  | .nil => exact .none
  | .cons _ .nil => exact .none
  | .cons _ (.cons hconfig _) => exact (hR.node hconfig).properties?

/-- A relation stays as it is. Only the report of an unknown target quotes its parentheses. -/
theorem relation_eq (rules : HeuristicRules) {entry : Entry} (h : R entry.value e') :
    (Relation.ofEntry rules { entry with value := e' }).toOption =
      (Relation.ofEntry rules entry).toOption := by
  have hnode := hR.node h
  unfold Relation.ofEntry
  dsimp only
  generalize entry.value.unwrap = u, e'.unwrap = u' at hnode
  cases hnode with
  | call x hcallee hform harguments =>
    rcases hR.node_of_form_eq hcallee hform with ⟨_, _, _, _, rfl, rfl⟩ | hcallee
    · rfl
    cases hcallee with
    | identifier y helper =>
      dsimp only
      cases Cardinality.ofHelper? helper with
      | none => rfl
      | some tentative =>
        have hconfig := hR.config? harguments
        cases harguments with
        | nil => rfl
        | @cons first first' rest rest' hfirst _ =>
          simp only [hR.relatedTable?_eq hfirst]
          cases Relation.target? first with
          | none => rfl
          | some table =>
            generalize Relation.config? (first :: rest) = config,
              Relation.config? (first' :: rest') = config' at hconfig
            cases hconfig with
            | none => rfl
            | some hconfig => simp only [hR.withConfig_eq hconfig]
    | _ => rfl
  | _ => rfl

end Expr.Faithful

end Relation

end SchemaAtlas
