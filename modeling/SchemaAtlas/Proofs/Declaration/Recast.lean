import SchemaAtlas.Proofs.Batch.Parsed
import SchemaAtlas.Proofs.Expr.Recast

/-!
# Declarations in another place

The readers of columns, indexes, constraints and relations look at texts, never at lines, and at no
comment but that of a column's entry and those of a table declaration. So a table has the same entity
wherever it stands, and with other comments if comments are not asked for.
-/

namespace SchemaAtlas

open SchemaAtlas.Expr (Link)

variable (r : Recasting)

@[simp] theorem ReferentialAction.ofExpr?_recast (e : Expr) :
    ofExpr? (e.recast r) = ofExpr? e := by
  simp [ofExpr?]

namespace ColumnReference

@[simp] theorem ofTarget?_recast (e : Expr) : ofTarget? (e.recast r) = ofTarget? e := by
  unfold ofTarget?
  rw [Expr.unwrap_recast]
  cases e.unwrap with
  | function x parameters body =>
    cases parameters with
    | nil =>
      simp only [Expr.recast, Expr.unwrap_recast]
      cases body.unwrap with
      | memberAccess y receiver property =>
        simp only [Expr.recast, Expr.unwrap_recast]
        cases receiver.unwrap <;> rfl
      | _ => rfl
    | cons parameter others => rfl
  | _ => rfl

@[simp] theorem withActions_recast (reference : ColumnReference) (actions : List Entry) :
    reference.withActions (actions.map (Property.recast r)) = reference.withActions actions := by
  simp only [withActions, lastValue?_recast, Option.bind_map, Function.comp_def,
    ReferentialAction.ofExpr?_recast]

theorem ofArguments?_recast (arguments : List Expr) :
    ofArguments? (arguments.map (Expr.recast r)) = ofArguments? arguments := by
  match arguments with
  | [] => rfl
  | [target] => simp [ofArguments?]
  | target :: actions :: rest =>
    simp only [List.map_cons, ofArguments?, ofTarget?_recast, Expr.unwrap_recast,
      Expr.properties?_recast]
    cases ofTarget? target <;> cases actions.unwrap.properties? <;> simp

end ColumnReference

@[simp] theorem defaultText?_recast (e : Expr) :
    defaultText? (e.recast r) = defaultText? e := by
  unfold defaultText?
  rw [Expr.unwrap_recast]
  have hliteral := Expr.literalText_recast r e.unwrap
  generalize e.unwrap = u at hliteral
  cases u with
  | number x value => rfl
  | boolean x value => exact congrArg some (r.text_eq x)
  | _ => exact congrArg some hliteral

namespace Column

theorem applyOption_recast (column : Column) (entry : Entry) :
    applyOption column (entry.recast r) = applyOption column entry := by
  simp only [applyOption, Property.recast, Expr.unwrap_recast, Expr.number?_recast,
    Expr.elements?_recast]
  cases entry.value.unwrap.elements? with
  | none => rfl
  | some elements => simp [List.filterMap_map]

theorem options?_recast (arguments : List Expr) :
    options? (arguments.map (Expr.recast r)) =
      (options? arguments).map (List.map (Property.recast r)) := by
  match arguments with
  | [] => rfl
  | [e] => cases e <;> simp [options?, Expr.recast]
  | e :: e' :: rest => cases e' <;> cases e <;> simp [options?, Expr.recast]

theorem applyType_recast (column : Column) (call : Link) :
    applyType column (call.recast r) = applyType column call := by
  have hoptions (entries : List Entry) (column : Column) :
      (entries.map (Property.recast r)).foldl applyOption column =
        entries.foldl applyOption column := by
    rw [List.foldl_map]
    simp only [applyOption_recast]
  rw [applyType, applyType, Link.recast, options?_recast]
  cases options? call.arguments with
  | none => rfl
  | some entries => exact hoptions entries _

theorem applyModifier_recast (column : Column) (call : Link) :
    applyModifier column (call.recast r) = applyModifier column call := by
  simp only [applyModifier, Link.recast, ColumnReference.ofArguments?_recast]
  cases call.arguments <;> simp

theorem ofChain_recast (name : Text) (modifiers : List Link) (type : Link) :
    ofChain name (modifiers.map (Link.recast r)) (type.recast r) =
      ofChain name modifiers type := by
  rw [ofChain, applyType_recast, List.foldlM_map, ofChain]
  simp only [applyModifier_recast]

variable {r} {includeComments : Bool} (hcomments : r.Keeps includeComments)
include hcomments

/-- A column does not depend on lines and comments inside of its value. -/
theorem ofEntry_recast (enums : Enums) (entry : Entry) :
    ofEntry includeComments enums (entry.recast r) = ofEntry includeComments enums entry := by
  -- the comments of the entry are the only ones that a column shows
  have hsame (column : Column) :
      (if includeComments then
        { column with comments := Comment.documentation? [r.comments entry.comments] }
        else column) =
      if includeComments then
        { column with comments := Comment.documentation? [entry.comments] } else column := by
    cases includeComments with
    | false => rfl
    | true => rw [hcomments rfl]
  simp only [ofEntry, Property.recast, Expr.unwrap_recast, Expr.chain_recast,
    List.getLast?_map, ← List.map_dropLast, Expr.form_recast, hsame]
  cases entry.value.unwrap.chain.getLast? with
  | none => rfl
  | some type => simp only [Option.map_some, ofChain_recast]

theorem outcome_ofEntries_recast (enums : Enums) (entries : List Entry) :
    (ofEntries includeComments enums (entries.map (Property.recast r))).outcome =
      (ofEntries includeComments enums entries).outcome := by
  refine outcome_ofEntries_congr (List.forall₂_map_right_iff.mpr (List.forall₂_same.mpr ?_))
  exact fun entry _ => ofEntry_recast hcomments enums entry

end Column

namespace Extra

@[simp] theorem columnName?_recast (e : Expr) : columnName? (e.recast r) = columnName? e := by
  simp [columnName?]

@[simp] theorem columnNames_recast (es : List Expr) :
    columnNames (es.map (Expr.recast r)) = columnNames es := by
  simp [columnNames, List.filterMap_map]

@[simp] theorem stringArgument?_recast (es : List Expr) :
    stringArgument? (es.map (Expr.recast r)) = stringArgument? es := by
  cases es with
  | nil => rfl
  | cons e rest => cases e <;> rfl

theorem substitutions_recast (e : Expr) :
    substitutions (e.recast r) = (substitutions e).map (Expr.recast r) := by
  unfold substitutions
  rw [Expr.unwrap_recast]
  cases e.unwrap with
  | call x callee arguments =>
    match arguments with
    | [] => rfl
    | [argument] => cases argument <;> simp [Expr.recast]
    | first :: second :: rest => simp [Expr.recast]
  | template x raw substitutions => simp [Expr.recast]
  | _ => rfl

@[simp] theorem sqlText_recast (e : Expr) : sqlText (e.recast r) = sqlText e := by
  unfold sqlText
  rw [Expr.unwrap_recast]
  have htext := Expr.text_recast r e.unwrap
  generalize e.unwrap = u at htext
  cases u with
  | call x callee arguments =>
    match arguments with
    | [] => exact htext
    | [argument] =>
      cases argument with
      | string y value => rfl
      | template y raw substitutions => rfl
      | _ => exact htext
    | first :: second :: rest => simpa [Expr.recast] using htext
  | template x raw substitutions => rfl
  | _ => exact htext

theorem modifier?_recast (modifiers : List Link) (name : Text) :
    modifier? (modifiers.map (Link.recast r)) name =
      (modifier? modifiers name).map (List.map (Expr.recast r)) := by
  have hname : ((fun link : Link => decide (link.name = some name)) ∘ Link.recast r) =
      fun link => decide (link.name = some name) := rfl
  rw [modifier?, ← List.map_reverse, List.find?_map, hname, modifier?, Option.map_map,
    Option.map_map]
  rfl

theorem modifierArgument?_recast (modifiers : List Link) (name : Text) :
    modifierArgument? (modifiers.map (Link.recast r)) name =
      (modifierArgument? modifiers name).map (Expr.recast r) := by
  rw [modifierArgument?, modifier?_recast, modifierArgument?]
  cases modifier? modifiers name <;> simp

theorem indexTarget?_recast (modifiers : List Link) :
    indexTarget? (modifiers.map (Link.recast r)) = indexTarget? modifiers := by
  unfold indexTarget?
  rw [modifier?_recast, modifier?_recast]
  cases modifier? modifiers "on" with
  | some columns => simp
  | none =>
    cases modifier? modifiers "using" with
    | none => rfl
    | some arguments =>
      simp only [Option.map_none, Option.map_some, ← List.map_drop, columnNames_recast,
        stringArgument?_recast]

theorem ofIndex_recast (table : Text) (key : Option Text) (base : List Expr)
    (modifiers : List Link) (unique : Bool) :
    ofIndex table key (base.map (Expr.recast r)) (modifiers.map (Link.recast r)) unique =
      ofIndex table key base modifiers unique := by
  simp [ofIndex, indexTarget?_recast, modifierArgument?_recast, Function.comp_def]

theorem ofCheck_recast (key : Option Text) (arguments : List Expr) :
    ofCheck key (arguments.map (Expr.recast r)) = ofCheck key arguments := by
  match arguments with
  | [] => rfl
  | [first] => rfl
  | first :: expression :: rest =>
    have hname := stringArgument?_recast r (first :: expression :: rest)
    simp only [List.map_cons] at hname
    simp only [List.map_cons, ofCheck, checkName?, hname, sqlText_recast,
      substitutions_recast, columnNames_recast]

@[simp] theorem tableOf?_recast (e : Expr) : tableOf? (e.recast r) = tableOf? e := by
  unfold tableOf?
  rw [Expr.unwrap_recast]
  cases e.unwrap with
  | memberAccess x receiver property =>
    simp only [Expr.recast, Expr.unwrap_recast]
    cases receiver.unwrap <;> rfl
  | _ => rfl

theorem ofForeignKey_recast (key : Option Text) (base : List Expr) (modifiers : List Link) :
    ofForeignKey key (base.map (Expr.recast r)) (modifiers.map (Link.recast r)) =
      ofForeignKey key base modifiers := by
  have hconfig : (base.map (Expr.recast r)).head?.bind (·.unwrap.properties?) =
      (base.head?.bind (·.unwrap.properties?)).map (List.map (Property.recast r)) := by
    cases base <;> simp
  have helements (config : List Entry) (name : Text) :
      (lastValue? (config.map (Property.recast r)) name).bind Expr.elements? =
        ((lastValue? config name).bind Expr.elements?).map (List.map (Expr.recast r)) := by
    rw [lastValue?_recast]
    cases lastValue? config name <;> simp
  simp only [ofForeignKey, hconfig]
  cases base.head?.bind (·.unwrap.properties?) with
  | none => rfl
  | some config =>
    simp only [Option.map_some, helements]
    cases (lastValue? config "columns").bind Expr.elements? with
    | none => rfl
    | some columns =>
      cases (lastValue? config "foreignColumns").bind Expr.elements? with
      | none => rfl
      | some foreign =>
        simp [modifierArgument?_recast, Option.bind_map, Function.comp_def, List.findSome?_map]

theorem ofEntry_recast (table : Text) (key : Option Text) (value : Expr) :
    ofEntry table key (value.recast r) = ofEntry table key value := by
  simp only [ofEntry, Expr.chain_recast, List.getLast?_map, ← List.map_dropLast]
  cases value.chain.getLast? with
  | none => rfl
  | some base =>
    simp only [Option.map_some, Link.recast, ofIndex_recast, ofCheck_recast,
      ofForeignKey_recast]

theorem entries_recast (callback : Expr) : entries (callback.recast r) =
    (entries callback).map fun e => (e.1, e.2.recast r) := by
  unfold entries
  rw [Expr.unwrap_recast]
  cases callback.unwrap with
  | function x parameters body =>
    simp only [Expr.recast, Expr.result?_recast]
    cases body.result? with
    | none => rfl
    | some e => cases e <;> simp [Expr.recast, Function.comp_def, Property.recast]
  | _ => rfl

theorem readable_recast (table : Text) (entries : List (Option Text × Expr)) :
    readable table (entries.map fun e => (e.1, e.2.recast r)) = readable table entries := by
  simp [readable, List.filterMap_map, ofEntry_recast]

end Extra

namespace Relation

@[simp] theorem tableName?_recast (e : Expr) : tableName? (e.recast r) = tableName? e := by
  cases e <;> rfl

@[simp] theorem target?_recast (e : Expr) : target? (e.recast r) = target? e := by
  unfold target?
  rw [Expr.unwrap_recast]
  cases e.unwrap with
  | function x parameters body =>
    cases parameters with
    | nil =>
      simp only [Expr.recast, Expr.result?_recast, Option.bind_map, Function.comp_def,
        tableName?_recast]
    | cons parameter others => rfl
  | _ => rfl

@[simp] theorem names_recast (es : List Expr) :
    names (es.map (Expr.recast r)) = names es := by
  simp [names, List.filterMap_map]

theorem withConfig_recast (relation : Relation) (config : List Entry) :
    relation.withConfig (config.map (Property.recast r)) = relation.withConfig config := by
  have hsetting (key : Text) : setting? (config.map (Property.recast r)) key =
      (setting? config key).map (Expr.recast r) := by
    rw [setting?, lastValue?_recast, setting?]
    cases lastValue? config key <;> simp
  simp [withConfig, hsetting, Option.bind_map, Function.comp_def]

theorem config?_recast (arguments : List Expr) :
    config? (arguments.map (Expr.recast r)) =
      (config? arguments).map (List.map (Property.recast r)) := by
  match arguments with
  | [] => rfl
  | [e] => rfl
  | e :: config :: rest => simp [config?]

theorem ofEntry_recast (rules : HeuristicRules) (entry : Entry) :
    ofEntry rules (entry.recast r) = ofEntry rules entry := by
  simp only [ofEntry, Property.recast, Expr.unwrap_recast]
  cases entry.value.unwrap with
  | call x callee arguments =>
    cases callee with
    | identifier y helper =>
      simp only [Expr.recast, Expr.allRecast_eq, config?_recast]
      cases arguments with
      | nil => rfl
      | cons first rest =>
        simp only [List.map_cons, target?_recast, Expr.text_recast]
        cases config? (first :: rest) with
        | none => rfl
        | some config => simp only [Option.map_some, withConfig_recast]
    | _ => rfl
  | _ => rfl

end Relation

namespace Entity

theorem columnMap?_recast (e : Expr) :
    columnMap? (e.recast r) = (columnMap? e).map (List.map (Property.recast r)) := by
  unfold columnMap?
  rw [Expr.unwrap_recast]
  cases e.unwrap with
  | function x parameters body =>
    simp only [Expr.recast, Expr.result?_recast]
    cases body.result? <;> simp
  | object x entries => simp [Expr.recast]
  | _ => rfl

end Entity

/-- The declaration with other lines and comments, also in its value. -/
def Declaration.recast (r : Recasting) (d : Declaration) : Declaration :=
  { d with
    initializer := d.initializer.map (Expr.recast r)
    statementComments := r.comments d.statementComments
    comments := r.comments d.comments }

namespace Declaration

theorem arguments?_recast (d : Declaration) :
    (d.recast r).arguments? = d.arguments?.map (List.map (Expr.recast r)) := by
  simp only [arguments?, recast]
  cases d.initializer with
  | none => rfl
  | some e => cases e <;> simp [Expr.recast]

end Declaration

namespace Relation

end Relation

namespace Entity

/-- A table declaration has the same shape on other lines, with its parts recast. -/
theorem shape_recast (d : Declaration) : shape (d.recast r) =
    (fun parts => ⟨parts.tableName, parts.columns.map (Property.recast r),
      parts.extras.map fun e => (e.1, e.2.recast r)⟩) <$> shape d := by
  unfold shape
  rw [Declaration.arguments?_recast]
  match d.arguments? with
  | none => rfl
  | some [] => rfl
  | some [e] => rfl
  | some (name :: columns :: rest) =>
    simp only [Option.map_some, List.map_cons, Expr.unwrap_recast, Expr.string?_recast,
      columnMap?_recast]
    match name.unwrap.string? with
    | none => rfl
    | some [] => rfl
    | some (c :: text) =>
      cases columnMap? columns with
      | none => rfl
      | some entries => cases rest <;> simp [Extra.entries_recast]

/-- The entity of a table is the same in other lines, and with other comments if comments are not
asked for. -/
theorem outcome_ofDeclaration_recast {r : Recasting} {config : Config}
    (hcomments : r.Keeps config.options.includeComments) (enums : Enums) (d : Declaration) :
    (ofDeclaration config enums (d.recast r)).outcome = (ofDeclaration config enums d).outcome := by
  refine outcome_ofDeclaration_congr rfl (fun h => ⟨hcomments h _, hcomments h _⟩) ?_
  rw [shape_recast]
  cases shape d with
  | error cause => rfl
  | ok parts =>
    simp only [Except.map_ok, Shape.read, Column.outcome_ofEntries_recast hcomments,
      Extra.readable_recast]

end Entity
end SchemaAtlas
