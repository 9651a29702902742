import SchemaAtlas.Proofs.Column.Rewritten
import SchemaAtlas.Table.Extras

/-!
# Indexes and constraints that are rewritten inside

Columns, tables and actions are read without their parentheses. Names, methods, the text of an SQL
expression and the lists of columns of a foreign key only count in no parentheses. So a rewriting
that readers without parentheses do not notice leaves an index, a check or a foreign key as it is,
if those are seen as before.
-/

namespace SchemaAtlas

open SchemaAtlas.Expr (Faithful Link SameNode)

namespace Extra

/-- What stands between the marks of a literal text, and the expressions in it. -/
def quoted? : Expr → Option (Text × List Expr)
  | .template _ raw substitutions => some (raw, substitutions)
  | .string _ value => some (value, [])
  | _ => none

/-- The text of an SQL expression and the expressions in it, where it is a literal text. -/
def sql? (e : Expr) : Option (Text × List Expr) :=
  match e.unwrap with
  | .call _ _ [argument] => quoted? argument
  | .template _ raw substitutions => some (raw, substitutions)
  | _ => none

theorem quoted?_eq_ite (e : Expr) :
    quoted? e = if (quoted? e).isSome then quoted? e.unwrap else none := by
  cases e <;> rfl

theorem isSome_quoted?_eq (e : Expr) : (quoted? e).isSome =
    (e.form == "TemplateLiteral" || e.form == "StringLiteral") := by
  cases e <;> simp [quoted?, Expr.form]

/-- The text of a condition is that of its template, if it has one. -/
theorem sqlText_eq_getD (e : Expr) : sqlText e = ((sql? e).map (·.1)).getD e.unwrap.text := by
  unfold sqlText sql?
  cases e.unwrap with
  | call x callee arguments =>
    match arguments with
    | [] => rfl
    | [argument] => cases argument <;> rfl
    | first :: second :: rest => cases first <;> rfl
  | _ => rfl

theorem substitutions_eq_getD (e : Expr) : substitutions e = ((sql? e).map (·.2)).getD [] := by
  unfold substitutions sql?
  cases e.unwrap with
  | call x callee arguments =>
    match arguments with
    | [] => rfl
    | [argument] => cases argument <;> rfl
    | first :: second :: rest => cases first <;> rfl
  | _ => rfl

theorem stringArgument?_eq_bind (arguments : List Expr) :
    stringArgument? arguments = arguments.head?.bind Expr.string? := by
  cases arguments with
  | nil => rfl
  | cons e rest => cases e <;> rfl

def config? (base : List Expr) : Option (List Entry) := base.head?.bind (·.unwrap.properties?)

/-- Whether the method of an index is seen: `using` only counts without `on`. -/
def methodSight (modifiers : List Link) : Bool :=
  (modifier? modifiers "on").isNone && ((modifier? modifiers "using").bind stringArgument?).isSome

/-- What is seen of an index that only counts in no parentheses: its name, its method and the text of
its condition. -/
def indexSight (base : List Expr) (modifiers : List Link) : List Bool :=
  [(stringArgument? base).isSome, methodSight modifiers,
    ((modifierArgument? modifiers "where").bind sql?).isSome]

/-- What is seen of a check that only counts in no parentheses: its name and its text. -/
def checkSight (base : List Expr) : List Bool :=
  [(stringArgument? base).isSome, (base[1]?.bind sql?).isSome]

/-- What is seen of the configuration of a foreign key that only counts in no parentheses: the
columns on both sides and the name. -/
def keySight (config : List Entry) : List Bool :=
  [((lastValue? config "columns").bind Expr.elements?).isSome,
    ((lastValue? config "foreignColumns").bind Expr.elements?).isSome,
    ((lastValue? config "name").bind Expr.string?).isSome]

/-- What is seen of an entry of the extras that only counts in no parentheses. -/
def sight (value : Expr) : List Bool :=
  match value.chain.getLast? with
  | none => []
  | some base =>
    if base.name = some "index" then indexSight base.arguments value.chain.dropLast
    else if base.name = some "uniqueIndex" || base.name = some "unique" then
      indexSight base.arguments value.chain.dropLast
    else if base.name = some "check" then checkSight base.arguments
    else if base.name = some "foreignKey" then ((config? base.arguments).map keySight).getD []
    else []

end Extra

section Extra

variable {R : Expr → Expr → Prop} {Q : List Entry → List Entry → Prop} (hR : Faithful R Q)
variable {e e' : Expr}

open Extra

theorem Extra.modifier?_rel {modifiers modifiers' : List Link}
    (h : List.Forall₂ (Link.Related R) modifiers modifiers') (name : Text) :
    Option.Rel (List.Forall₂ R) (modifier? modifiers name) (modifier? modifiers' name) := by
  have hfound := find?_rel_of_forall₂ (List.forall₂_reverse_iff.mpr h)
    (p := fun call => decide (call.name = some name))
    (q := fun call => decide (call.name = some name)) fun _ _ hcall => by rw [hcall.name_eq]
  exact rel_map_of_rel hfound fun _ _ hcall => hcall.arguments

theorem Extra.modifierArgument?_rel {modifiers modifiers' : List Link}
    (h : List.Forall₂ (Link.Related R) modifiers modifiers') (name : Text) :
    Option.Rel R (modifierArgument? modifiers name) (modifierArgument? modifiers' name) :=
  rel_bind_of_rel (modifier?_rel h name) fun _ _ => head?_rel_of_forall₂

theorem Expr.SameNode.quoted? (h : SameNode R Q e e') : Option.Rel
    (fun sql sql' => sql'.1 = sql.1 ∧ List.Forall₂ R sql.2 sql'.2)
    (Extra.quoted? e) (Extra.quoted? e') := by
  cases h with
  | template x raw h => exact .some ⟨rfl, h⟩
  | string x value => exact .some ⟨rfl, .nil⟩
  | _ => exact .none

theorem Extra.isSome_stringArgument?_eq (hform : ∀ e e', R e e' → e'.form = e.form)
    (arguments arguments' : List Expr) (h : List.Forall₂ R arguments arguments') :
    (stringArgument? arguments').isSome = (stringArgument? arguments).isSome := by
  rw [stringArgument?_eq_bind, stringArgument?_eq_bind]
  refine isSome_bind_eq_of_rel (head?_rel_of_forall₂ h) fun e e' h => ?_
  rw [Expr.isSome_string?_eq, Expr.isSome_string?_eq, hform e e' h]

include hR

namespace Expr.Faithful

theorem bind_string?_eq {o o' : Option Expr} (h : Option.Rel R o o')
    (hseen : (o'.bind string?).isSome = (o.bind string?).isSome) :
    o'.bind string? = o.bind string? := by
  cases h with
  | none => rfl
  | some h => exact hR.string?_eq h hseen

theorem bind_elements? {o o' : Option Expr} (h : Option.Rel R o o')
    (hseen : (o'.bind Expr.elements?).isSome = (o.bind Expr.elements?).isSome) :
    Option.Rel (List.Forall₂ R) (o.bind Expr.elements?) (o'.bind Expr.elements?) := by
  cases h with
  | none => exact .none
  | some h => exact hR.elements? h hseen

theorem stringArgument?_eq {arguments arguments' : List Expr}
    (h : List.Forall₂ R arguments arguments')
    (hseen : (stringArgument? arguments').isSome = (stringArgument? arguments).isSome) :
    stringArgument? arguments' = stringArgument? arguments := by
  rw [stringArgument?_eq_bind, stringArgument?_eq_bind] at *
  exact hR.bind_string?_eq (head?_rel_of_forall₂ h) hseen

theorem columnNames_eq {es es' : List Expr} (h : List.Forall₂ R es es') :
    columnNames es' = columnNames es := by
  rw [columnNames, columnNames, filterMap_eq_of_forall₂ h]
  exact fun _ _ h => (hR.node h).invokedName?_eq

theorem sql? (h : R e e') (hseen : (Extra.sql? e').isSome = (Extra.sql? e).isSome) : Option.Rel
    (fun sql sql' => sql'.1 = sql.1 ∧ List.Forall₂ R sql.2 sql'.2)
    (Extra.sql? e) (Extra.sql? e') := by
  have hnode := hR.node h
  unfold Extra.sql? at hseen ⊢
  generalize e.unwrap = u, e'.unwrap = u' at hnode hseen
  cases hnode with
  | call x _ _ harguments =>
    match harguments with
    | .nil => exact .none
    | @List.Forall₂.cons _ _ _ argument argument' _ _ hargument .nil =>
      dsimp only at hseen ⊢
      rw [quoted?_eq_ite argument, quoted?_eq_ite argument', hseen]
      split_ifs with hquoted
      · exact (hR.node hargument).quoted?
      · exact .none
    | .cons _ (.cons _ _) => exact .none
  | template x raw h => exact .some ⟨rfl, h⟩
  | _ => exact .none

theorem sqlText_eq (h : R e e') (hseen : (Extra.sql? e').isSome = (Extra.sql? e).isSome) :
    sqlText e' = sqlText e := by
  rw [sqlText_eq_getD, sqlText_eq_getD, (hR.node h).text_eq,
    map_eq_of_rel (hR.sql? h hseen) fun _ _ h => h.1]

theorem substitutions (h : R e e') (hseen : (Extra.sql? e').isSome = (Extra.sql? e).isSome) :
    List.Forall₂ R (Extra.substitutions e) (Extra.substitutions e') := by
  have hsql := hR.sql? h hseen
  rw [substitutions_eq_getD, substitutions_eq_getD]
  generalize Extra.sql? e = sql, Extra.sql? e' = sql' at hsql
  cases hsql with
  | none => exact .nil
  | some h => exact h.2

/-- Modifiers that are seen alike give an index the same columns and the same method. -/
theorem indexTarget?_eq {modifiers modifiers' : List Link}
    (h : List.Forall₂ (Link.Related R) modifiers modifiers')
    (hmethod : methodSight modifiers' = methodSight modifiers) :
    indexTarget? modifiers' = indexTarget? modifiers := by
  have hon := modifier?_rel h "on"
  have husing := modifier?_rel h "using"
  unfold methodSight at hmethod
  unfold indexTarget?
  generalize modifier? modifiers "on" = on, modifier? modifiers' "on" = on',
    modifier? modifiers "using" = method, modifier? modifiers' "using" = method' at *
  cases hon with
  | some hcolumns => simp only [hR.columnNames_eq hcolumns]
  | none =>
    cases husing with
    | none => rfl
    | some harguments =>
      simp only [hR.columnNames_eq (List.forall₂_drop 1 harguments),
        hR.stringArgument?_eq harguments hmethod]

/-- An index is the same in another spelling that is seen alike. -/
theorem ofIndex_eq (table : Text) (key : Option Text) (unique : Bool) {base base' : List Expr}
    {modifiers modifiers' : List Link} (hbase : List.Forall₂ R base base')
    (h : List.Forall₂ (Link.Related R) modifiers modifiers')
    (hsight : indexSight base' modifiers' = indexSight base modifiers) :
    ofIndex table key base' modifiers' unique = ofIndex table key base modifiers unique := by
  simp only [indexSight, List.cons.injEq, and_true] at hsight
  obtain ⟨hname, hmethod, hcondition⟩ := hsight
  have hwhere := modifierArgument?_rel h "where"
  have htext : (modifierArgument? modifiers' "where").map sqlText =
      (modifierArgument? modifiers "where").map sqlText := by
    generalize modifierArgument? modifiers "where" = e,
      modifierArgument? modifiers' "where" = e' at hwhere hcondition
    cases hwhere with
    | none => rfl
    | some hwhere => exact congrArg some (hR.sqlText_eq hwhere hcondition)
  rw [ofIndex, ofIndex, hR.indexTarget?_eq h hmethod, hR.stringArgument?_eq hbase hname, htext]

/-- So is a check. -/
theorem ofCheck_eq (key : Option Text) {base base' : List Expr} (h : List.Forall₂ R base base')
    (hsight : checkSight base' = checkSight base) : ofCheck key base' = ofCheck key base := by
  simp only [checkSight, List.cons.injEq, and_true] at hsight
  obtain ⟨hname, htext⟩ := hsight
  have hargument := hR.stringArgument?_eq h hname
  match h with
  | .nil => rfl
  | .cons _ .nil => rfl
  | .cons _ (.cons hexpression _) =>
    rw [ofCheck, ofCheck, checkName?, checkName?, hargument, hR.sqlText_eq hexpression htext,
      hR.columnNames_eq (hR.substitutions hexpression htext)]

theorem tableOf?_eq (h : R e e') : tableOf? e' = tableOf? e := by
  have hnode := hR.node h
  unfold tableOf?
  generalize e.unwrap = u, e'.unwrap = u' at hnode
  cases hnode with
  | @memberAccess x property object object' hobject =>
    have hobject := hR.node hobject
    dsimp only
    generalize object.unwrap = o, object'.unwrap = o' at hobject
    cases hobject <;> rfl
  | _ => rfl

theorem findSome?_tableOf?_eq {es es' : List Expr} (h : List.Forall₂ R es es') :
    es'.findSome? tableOf? = es.findSome? tableOf? := by
  induction h with
  | nil => rfl
  | cons hhead _ ih => rw [List.findSome?_cons, List.findSome?_cons, hR.tableOf?_eq hhead, ih]

theorem extraConfig? {base base' : List Expr} (h : List.Forall₂ R base base') :
    Option.Rel Q (Extra.config? base) (Extra.config? base') :=
  rel_bind_of_rel (head?_rel_of_forall₂ h) fun _ _ hconfig => (hR.node hconfig).properties?

/-- So is a foreign key whose configuration is seen alike. -/
theorem ofForeignKey_eq (key : Option Text) {base base' : List Expr}
    {modifiers modifiers' : List Link} (hbase : List.Forall₂ R base base')
    (h : List.Forall₂ (Link.Related R) modifiers modifiers')
    (hsight : ((Extra.config? base').map keySight).getD [] =
      ((Extra.config? base).map keySight).getD []) :
    ofForeignKey key base' modifiers' = ofForeignKey key base modifiers := by
  have hconfig := hR.extraConfig? hbase
  have haction (name : Text) :
      (modifierArgument? modifiers' name).bind ReferentialAction.ofExpr? =
        (modifierArgument? modifiers name).bind ReferentialAction.ofExpr? :=
    bind_eq_of_rel (modifierArgument?_rel h name) fun _ _ => hR.action?_eq
  unfold ofForeignKey
  unfold Extra.config? at hconfig hsight
  generalize base.head?.bind _ = config, base'.head?.bind _ = config' at hconfig hsight
  cases hconfig with
  | none => rfl
  | @some config config' hconfig =>
    simp only [Option.map_some, Option.getD_some, keySight, List.cons.injEq, and_true] at hsight
    obtain ⟨hlocal, hforeign, hname⟩ := hsight
    have hlocal := hR.bind_elements? (hR.last hconfig "columns") hlocal
    have hforeign := hR.bind_elements? (hR.last hconfig "foreignColumns") hforeign
    simp only [haction, hR.bind_string?_eq (hR.last hconfig "name") hname]
    generalize (lastValue? config "columns").bind _ = columns,
      (lastValue? config' "columns").bind _ = columns' at hlocal
    cases hlocal with
    | none => rfl
    | some hcolumns =>
      generalize (lastValue? config "foreignColumns").bind _ = foreign,
        (lastValue? config' "foreignColumns").bind _ = foreign' at hforeign
      cases hforeign with
      | none => rfl
      | some hforeign =>
        simp only [hR.findSome?_tableOf?_eq hforeign, hR.columnNames_eq hforeign,
          hR.columnNames_eq hcolumns]

/-- An index, a check or a foreign key stays as it is, if what only counts in no parentheses is seen
as before. -/
theorem extra_eq (table : Text) (key : Option Text) (h : R e e') (hsight : sight e' = sight e) :
    Extra.ofEntry table key e' = Extra.ofEntry table key e := by
  have hchain := hR.chain_of_related h
  have hbase := getLast?_rel_of_forall₂ hchain
  have hmodifiers := forall₂_dropLast hchain
  unfold Extra.ofEntry
  unfold sight at hsight
  generalize e.chain.getLast? = base, e'.chain.getLast? = base' at hbase hsight
  cases hbase with
  | none => rfl
  | @some base base' hbase =>
    simp only [hbase.name_eq] at hsight ⊢
    split_ifs at hsight ⊢
    · rw [hR.ofIndex_eq table key false hbase.arguments hmodifiers hsight]
    · rw [hR.ofIndex_eq table key true hbase.arguments hmodifiers hsight]
    · rw [hR.ofCheck_eq key hbase.arguments hsight]
    · rw [hR.ofForeignKey_eq key hbase.arguments hmodifiers hsight]
    · rfl

section Form

variable (hform : ∀ e e', R e e' → e'.form = e.form)

include hform

/-- Related expressions are conditions or not together. -/
theorem isSome_sql?_eq (e e' : Expr) (h : R e e') :
    (Extra.sql? e').isSome = (Extra.sql? e).isSome := by
  have hnode := hR.node h
  unfold Extra.sql?
  generalize e.unwrap = u, e'.unwrap = u' at hnode
  cases hnode with
  | call x _ _ harguments =>
    match harguments with
    | .nil => rfl
    | @List.Forall₂.cons _ _ _ argument argument' _ _ hargument .nil =>
      dsimp only
      rw [isSome_quoted?_eq, isSome_quoted?_eq, hform argument argument' hargument]
    | .cons _ (.cons _ _) => rfl
  | _ => rfl

theorem indexSight_eq {base base' : List Expr} {modifiers modifiers' : List Link}
    (hbase : List.Forall₂ R base base') (h : List.Forall₂ (Link.Related R) modifiers modifiers') :
    indexSight base' modifiers' = indexSight base modifiers := by
  have hstring := isSome_stringArgument?_eq hform
  rw [indexSight, indexSight, methodSight, methodSight, hstring base base' hbase,
    isNone_eq_of_rel (modifier?_rel h "on"),
    isSome_bind_eq_of_rel (modifier?_rel h "using") hstring,
    isSome_bind_eq_of_rel (modifierArgument?_rel h "where") (hR.isSome_sql?_eq hform)]

theorem checkSight_eq {base base' : List Expr} (h : List.Forall₂ R base base') :
    checkSight base' = checkSight base := by
  rw [checkSight, checkSight, isSome_stringArgument?_eq hform base base' h,
    isSome_bind_eq_of_rel (getElem?_rel_of_forall₂ h 1) (hR.isSome_sql?_eq hform)]

theorem keySight_eq {config config' : List Entry} (h : Q config config') :
    keySight config' = keySight config := by
  have helements (e e' : Expr) (h : R e e') : e'.elements?.isSome = e.elements?.isSome := by
    rw [isSome_elements?_eq, isSome_elements?_eq, hform e e' h]
  have hname (e e' : Expr) (h : R e e') : e'.string?.isSome = e.string?.isSome := by
    rw [isSome_string?_eq, isSome_string?_eq, hform e e' h]
  rw [keySight, keySight, isSome_bind_eq_of_rel (hR.last h "columns") helements,
    isSome_bind_eq_of_rel (hR.last h "foreignColumns") helements,
    isSome_bind_eq_of_rel (hR.last h "name") hname]

/-- What keeps its form everywhere is seen as before. -/
theorem sight_eq (h : R e e') : sight e' = sight e := by
  have hchain := hR.chain_of_related h
  have hbase := getLast?_rel_of_forall₂ hchain
  have hmodifiers := forall₂_dropLast hchain
  unfold sight
  generalize e.chain.getLast? = base, e'.chain.getLast? = base' at hbase
  cases hbase with
  | none => rfl
  | some hbase =>
    have hkey := map_eq_of_rel (hR.extraConfig? hbase.arguments) fun _ _ => hR.keySight_eq hform
    simp only [hbase.name_eq, hR.indexSight_eq hform hbase.arguments hmodifiers,
      hR.checkSight_eq hform hbase.arguments, hkey]

end Form

end Expr.Faithful

end Extra

end SchemaAtlas
