import SchemaAtlas.Declaration.Basic

/-!
# What a declaration declares

An exported declaration whose value is a call declares a table, relations or an enum, by the source
text of the callee alone.
-/

namespace SchemaAtlas

inductive DeclarationKind where
  | table
  | relations
  | enum
  deriving DecidableEq, Repr

def DeclarationKind.label : DeclarationKind → String
  | .table => "table"
  | .relations => "relations"
  | .enum => "enum"

/-- What a call of this source text declares: relations, if it is the relation helper; a table or an
enum, if it holds their marker and that of a dialect. -/
def DeclarationKind.ofCallee? (rules : DeclarationRules) (callee : Text) :
    Option DeclarationKind :=
  let hasDialect := rules.dialectMarkers.any (·.occursIn callee)
  if callee = rules.relationHelper then some .relations
  else if rules.tableBuilderMarker.occursIn callee && hasDialect then some .table
  else if !rules.enumBuilderMarker.isEmpty && rules.enumBuilderMarker.occursIn callee && hasDialect
  then some .enum
  else none

namespace Declaration

/-- What the declaration declares, if anything. -/
def kind? (d : Declaration) (rules : DeclarationRules) : Option DeclarationKind :=
  match d.exported, d.initializer with
  | true, some (.call _ callee _) => DeclarationKind.ofCallee? rules callee.text
  | _, _ => none

def arguments? (d : Declaration) : Option (List Expr) :=
  match d.initializer with
  | some (.call _ _ arguments) => some arguments
  | _ => none

/-- The values of an enum: the string literals of the array in second place. -/
def enumValues? (d : Declaration) : Option (List Text) :=
  match d.arguments? with
  | some (_ :: .array _ elements :: _) => some (elements.filterMap Expr.string?)
  | _ => none

end Declaration
end SchemaAtlas
