import SchemaAtlas.Text.Basic

/-!
# Mismatches

Why one declaration, column, extra or relation does not have the expected shape. A mismatch drops
the unit it belongs to and nothing else.
-/

namespace SchemaAtlas

/-- Why a unit of a schema is dropped. -/
inductive Mismatch where
  | columnWithoutCall (form : String)
  | tableWithoutArguments
  | tableNameWithoutText
  | tableNameEmpty
  | tableWithoutColumns
  | extraWithoutCall
  | indexWithoutColumns
  | checkWithoutExpression
  | checkWithoutName
  | foreignKeyWithoutConfig
  | foreignKeyWithoutColumns
  | foreignKeyWithoutTarget
  | relationsWithoutSuffix (suffix : Text)
  | relationsWithoutArguments
  | relationsWithoutCallback
  | relationsWithoutMapping
  | relationWithoutCall
  | relationHelperUnknown (name : Text)
  | relationWithoutTarget
  | relationTargetUnknown (text : Text)
  deriving DecidableEq, Repr

def Mismatch.message : Mismatch → Text
  | .columnWithoutCall form => "expected a builder call, got " ++ Text.ofString form
  | .tableWithoutArguments => "table builder needs a name and a column map"
  | .tableNameWithoutText => "table name is not a string literal"
  | .tableNameEmpty => "table name is empty"
  | .tableWithoutColumns => "second argument is not a column map"
  | .extraWithoutCall => "expected a builder call"
  | .indexWithoutColumns => "index without .on() or .using() columns"
  | .checkWithoutExpression => "check() needs a name and an expression"
  | .checkWithoutName => "check() without a name"
  | .foreignKeyWithoutConfig => "foreignKey() needs a config object"
  | .foreignKeyWithoutColumns => "foreignKey() needs columns and foreignColumns arrays"
  | .foreignKeyWithoutTarget => "foreignColumns must reference table.column"
  | .relationsWithoutSuffix suffix => "name does not end with '" ++ suffix ++ "'"
  | .relationsWithoutArguments => "relations() needs a table and a callback"
  | .relationsWithoutCallback => "second relations() argument is not a function"
  | .relationsWithoutMapping => "relations() callback does not return an object literal"
  | .relationWithoutCall => "expected one(...) or many(...)"
  | .relationHelperUnknown name => "unknown relation helper '" ++ name ++ "'"
  | .relationWithoutTarget => "relation without a target table"
  | .relationTargetUnknown text => "cannot resolve target table from '" ++ text ++ "'"

end SchemaAtlas
