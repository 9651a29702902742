import SchemaAtlas.Declaration.Kind
import SchemaAtlas.Keyed
import SchemaAtlas.Text.Comment

/-!
# Columns from builder chains

A column is written as a chain of calls: the innermost names the type and may carry options, the
others are modifiers. Modifiers are applied from the outermost inward, so of two that set the same
field the inner one counts. Every value is read without its parentheses, except where a type call
looks for its options object and an enum for its values.
-/

namespace SchemaAtlas

abbrev Enums := Keyed (List Text)

/-- Why an entry gives no column: it has the wrong shape, or reading it ends the run. -/
inductive ColumnProblem where
  | mismatch (cause : Mismatch)
  | fault (fault : Fault)
  deriving DecidableEq, Repr

/-- The action that a string literal names, ignoring case and blanks around it. -/
def ReferentialAction.ofExpr? (e : Expr) : Option ReferentialAction :=
  e.unwrap.string?.bind fun value => ofWords? value.strip.lower

/-- The column that a function without parameters refers to: `() => users.id`. -/
def ColumnReference.ofTarget? (target : Expr) : Option ColumnReference :=
  match target.unwrap with
  | .function _ [] body =>
    match body.unwrap with
    | .memberAccess _ object property =>
      match object.unwrap with
      | .identifier _ table => some { table := table, column := property }
      | _ => none
    | _ => none
  | _ => none

def ColumnReference.withActions (reference : ColumnReference) (actions : List Entry) :
    ColumnReference :=
  { reference with
    onDelete := (lastValue? actions "onDelete").bind ReferentialAction.ofExpr?
    onUpdate := (lastValue? actions "onUpdate").bind ReferentialAction.ofExpr? }

def ColumnReference.ofArguments? : List Expr → Option ColumnReference
  | [] => none
  | [target] => ofTarget? target
  | target :: actions :: _ =>
    match ofTarget? target, actions.unwrap.properties? with
    | some reference, some entries => some (reference.withActions entries)
    | found, _ => found

/-- The text of a default value. It is missing for an integer that cannot be written. -/
def defaultText? (e : Expr) : Option Text :=
  match e.unwrap with
  | .number _ value => value.canonical?
  | .boolean extent _ => some extent.text
  | e => some e.literalText

namespace Column

/-- The default value of a column whose default is the time of insertion. -/
def currentTime : Text := "NOW()"

def applyOption (column : Column) (entry : Entry) : Column :=
  let value := entry.value.unwrap
  if entry.key = "length" then { column with length := value.number? }
  else if entry.key = "precision" then { column with precision := value.number? }
  else if entry.key = "scale" then { column with scale := value.number? }
  else if entry.key = "enum" then
    match value.elements? with
    | some elements => { column with enumValues := some (elements.filterMap Expr.string?) }
    | none => column
  else column

/-- The options object of a type call: the second argument, else the first. -/
def options? : List Expr → Option (List Entry)
  | _ :: .object _ entries :: _ => some entries
  | .object _ entries :: _ => some entries
  | _ => none

def applyType (column : Column) (call : Expr.Link) : Column :=
  ((options? call.arguments).getD []).foldl applyOption
    { column with type := call.name.getD column.type }

/-- Apply one modifier; an unknown one changes nothing. -/
def applyModifier (column : Column) (call : Expr.Link) : Except Fault Column :=
  if call.name = some "notNull" then .ok { column with nullable := false }
  else if call.name = some "primaryKey" then .ok { column with primaryKey := true }
  else if call.name = some "unique" then .ok { column with unique := true }
  else if call.name = some "default" then
    match call.arguments with
    | [] => .ok column
    | value :: _ =>
      match defaultText? value with
      | some text => .ok { column with defaultValue := some text }
      | none => .error .integerBeyondDigitLimit
  else if call.name = some "defaultNow" then .ok { column with defaultValue := some currentTime }
  else if call.name = some "references" then
    .ok { column with references := ColumnReference.ofArguments? call.arguments }
  else .ok column

/-- The column that a chain builds, its calls given from the outermost inward. -/
def ofChain (name : Text) (modifiers : List Expr.Link) (type : Expr.Link) :
    Except Fault Column :=
  modifiers.foldlM applyModifier (applyType { name := name } type)

/-- Give a column without values the values of the enum that its type names. -/
def withEnum (enums : Enums) (column : Column) : Column :=
  match column.enumValues with
  | some _ => column
  | none => { column with enumValues := enums.get? column.type }

def ofEntry (includeComments : Bool) (enums : Enums) (entry : Entry) :
    Except ColumnProblem Column :=
  let expr := entry.value.unwrap
  match expr.chain.getLast? with
  | none => .error (.mismatch (.columnWithoutCall expr.form))
  | some type =>
    match ofChain entry.key expr.chain.dropLast type with
    | .error fault => .error (.fault fault)
    | .ok column =>
      let column := column.withEnum enums
      .ok (if includeComments then
        { column with comments := Comment.documentation? [entry.comments] } else column)

/-- The columns of a column map, in order. An entry that is no column is skipped and reported. -/
def ofEntries (includeComments : Bool) (enums : Enums) : List Entry → Trace (List Column)
  | [] => pure []
  | entry :: rest =>
    match ofEntry includeComments enums entry with
    | .ok column => (column :: ·) <$> ofEntries includeComments enums rest
    | .error (.mismatch cause) => do
      Trace.emit (.columnSkipped entry.key entry.extent.line cause)
      ofEntries includeComments enums rest
    | .error (.fault fault) => Trace.halt fault

end Column
end SchemaAtlas
