import SchemaAtlas.Column.OfEntry

/-!
# Indexes and constraints of a table

The function in third place of a table builder returns indexes, checks and foreign keys over several
columns, in an object or an array. Each is a builder chain whose innermost call names what it is;
of modifiers with one name the innermost counts, wherever the others stand.
-/

namespace SchemaAtlas

/-- What an entry of the extras declares. -/
inductive Extra where
  | index (index : Index)
  | check (check : Check)
  | foreignKey (key : ForeignKey)
  | ignored
  deriving DecidableEq, Repr

namespace Extra

def columnName? (e : Expr) : Option Text := e.unwrap.invokedName?

/-- The names of the columns that expressions refer to; empty names are left out. -/
def columnNames (es : List Expr) : List Text :=
  (es.filterMap columnName?).filter (!·.isEmpty)

def stringArgument? : List Expr → Option Text
  | .string _ value :: _ => some value
  | _ => none

def substitutions (e : Expr) : List Expr :=
  match e.unwrap with
  | .call _ _ [.template _ _ substitutions] => substitutions
  | .template _ _ substitutions => substitutions
  | _ => []

/-- The text of an SQL expression: what stands between the marks of a template, bare or as the only
argument of a call, and the source text otherwise. -/
def sqlText (e : Expr) : Text :=
  match e.unwrap with
  | .call _ _ [.template _ raw _] => raw
  | .call _ _ [.string _ value] => value
  | .template _ raw _ => raw
  | e => e.text

def modifier? (modifiers : List Expr.Link) (name : Text) : Option (List Expr) :=
  (modifiers.reverse.find? (·.name = some name)).map (·.arguments)

def modifierArgument? (modifiers : List Expr.Link) (name : Text) : Option Expr :=
  (modifier? modifiers name).bind List.head?

/-- The columns of an index and its method: `on` takes columns, `using` a method and columns. -/
def indexTarget? (modifiers : List Expr.Link) : Option (List Text × Option IndexMethod) :=
  match modifier? modifiers "on", modifier? modifiers "using" with
  | some columns, _ => some (columnNames columns, none)
  | none, some arguments =>
    some (columnNames (arguments.drop 1),
      (stringArgument? arguments).bind fun name => IndexMethod.ofLabel? name.lower)
  | none, none => none

/-- The name of an index without one: its key, or the table, the columns and a word for the kind. -/
def indexName (table : Text) (key : Option Text) (columns : List Text) (unique : Bool) : Text :=
  match key with
  | some (c :: rest) => c :: rest
  | _ => table ++ "_" ++ Text.join "_" columns ++ "_" ++ (if unique then "unique" else "idx")

/-- Restrict an index to the rows that meet a condition, if one is given. -/
def restricted (i : Index) : Option Text → Index
  | none => i
  | some condition => { i with isPartial := true, condition := some condition }

@[simp] theorem columns_restricted (i : Index) (condition : Option Text) :
    (restricted i condition).columns = i.columns := by
  cases condition <;> rfl

@[simp] theorem method_restricted (i : Index) (condition : Option Text) :
    (restricted i condition).method = i.method := by
  cases condition <;> rfl

def ofIndex (table : Text) (key : Option Text) (base : List Expr) (modifiers : List Expr.Link)
    (unique : Bool) : Except Mismatch Index :=
  match indexTarget? modifiers with
  | none => .error .indexWithoutColumns
  | some (columns, method) =>
    let i : Index := {
      name := (stringArgument? base).getD (indexName table key columns unique)
      columns := columns
      unique := unique
      method := method }
    .ok (restricted i ((modifierArgument? modifiers "where").map sqlText))

def checkName? (key : Option Text) (base : List Expr) : Option Text :=
  match stringArgument? base with
  | some (c :: rest) => some (c :: rest)
  | _ => key

/-- Texts in the order of their first occurrence, each once. -/
def distinct (texts : List Text) : List Text :=
  texts.foldl (fun found t => if found.contains t then found else found ++ [t]) []

def ofCheck (key : Option Text) : List Expr → Except Mismatch Check
  | first :: expression :: rest =>
    match checkName? key (first :: expression :: rest) with
    | none => .error .checkWithoutName
    | some name => .ok {
        name := name
        expression := sqlText expression
        columns := distinct (columnNames (substitutions expression)) }
  | _ => .error .checkWithoutExpression

/-- The table of `users.id`. -/
def tableOf? (e : Expr) : Option Text :=
  match e.unwrap with
  | .memberAccess _ object _ =>
    match object.unwrap with
    | .identifier _ table => some table
    | _ => none
  | _ => none

def ofForeignKey (key : Option Text) (base : List Expr) (modifiers : List Expr.Link) :
    Except Mismatch ForeignKey :=
  match base.head?.bind (·.unwrap.properties?) with
  | none => .error .foreignKeyWithoutConfig
  | some config =>
    match (lastValue? config "columns").bind Expr.elements?,
      (lastValue? config "foreignColumns").bind Expr.elements? with
    | some columns, some foreign =>
      match foreign.findSome? tableOf? with
      | none => .error .foreignKeyWithoutTarget
      | some table => .ok {
          columns := columnNames columns
          references := ⟨table, columnNames foreign⟩
          onDelete := (modifierArgument? modifiers "onDelete").bind ReferentialAction.ofExpr?
          onUpdate := (modifierArgument? modifiers "onUpdate").bind ReferentialAction.ofExpr?
          name := ((lastValue? config "name").bind Expr.string?).or key }
    | _, _ => .error .foreignKeyWithoutColumns

/-- Read one entry of the extras; a call that names no index or constraint is ignored. -/
def ofEntry (table : Text) (key : Option Text) (value : Expr) : Except Mismatch Extra :=
  match value.chain.getLast? with
  | none => .error .extraWithoutCall
  | some base =>
    let modifiers := value.chain.dropLast
    if base.name = some "index" then
      .index <$> ofIndex table key base.arguments modifiers false
    else if base.name = some "uniqueIndex" || base.name = some "unique" then
      .index <$> ofIndex table key base.arguments modifiers true
    else if base.name = some "check" then .check <$> ofCheck key base.arguments
    else if base.name = some "foreignKey" then
      .foreignKey <$> ofForeignKey key base.arguments modifiers
    else .ok .ignored

/-- The entries of the extras: those of an object with their keys, those of an array without. -/
def entries (callback : Expr) : List (Option Text × Expr) :=
  match callback.unwrap with
  | .function _ _ body =>
    match body.result? with
    | some (.object _ properties) => properties.map fun p => (some p.key, p.value)
    | some (.array _ elements) => elements.map (none, ·)
    | _ => []
  | _ => []

def entryLabel (key : Option Text) (value : Expr) : Text :=
  match key with
  | some (c :: rest) => c :: rest
  | _ => value.text

/-- Read the entries of the extras in order. One that has the wrong shape is skipped and
reported. -/
def ofEntries (table : Text) : List (Option Text × Expr) → Trace (List Extra)
  | [] => pure []
  | (key, value) :: rest =>
    match ofEntry table key value with
    | .ok extra => (extra :: ·) <$> ofEntries table rest
    | .error cause => do
      Trace.emit (.extraSkipped (entryLabel key value) table cause)
      ofEntries table rest

def index? : Extra → Option Index
  | index i => some i
  | _ => none

def check? : Extra → Option Check
  | check c => some c
  | _ => none

def foreignKey? : Extra → Option ForeignKey
  | foreignKey k => some k
  | _ => none

end Extra
end SchemaAtlas
