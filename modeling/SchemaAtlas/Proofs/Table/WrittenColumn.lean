import SchemaAtlas.Proofs.Column.Modifiers
import SchemaAtlas.Proofs.Expr.Written

/-!
# Columns read back from their builder chains

A column is written as one chain: the type call with a label and an options object, and a modifier
for every field that differs from a bare column. Each option and each modifier sets one field, so
reading the chain sets exactly the fields that were written.
-/

namespace SchemaAtlas

namespace ReferentialAction

def written (a : ReferentialAction) : Written := .string a.words

theorem ofWords?_words (a : ReferentialAction) :
    ofWords? (Text.ofString a.words).strip.lower = some a := by
  cases a <;> decide +kernel

@[simp] theorem ofExpr?_written (a : ReferentialAction) (l : Layout) :
    ofExpr? (a.written l) = some a := ofWords?_words a

/-- The entry of an actions object for an action, if there is one. -/
def entry (key : Text) (a : Option ReferentialAction) : List (Text × Written) :=
  a.toList.map fun a => (key, a.written)

end ReferentialAction

namespace ColumnReference

def target (r : ColumnReference) : Written :=
  .function [] (.member (.identifier r.table) r.column)

def actions (r : ColumnReference) : Written :=
  .object (ReferentialAction.entry "onDelete" r.onDelete
    ++ ReferentialAction.entry "onUpdate" r.onUpdate)

theorem ofArguments?_written (r : ColumnReference) (l : Layout) :
    ofArguments? (Written.all [r.target, r.actions] l) = some r := by
  obtain ⟨table, column, onDelete, onUpdate⟩ := r
  cases onDelete <;> cases onUpdate <;>
    simp [ofArguments?, ofTarget?, withActions, target, actions, ReferentialAction.entry,
      Written.all, Written.function, Written.member, Written.identifier, Written.object,
      Written.entries, Expr.unwrap, Expr.properties?, lastValue?]

end ColumnReference

namespace Column

inductive TypeOption where
  | length (value : Number)
  | precision (value : Number)
  | scale (value : Number)
  | enum (values : List Text)

namespace TypeOption

def written : TypeOption → Text × Written
  | length value => ("length", .number value)
  | precision value => ("precision", .number value)
  | scale value => ("scale", .number value)
  | enum values => ("enum", .array (values.map .string))

def apply (c : Column) : TypeOption → Column
  | length value => { c with length := some value }
  | precision value => { c with precision := some value }
  | scale value => { c with scale := some value }
  | enum values => { c with enumValues := some values }

theorem applyOption_written (c : Column) (o : TypeOption) (l : Layout) (x : Extent)
    (comments : List Text) :
    applyOption c ⟨x, o.written.1, o.written.2 l, comments⟩ = o.apply c := by
  cases o <;>
    simp [applyOption, written, apply, Written.number, Written.array, Expr.unwrap, Expr.number?,
      Expr.elements?]

theorem foldl_applyOption (c : Column) (options : List TypeOption) (l : Layout) :
    (Written.entries (options.map written) l).foldl applyOption c = options.foldl apply c := by
  induction options generalizing c l with
  | nil => rfl
  | cons o others ih =>
    simp only [List.map_cons, Written.entries, List.foldl_cons, applyOption_written]
    exact ih _ _

end TypeOption

/-- A modifier that sets one field of a column. -/
inductive Modifier where
  | notNull
  | primaryKey
  | unique
  | default (value : Text)
  | references (reference : ColumnReference)

namespace Modifier

def written : Modifier → Written.Step
  | notNull => ("notNull", [])
  | primaryKey => ("primaryKey", [])
  | unique => ("unique", [])
  | default value => ("default", [.string value])
  | references r => ("references", [r.target, r.actions])

def apply (c : Column) : Modifier → Column
  | notNull => { c with nullable := false }
  | primaryKey => { c with primaryKey := true }
  | unique => { c with unique := true }
  | default value => { c with defaultValue := some value }
  | references r => { c with references := some r }

theorem applyModifier_written (c : Column) (m : Modifier) (l : Layout) :
    c.applyModifier ⟨some m.written.1, Written.all m.written.2 l⟩ = .ok (m.apply c) := by
  cases m with
  | references r => simp [applyModifier, written, apply, ColumnReference.ofArguments?_written]
  | default value =>
    simp [applyModifier, written, apply, Written.all, Written.string, defaultText?, Expr.unwrap,
      Expr.literalText]
  | _ => simp [applyModifier, written, apply]

theorem foldlM_applyModifier (c : Column) (modifiers : List Modifier) (l : Layout) :
    (Written.links (modifiers.map written) l).foldlM applyModifier c =
      .ok (modifiers.foldl apply c) := by
  induction modifiers generalizing c l with
  | nil => rfl
  | cons m others ih =>
    simp only [List.map_cons, Written.links, List.foldlM_cons, applyModifier_written]
    exact ih _ _

end Modifier

def typeOptions (c : Column) : List TypeOption :=
  (c.length.map .length).toList ++ (c.precision.map .precision).toList
    ++ (c.scale.map .scale).toList ++ (c.enumValues.map .enum).toList

/-- The modifiers that a column needs, in the order in which they are called. -/
def modifiers (c : Column) : List Modifier :=
  (if c.nullable then [] else [.notNull]) ++ (if c.primaryKey then [.primaryKey] else [])
    ++ (if c.unique then [.unique] else []) ++ (c.defaultValue.map .default).toList
    ++ (c.references.map .references).toList

/-- The call that names the type, with a label and the options object. -/
def typeCall (label : Text) (c : Column) : Written.Step :=
  (c.type, [.string label, .object (c.typeOptions.map TypeOption.written)])

def written (label : Text) (c : Column) : Written :=
  .chain (c.typeCall label) (c.modifiers.reverse.map Modifier.written)

/-- The options set the fields of a bare column that belong to the type. -/
theorem foldl_typeOptions (c : Column) :
    c.typeOptions.foldl TypeOption.apply { name := c.name, type := c.type } =
      { name := c.name, type := c.type, length := c.length, precision := c.precision,
        scale := c.scale, enumValues := c.enumValues } := by
  obtain ⟨_, _, _, _, _, _, length, precision, scale, enumValues, _, _⟩ := c
  cases length <;> cases precision <;> cases scale <;> cases enumValues <;> rfl

/-- The modifiers, applied from the outermost inward, set all other fields. -/
theorem foldl_modifiers (c : Column) :
    c.modifiers.reverse.foldl Modifier.apply
        { name := c.name, type := c.type, length := c.length, precision := c.precision,
          scale := c.scale, enumValues := c.enumValues } =
      { c with comments := none } := by
  obtain ⟨_, _, nullable, defaultValue, primaryKey, unique, _, _, _, _, references, _⟩ := c
  cases nullable <;> cases primaryKey <;> cases unique <;> cases defaultValue <;>
    cases references <;> rfl

theorem applyType_written (label : Text) (c : Column) (l : Layout) :
    applyType { name := c.name } ⟨some (c.typeCall label).1, Written.all (c.typeCall label).2 l⟩ =
      { name := c.name, type := c.type, length := c.length, precision := c.precision,
        scale := c.scale, enumValues := c.enumValues } := by
  rw [← foldl_typeOptions]
  exact TypeOption.foldl_applyOption _ _ _

theorem ofChain_written (label : Text) (c : Column) (l l' : Layout) :
    ofChain c.name (Written.links (c.modifiers.reverse.map Modifier.written) l)
        ⟨some (c.typeCall label).1, Written.all (c.typeCall label).2 l'⟩ =
      .ok { c with comments := none } := by
  rw [ofChain, applyType_written, Modifier.foldlM_applyModifier, foldl_modifiers]

/-- The entry of a written column gives the column back. -/
theorem ofEntry_written (includeComments : Bool) (enums : Enums) (label : Text) (c : Column)
    (hc : c.comments = none) (l : Layout) (x : Extent) :
    ofEntry includeComments enums ⟨x, c.name, c.written label l, []⟩ = .ok (c.filled enums) := by
  obtain ⟨l', h⟩ := Written.chain_eq (c.typeCall label)
    (c.modifiers.reverse.map Modifier.written) l
  have hcomments : ({ c with comments := none } : Column) = c := by rw [← hc]
  have hdoc : Comment.documentation? [[]] = none := by decide
  simp only [ofEntry, written, Written.unwrap_chain, h, List.getLast?_concat,
    List.dropLast_concat, ofChain_written, hcomments, withEnum_eq_filled, hdoc]
  cases includeComments
  · rfl
  · simp [filled, ← hc]

def writtenEntries (label : Column → Text) (columns : List Column) : List (Text × Written) :=
  columns.map fun c => (c.name, c.written (label c))

/-- No column of a written map is lost or reported. -/
theorem ofEntries_written (includeComments : Bool) (enums : Enums) (label : Column → Text)
    (columns : List Column) (hc : ∀ c ∈ columns, c.comments = none) (l : Layout) :
    ofEntries includeComments enums (Written.entries (writtenEntries label columns) l) =
      pure (columns.map (filled enums)) := by
  induction columns generalizing l with
  | nil => rfl
  | cons c others ih =>
    have hothers := ih (fun c hmem => hc c (List.mem_cons_of_mem _ hmem)) l.rest
    have hentry := ofEntry_written includeComments enums (label c) c (hc c List.mem_cons_self)
      l.first.first l.first.here
    simp only [writtenEntries] at hothers
    simp only [writtenEntries, List.map_cons, Written.entries, ofEntries, hentry, hothers]
    rfl

end Column
end SchemaAtlas
