import SchemaAtlas.Number.Numeral

/-!
# Plain values

What a configuration is written as before it is validated.
-/

namespace SchemaAtlas

/-- A plain value. `foreign` stands for scalars of other types, such as dates. -/
inductive Value where
  | null
  | boolean (value : Bool)
  | integer (value : Int)
  | float (value : Binary64)
  | text (value : Text)
  | list (items : List Value)
  | map (entries : List (Value × Value))
  | foreign (type : String)
  deriving Inhabited

namespace Value

/-- Whether a value counts as nothing: none, false, zero, or empty. -/
def isVoid : Value → Bool
  | null => true
  | boolean value => !value
  | integer value => value == 0
  | float value => value.toInt? == some 0
  | text value => value.isEmpty
  | list items => items.isEmpty
  | map entries => entries.isEmpty
  | foreign _ => false

/-- The value of a text key in the entries of a map; the last entry counts. -/
def field? (entries : List (Value × Value)) (key : Text) : Option Value :=
  entries.foldl (fun found (k, v) => match k with
    | text t => if t = key then some v else found
    | _ => found) none

end Value
end SchemaAtlas
