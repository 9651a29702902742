import SchemaAtlas.Proofs.Expr.Recast

/-!
# Expressions without comments

An expression keeps comments at the entries of its objects only. To drop them is one way to recast
the expression, so it changes nothing that a reader of expressions looks at.
-/

namespace SchemaAtlas

/-- All lines stay, and all comments go. -/
def Recasting.withoutComments : Recasting := ⟨id, fun _ => [], fun _ => rfl⟩

namespace Expr

mutual

def uncommented : Expr → Expr
  | identifier x name => identifier x name
  | memberAccess x receiver property => memberAccess x receiver.uncommented property
  | call x callee arguments => call x callee.uncommented (allUncommented arguments)
  | string x value => string x value
  | template x raw substitutions => template x raw (allUncommented substitutions)
  | number x value => number x value
  | boolean x value => boolean x value
  | array x elements => array x (allUncommented elements)
  | object x properties => object x (entriesUncommented properties)
  | function x parameters body => function x parameters body.uncommented
  | parenthesized x e => parenthesized x e.uncommented
  | block x statements => block x (allUncommented statements)
  | returned x e => returned x (resultUncommented e)
  | other x kind => other x kind

def allUncommented : List Expr → List Expr
  | [] => []
  | e :: es => e.uncommented :: allUncommented es

def entriesUncommented : List Entry → List Entry
  | [] => []
  | ⟨x, key, value, _⟩ :: entries => ⟨x, key, value.uncommented, []⟩ :: entriesUncommented entries

def resultUncommented : Option Expr → Option Expr
  | none => none
  | some e => some e.uncommented

end

end Expr

def Property.uncommented (entry : Entry) : Entry :=
  { entry with value := entry.value.uncommented, comments := [] }

namespace Expr

@[simp] theorem allUncommented_eq (es : List Expr) : allUncommented es = es.map uncommented := by
  induction es with
  | nil => rfl
  | cons e es ih => rw [allUncommented, ih, List.map_cons]

@[simp] theorem entriesUncommented_eq (entries : List Entry) :
    entriesUncommented entries = entries.map Property.uncommented := by
  induction entries with
  | nil => rfl
  | cons entry entries ih =>
    rw [entriesUncommented, ih, List.map_cons]
    rfl

@[simp] theorem resultUncommented_eq (e : Option Expr) :
    resultUncommented e = e.map uncommented := by
  cases e <;> rfl

mutual

theorem recast_withoutComments : (e : Expr) → e.recast .withoutComments = e.uncommented
  | identifier .. | string .. | number .. | boolean .. | other .. => rfl
  | memberAccess x receiver property => by
    rw [recast, recast_withoutComments receiver]
    rfl
  | call x callee arguments => by
    rw [recast, recast_withoutComments callee, allRecast_withoutComments arguments]
    rfl
  | template x raw substitutions => by
    rw [recast, allRecast_withoutComments substitutions]
    rfl
  | array x elements => by
    rw [recast, allRecast_withoutComments elements]
    rfl
  | object x properties => by
    rw [recast, entriesRecast_withoutComments properties]
    rfl
  | function x parameters body => by
    rw [recast, recast_withoutComments body]
    rfl
  | parenthesized x e => by
    rw [recast, recast_withoutComments e]
    rfl
  | block x statements => by
    rw [recast, allRecast_withoutComments statements]
    rfl
  | returned x none => rfl
  | returned x (some e) => by
    rw [recast, resultRecast, recast_withoutComments e]
    rfl

theorem allRecast_withoutComments :
    (es : List Expr) → allRecast .withoutComments es = allUncommented es
  | [] => rfl
  | e :: es => by
    rw [allRecast, recast_withoutComments e, allRecast_withoutComments es, allUncommented]

theorem entriesRecast_withoutComments :
    (entries : List Entry) → entriesRecast .withoutComments entries = entriesUncommented entries
  | [] => rfl
  | ⟨x, key, value, comments⟩ :: entries => by
    rw [entriesRecast, recast_withoutComments value, entriesRecast_withoutComments entries]
    rfl

end

end Expr
end SchemaAtlas
