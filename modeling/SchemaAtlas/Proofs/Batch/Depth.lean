import SchemaAtlas.Proofs.Batch.FinalTarget
import SchemaAtlas.Proofs.Declaration.Asserted

/-!
# Runs on different stacks

How much of the stack is left decides which declarations are dropped for their depth and nothing
else. A run with more frames left drops no more, and two runs that drop as many come to the same.
-/

namespace SchemaAtlas

open Syntax (Tree)
open Trace (Deepens)

/-- The same run with another number of frames left. -/
def TreeReader.withFrames (reader : TreeReader) (frames : Nat) : TreeReader :=
  { reader with stack := { reader.stack with frames } }

/-- Without any assertions, a document is read as deep on a stack that reaches as far. -/
theorem Document.deepens_of_le {stack stack' : Stack} (hle : stack' ≤ stack) (source : Bytes)
    (root : Tree) (hasErrors : Bool) :
    Deepens (ofTree source stack root hasErrors) (ofTree source stack' root hasErrors) := by
  refine deepens_of_statements (List.forall₂_same.mpr fun p _ => ?_) hasErrors
  exact Declaration.deepens_ofTopLevel hle (.refl false p.2)
    (List.forall₂_same.mpr fun _ _ => ⟨rfl, rfl, rfl⟩)

variable {reader : TreeReader} {id : Text} {dialect : Option Text} {source : Source}

theorem deepens_readSource {reader' : TreeReader} (hread : reader'.read = reader.read)
    (hle : reader'.stack ≤ reader.stack) :
    Deepens (readSource reader id dialect source) (readSource reader' id dialect source) := by
  unfold readSource
  rw [hread]
  split
  · exact .refl _
  · split
    · exact .refl _
    · exact (Document.deepens_of_le hle _ _ _).map Except.ok

/-- A source is read alike with more and with fewer frames left, if as many declarations are
dropped. -/
theorem readSource_withFrames {frames : Nat}
    (hdrops : (readSource (reader.withFrames frames) id dialect source).drops =
      (readSource reader id dialect source).drops) :
    readSource (reader.withFrames frames) id dialect source =
      readSource reader id dialect source := by
  rcases Nat.le_total frames reader.stack.frames with hle | hle
  · have hdeepens : Deepens (readSource reader id dialect source)
        (readSource (reader.withFrames frames) id dialect source) :=
      deepens_readSource rfl ⟨hle, fun _ => Nat.le_refl _, fun _ => Nat.le_refl _⟩
    exact (hdeepens.eq_of_drops_eq hdrops.symm).symm
  · have hdeepens : Deepens (readSource (reader.withFrames frames) id dialect source)
        (readSource reader id dialect source) :=
      deepens_readSource rfl ⟨hle, fun _ => Nat.le_refl _, fun _ => Nat.le_refl _⟩
    exact hdeepens.eq_of_drops_eq hdrops

theorem parseSource_withFrames {frames : Nat} (config : Config)
    (hdrops : (readSource (reader.withFrames frames) id dialect source).drops =
      (readSource reader id dialect source).drops) :
    parseSource (reader.withFrames frames) config id dialect source =
      parseSource reader config id dialect source := by
  rw [parseSource, readSource_withFrames hdrops]
  rfl

namespace Batch

/-- A batch is extracted alike with more and with fewer frames left, if as many declarations of each
document are dropped. -/
theorem ofSources_withFrames {frames : Nat} (config : Config) {sources : Keyed Source}
    (hdrops : ∀ s ∈ sources, (readSource (reader.withFrames frames) s.1 none s.2).drops =
      (readSource reader s.1 none s.2).drops) :
    ofSources (reader.withFrames frames) config sources = ofSources reader config sources := by
  unfold ofSources
  refine congrArg (· >>= ofDocuments config) ?_
  refine mapM_of_forall₂ (R := Eq) (fun _ => rfl) (fun hx hf => hx ▸ congrArg _ (funext hf)) ?_
  refine List.forall₂_same.mpr ?_
  rintro ⟨name, source⟩ hs
  dsimp only
  rw [parseSource_withFrames config (hdrops _ hs)]

/-- A reader for a stack on which a node takes up three frames, and each of its parts is read two
frames on. -/
def callReader (frames : Nat) : TreeReader :=
  ⟨grammarReader.read, frames, fun _ => 2, fun _ => 1⟩

/-- A table whose name stands in parentheses. -/
def nestedSource : Text := "export const as=pgTable((('as')),\x7b\x7d)"

end Batch
end SchemaAtlas
