import SchemaAtlas.Proofs.Batch.Stages
import SchemaAtlas.Proofs.Declaration.Recast
import SchemaAtlas.Proofs.Expr.Uncommented

/-!
# Declarations without comments

To drop the comments of a declaration is one way to recast it. So a document without comments is
parsed to what the document is parsed to, less the comments of entities and columns.
-/

namespace SchemaAtlas

def Declaration.uncommented (d : Declaration) : Declaration :=
  { d with
    initializer := d.initializer.map Expr.uncommented
    statementComments := []
    comments := [] }

def Document.uncommented (document : Document) : Document :=
  { document with declarations := document.declarations.map Declaration.uncommented }

theorem Declaration.recast_withoutComments (d : Declaration) :
    d.recast .withoutComments = d.uncommented := by
  have hvalue : Expr.recast .withoutComments = Expr.uncommented :=
    funext Expr.recast_withoutComments
  rw [recast, hvalue]
  rfl

namespace Document

end Document
end SchemaAtlas
