import SchemaAtlas.Batch.Catalog
import SchemaAtlas.Batch.Document
import SchemaAtlas.Batch.Extraction
import SchemaAtlas.Batch.Source
import SchemaAtlas.Batch.Statistics
import SchemaAtlas.Column.OfEntry
import SchemaAtlas.Config.Basic
import SchemaAtlas.Config.Loading
import SchemaAtlas.Config.Validation
import SchemaAtlas.Config.Value
import SchemaAtlas.Declaration.Basic
import SchemaAtlas.Declaration.Kind
import SchemaAtlas.Entity.Basic
import SchemaAtlas.Entity.Classification
import SchemaAtlas.Expr.Basic
import SchemaAtlas.Expr.Escape
import SchemaAtlas.Expr.OfTree
import SchemaAtlas.Files.Basic
import SchemaAtlas.Files.Path
import SchemaAtlas.Keyed
import SchemaAtlas.Markup.Cursor
import SchemaAtlas.Markup.Meaning
import SchemaAtlas.Markup.Node
import SchemaAtlas.Markup.Scalar
import SchemaAtlas.Markup.Token
import SchemaAtlas.Number.Binary64
import SchemaAtlas.Number.Numeral
import SchemaAtlas.Proofs.Batch.Attachment
import SchemaAtlas.Proofs.Batch.Contribution
import SchemaAtlas.Proofs.Batch.Divided
import SchemaAtlas.Proofs.Batch.DocumentIds
import SchemaAtlas.Proofs.Batch.Encodable
import SchemaAtlas.Proofs.Batch.Files
import SchemaAtlas.Proofs.Batch.FinalTarget
import SchemaAtlas.Proofs.Batch.Interleaved
import SchemaAtlas.Proofs.Batch.Isolation
import SchemaAtlas.Proofs.Batch.Linked
import SchemaAtlas.Proofs.Batch.Order
import SchemaAtlas.Proofs.Batch.Parsed
import SchemaAtlas.Proofs.Batch.Rejected
import SchemaAtlas.Proofs.Batch.Returns
import SchemaAtlas.Proofs.Batch.Run
import SchemaAtlas.Proofs.Batch.Sharing
import SchemaAtlas.Proofs.Batch.SourceComments
import SchemaAtlas.Proofs.Batch.Stages
import SchemaAtlas.Proofs.Batch.Statistics
import SchemaAtlas.Proofs.Batch.WellFormed
import SchemaAtlas.Proofs.Column.IntegerDefault
import SchemaAtlas.Proofs.Column.Modifiers
import SchemaAtlas.Proofs.Column.Respelled
import SchemaAtlas.Proofs.Column.Rewritten
import SchemaAtlas.Proofs.Comment.Cleaned
import SchemaAtlas.Proofs.Comment.Content
import SchemaAtlas.Proofs.Comment.Paragraphs
import SchemaAtlas.Proofs.Config.Checked
import SchemaAtlas.Proofs.Config.Fields
import SchemaAtlas.Proofs.Config.Form
import SchemaAtlas.Proofs.Config.Markers
import SchemaAtlas.Proofs.Config.NormalForm
import SchemaAtlas.Proofs.Config.Place
import SchemaAtlas.Proofs.Declaration.Asserted
import SchemaAtlas.Proofs.Declaration.Overridden
import SchemaAtlas.Proofs.Declaration.Parenthesized
import SchemaAtlas.Proofs.Declaration.Recast
import SchemaAtlas.Proofs.Declaration.Texts
import SchemaAtlas.Proofs.Declaration.Uncommented
import SchemaAtlas.Proofs.Distinct
import SchemaAtlas.Proofs.Entity.AuditRoles
import SchemaAtlas.Proofs.Entity.Classification
import SchemaAtlas.Proofs.Entity.Stages
import SchemaAtlas.Proofs.Entity.Texts
import SchemaAtlas.Proofs.Expr.Asserted
import SchemaAtlas.Proofs.Expr.Chained
import SchemaAtlas.Proofs.Expr.CodePoints
import SchemaAtlas.Proofs.Expr.Pruned
import SchemaAtlas.Proofs.Expr.Recast
import SchemaAtlas.Proofs.Expr.Returned
import SchemaAtlas.Proofs.Expr.Rewritten
import SchemaAtlas.Proofs.Expr.SourceComments
import SchemaAtlas.Proofs.Expr.StringLiteral
import SchemaAtlas.Proofs.Expr.Uncommented
import SchemaAtlas.Proofs.Expr.Unreadable
import SchemaAtlas.Proofs.Expr.Written
import SchemaAtlas.Proofs.Files.Dialect
import SchemaAtlas.Proofs.Files.DocumentId
import SchemaAtlas.Proofs.Keyed
import SchemaAtlas.Proofs.Number.Digits
import SchemaAtlas.Proofs.Number.IntegerLiteral
import SchemaAtlas.Proofs.Outcome
import SchemaAtlas.Proofs.Relation.Assignment
import SchemaAtlas.Proofs.Relation.Declared
import SchemaAtlas.Proofs.Relation.InPlace
import SchemaAtlas.Proofs.Relation.Junctions
import SchemaAtlas.Proofs.Relation.Origins
import SchemaAtlas.Proofs.Relation.Rearranged
import SchemaAtlas.Proofs.Relation.Rewritten
import SchemaAtlas.Proofs.Relation.Settlement
import SchemaAtlas.Proofs.Relation.Spelled
import SchemaAtlas.Proofs.Syntax.Asserted
import SchemaAtlas.Proofs.Syntax.LeadingComments
import SchemaAtlas.Proofs.Syntax.Uncommented
import SchemaAtlas.Proofs.Table.Extras
import SchemaAtlas.Proofs.Table.Modifiers
import SchemaAtlas.Proofs.Table.Rearranged
import SchemaAtlas.Proofs.Table.Respelled
import SchemaAtlas.Proofs.Table.Rewritten
import SchemaAtlas.Proofs.Table.RoundTrip
import SchemaAtlas.Proofs.Table.Texts
import SchemaAtlas.Proofs.Table.WrittenColumn
import SchemaAtlas.Proofs.Table.WrittenExtra
import SchemaAtlas.Proofs.Text.CodePoints
import SchemaAtlas.Proofs.Text.Erased
import SchemaAtlas.Proofs.Text.Lines
import SchemaAtlas.Proofs.Text.LowerCase
import SchemaAtlas.Proofs.Text.Trimmed
import SchemaAtlas.Proofs.Text.Utf8
import SchemaAtlas.Relation.OfDeclaration
import SchemaAtlas.Relation.Resolution
import SchemaAtlas.Report.Event
import SchemaAtlas.Report.Mismatch
import SchemaAtlas.Report.Trace
import SchemaAtlas.Syntax.Grammar
import SchemaAtlas.Syntax.Lexeme
import SchemaAtlas.Syntax.Parser
import SchemaAtlas.Syntax.Tree
import SchemaAtlas.Table.Extras
import SchemaAtlas.Table.OfDeclaration
import SchemaAtlas.Text.Basic
import SchemaAtlas.Text.CaseTable
import SchemaAtlas.Text.Comment
import SchemaAtlas.Text.LowerCase
import SchemaAtlas.Text.Printable
import SchemaAtlas.Text.Quoted
import SchemaAtlas.Text.Utf8
