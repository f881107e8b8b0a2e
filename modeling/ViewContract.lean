import ViewContract.Compile
import ViewContract.Guard.Writer
import ViewContract.Record
import ViewContract.Template.Render
import ViewContract.Proofs.Annotation.Occurrence
import ViewContract.Proofs.Splice
import ViewContract.Proofs.Annotation.Partition
import ViewContract.Proofs.Compile
import ViewContract.Proofs.Annotation.Outside
import ViewContract.Proofs.Annotation.Stripping
import ViewContract.Proofs.Template.Passage
import ViewContract.Proofs.Text.Ascii
import ViewContract.Proofs.Template.Lexeme
import ViewContract.Proofs.Template.Marks
import ViewContract.Proofs.Template.Chunk
import ViewContract.Proofs.Number.Rounding
import ViewContract.Proofs.Number.Shortest
import ViewContract.Proofs.Guard.Tags
import ViewContract.Proofs.Guard.Scan
import ViewContract.Proofs.Guard.Nodes
import ViewContract.Proofs.Annotation.Declared
import ViewContract.Proofs.Guard.Exact
import ViewContract.Proofs.Guard.Default
import ViewContract.Proofs.Template.SelfContained
import ViewContract.Proofs.Guard.RawCode
import ViewContract.Proofs.Template.Preprocess
import ViewContract.Proofs.Signature.Quoted
import ViewContract.Signature.Written
import ViewContract.Proofs.Text.ClassName
import ViewContract.Proofs.Text.Blank
import ViewContract.Proofs.Number.Signed
import ViewContract.Proofs.Signature.Lexeme
import ViewContract.Proofs.Signature.Parameter
import ViewContract.Proofs.Signature.Listed
import ViewContract.Entry
import ViewContract.Proofs.Text.Lines
import ViewContract.Proofs.Text.Lowercase
import ViewContract.Proofs.Docblock.Line
import ViewContract.Proofs.Docblock.Type
import ViewContract.Proofs.Entry
import ViewContract.Proofs.Signature.Number
import ViewContract.Proofs.Number.Overflow
import ViewContract.Proofs.NumericDefault
import ViewContract.Proofs.IntegerDefault
import ViewContract.Proofs.TextDefault
import ViewContract.Proofs.Docblock.Default
import ViewContract.Proofs.InRange
import ViewContract.Proofs.Signature.Range
import ViewContract.Proofs.Docblock.Range
import ViewContract.Proofs.OutOfRange
import ViewContract.Proofs.Outcome
import ViewContract.Proofs.Annotation.QuotedDefault
import ViewContract.Proofs.Invisible
import ViewContract.Proofs.Annotation.Complete
import ViewContract.Guard.Session
import ViewContract.Template.CodePoint
import ViewContract.Proofs.Guard.Statements
import ViewContract.Proofs.Guard.Session
import ViewContract.Proofs.Annotation.WellFormed
import ViewContract.Proofs.Signature.Pieces
import ViewContract.Proofs.Annotation.Enclosed
import ViewContract.Proofs.Annotation.Ending
import ViewContract.Proofs.Signature.Expressible
import ViewContract.Proofs.Names
import ViewContract.Proofs.Replacement
import ViewContract.Proofs.Text.Breaks
import ViewContract.Proofs.Template.Line
import ViewContract.Proofs.Docblock.Union
import ViewContract.Proofs.Docblock.Tag
import ViewContract.Proofs.Docblock.Decoration
import ViewContract.Proofs.Signature.Seam
import ViewContract.Proofs.Signature.Grammar
import ViewContract.Proofs.Annotation.Joined
import ViewContract.Proofs.Signature.Reading
import ViewContract.Proofs.Signature.Recursion
import ViewContract.Proofs.Signature.Settled
import ViewContract.Proofs.Docblock.Nesting
import ViewContract.Proofs.Docblock.Wrapping
import ViewContract.Proofs.Signature.Local
import ViewContract.Proofs.Signature.Coverage
import ViewContract.Proofs.Template.RawCode
import ViewContract.Proofs.Signature.Token
import ViewContract.Proofs.Value.Kind
import ViewContract.Proofs.Guard.Mismatch
