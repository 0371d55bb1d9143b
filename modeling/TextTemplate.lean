import TextTemplate.Analysis
import TextTemplate.Decimal.Basic
import TextTemplate.Decimal.Text
import TextTemplate.Diagnostic
import TextTemplate.Digest
import TextTemplate.Double.Arithmetic
import TextTemplate.Double.Basic
import TextTemplate.Double.Data
import TextTemplate.Double.Shortest
import TextTemplate.Double.Text
import TextTemplate.Environment
import TextTemplate.Evaluation
import TextTemplate.Expr.Basic
import TextTemplate.Expr.Parser
import TextTemplate.Expr.Postfix
import TextTemplate.Expr.Printer
import TextTemplate.Fault
import TextTemplate.Interchange.Diagnostic
import TextTemplate.Interchange.Expr
import TextTemplate.Interchange.Limits
import TextTemplate.Interchange.Node
import TextTemplate.Interchange.Numeric
import TextTemplate.Interchange.Record
import TextTemplate.Interchange.Span
import TextTemplate.Json.Basic
import TextTemplate.Json.Reader
import TextTemplate.Json.Writer
import TextTemplate.Limits
import TextTemplate.Node.Basic
import TextTemplate.Node.Parser
import TextTemplate.Node.Printer
import TextTemplate.Numeric.Arithmetic
import TextTemplate.Numeric.Basic
import TextTemplate.Numeric.Text
import TextTemplate.Operator
import TextTemplate.Outline
import TextTemplate.Piece
import TextTemplate.Registry.Basic
import TextTemplate.Registry.Standard
import TextTemplate.Rendering
import TextTemplate.Source.Basic
import TextTemplate.Source.Span
import TextTemplate.Statement
import TextTemplate.Template
import TextTemplate.Text.Blank
import TextTemplate.Text.Digits
import TextTemplate.Text.Printable
import TextTemplate.Token.Basic
import TextTemplate.Token.Lexer
import TextTemplate.Value.Basic
import TextTemplate.Value.Data
import TextTemplate.Value.Equality
import TextTemplate.Value.Operation
import TextTemplate.Proofs.Expr.Grammar
import TextTemplate.Proofs.Expr.Postfix
import TextTemplate.Proofs.Expr.Prefixes
import TextTemplate.Proofs.Expr.Soundness
import TextTemplate.Proofs.Expr.Completeness
import TextTemplate.Proofs.Expr.Reading
import TextTemplate.Proofs.Node.Events
import TextTemplate.Proofs.Node.Machine
import TextTemplate.Proofs.Node.Outlines
import TextTemplate.Proofs.Node.Pieces
import TextTemplate.Proofs.Node.Reading
import TextTemplate.Proofs.Json.Strings
import TextTemplate.Proofs.Decimal.Reading
import TextTemplate.Proofs.Double.Shortest
import TextTemplate.Proofs.Json.Reading
import TextTemplate.Proofs.Double.Data
import TextTemplate.Proofs.Expr.Words
import TextTemplate.Proofs.Node.Words
import TextTemplate.Proofs.Interchange.Leaves
import TextTemplate.Proofs.Interchange.Expr
import TextTemplate.Proofs.Interchange.Node
import TextTemplate.Proofs.Interchange.Template
import TextTemplate.Proofs.Interchange.Depth
import TextTemplate.Proofs.Decimal.Value
import TextTemplate.Proofs.Double.Nearest
import TextTemplate.Proofs.Decimal.Rounded
import TextTemplate.Proofs.Numeric.Values
import TextTemplate.Proofs.Numeric.Spelling
import TextTemplate.Proofs.Token.Strings
import TextTemplate.Proofs.Token.Lexed
import TextTemplate.Proofs.Expr.Alike
import TextTemplate.Proofs.Expr.Printed
import TextTemplate.Proofs.Expr.Lexed
import TextTemplate.Proofs.Expr.Sealed
import TextTemplate.Proofs.Node.Alike
import TextTemplate.Proofs.Node.Scanned
import TextTemplate.Proofs.Node.Statements
import TextTemplate.Proofs.Node.Printed
import TextTemplate.Proofs.Template.Printed
import TextTemplate.Proofs.Node.Rendered
import TextTemplate.Proofs.Node.Scopes
import TextTemplate.Proofs.Template.Analysis
import TextTemplate.Proofs.Numeric.Steady
import TextTemplate.Proofs.Template.Rendered
import TextTemplate.Proofs.Decimal.Arithmetic
import TextTemplate.Proofs.Double.Integers
import TextTemplate.Proofs.Numeric.Exact
import TextTemplate.Proofs.Interchange.Exported
import TextTemplate.Proofs.Node.Depth
import TextTemplate.Proofs.Template.Limits
import TextTemplate.Proofs.Expr.Moved
import TextTemplate.Proofs.Node.Closers
import TextTemplate.Proofs.Node.Moved
import TextTemplate.Proofs.Node.Joined
import TextTemplate.Proofs.Template.Joined
import TextTemplate.Proofs.Template.Placed
import TextTemplate.Proofs.Token.Taken
import TextTemplate.Proofs.Token.Cuts
import TextTemplate.Proofs.Text.Bytes
import TextTemplate.Proofs.Node.Passed
import TextTemplate.Proofs.Checked.Position
import TextTemplate.Proofs.Checked.Reading
import TextTemplate.Proofs.Checked.Scanners
import TextTemplate.Proofs.Checked.Lexer
import TextTemplate.Proofs.Checked.Tags
import TextTemplate.Proofs.Checked.Ranges
import TextTemplate.Proofs.Checked.Statements
import TextTemplate.Proofs.Checked.Expressions
import TextTemplate.Proofs.Checked.Blocks
import TextTemplate.Proofs.Checked.Branches
import TextTemplate.Proofs.Checked.Nodes
import TextTemplate.Proofs.Decimal.Quotients
import TextTemplate.Proofs.Numeric.Quotients
import TextTemplate.Proofs.Decimal.Order
import TextTemplate.Proofs.Decimal.Doubles
import TextTemplate.Proofs.Numeric.Order
import TextTemplate.Proofs.Source.Positions
import TextTemplate.Proofs.Token.Spans
import TextTemplate.Proofs.Expr.Spans
import TextTemplate.Proofs.Node.Tiles
import TextTemplate.Proofs.Node.Spans
import TextTemplate.Proofs.Template.Spans
import TextTemplate.Proofs.Double.Rounding
import TextTemplate.Proofs.Numeric.Displays
import TextTemplate.Proofs.Numeric.Differences
import TextTemplate.Proofs.Numeric.Powers
import TextTemplate.Proofs.Numeric.Conversions
import TextTemplate.Proofs.Numeric.Congruence
import TextTemplate.Proofs.Numeric.Reduction
import TextTemplate.Proofs.Numeric.Accepted
import TextTemplate.Proofs.Token.Numbers
import TextTemplate.Proofs.Value.Canonical
import TextTemplate.Proofs.Value.Equality
import TextTemplate.Proofs.Value.Evaluated
import TextTemplate.Proofs.Value.Paths
import TextTemplate.Proofs.Token.Ranges
import TextTemplate.Proofs.Expr.Suffixes
import TextTemplate.Proofs.Source.Places
import TextTemplate.Proofs.Source.Lines
import TextTemplate.Proofs.Source.Marked
import TextTemplate.Proofs.Token.Covered
import TextTemplate.Proofs.Token.Faults
import TextTemplate.Proofs.Expr.Faults
import TextTemplate.Proofs.Node.Origins
import TextTemplate.Proofs.Node.Faults
import TextTemplate.Proofs.Template.Faults
import TextTemplate.Proofs.Expr.Expected
import TextTemplate.Proofs.Checked.Quotes
import TextTemplate.Proofs.Checked.Contained
import TextTemplate.Proofs.Expr.Balanced
import TextTemplate.Proofs.Expr.Needed
import TextTemplate.Proofs.Expr.Operands
