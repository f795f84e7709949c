import Interop.Session
import Interop.DryRun
import Interop.Code.Document
import Interop.Form.Document
import Interop.Expr.Summary
import Interop.Proofs.Analysis.Recursion
import Interop.Proofs.Analysis.Inversion
import Interop.Proofs.Analysis.Parts
import Interop.Proofs.Code.Linked
import Interop.Proofs.Analysis.Provided
import Interop.Proofs.Evaluation.Operation
import Interop.Proofs.Evaluation.Run
import Interop.Proofs.Evaluation.Recording
import Interop.Proofs.Evaluation.Agreement
import Interop.Proofs.Code.Machine
import Interop.Proofs.Code.Typing
import Interop.Proofs.Analysis.GenericArity
import Interop.Proofs.Evaluation.Locals
import Interop.Proofs.DryRun
import Interop.Proofs.Evaluation.ByRef
import Interop.Proofs.Text.Position
import Interop.Proofs.Token.Place
import Interop.Proofs.Form.Nesting
import Interop.Proofs.Form.Resumption
import Interop.Proofs.Form.Grammar
import Interop.Proofs.Form.Spans
import Interop.Proofs.Expr.Relabel
import Interop.Proofs.Token.LineBreak
import Interop.Proofs.Form.LineBreak
import Interop.Proofs.Catalog.Entry
import Interop.Proofs.Except
import Interop.Proofs.Catalog.Resolution
import Interop.Proofs.Catalog.Loading
import Interop.Proofs.Catalog.Extension
import Interop.Proofs.Catalog.Reach
import Interop.Proofs.Catalog.Closure
import Interop.Proofs.Catalog.Order
import Interop.Proofs.Analysis.Relabel
import Interop.Proofs.Code.Relabel
import Interop.Proofs.Code.OverflowMode
import Interop.Proofs.Form.Integer
import Interop.Proofs.Layout
import Interop.Proofs.Analysis.Growth
import Interop.Proofs.Catalog.Conservative
import Interop.Proofs.Analysis.Built
import Interop.Proofs.Code.Conversions
import Interop.Proofs.Analysis.Assignment
import Interop.Proofs.Analysis.Members
import Interop.Proofs.Analysis.Values
import Interop.Proofs.Evaluation.Faults
import Interop.Proofs.Text.Lines
import Interop.Proofs.Form.ErrorPlace
import Interop.Proofs.Decimal.Literal
import Interop.Proofs.Token.Separation
import Interop.Proofs.Form.Datum
import Interop.Proofs.Form.RoundTrip
import Interop.Proofs.Analysis.ArrayName
import Interop.Proofs.Catalog.Lineage
import Interop.Proofs.Catalog.Inheritance
import Interop.Proofs.Catalog.Listing
import Interop.Proofs.Catalog.Retyping
import Interop.Proofs.Analysis.Overload
import Interop.Proofs.Analysis.TypeName
import Interop.Proofs.Catalog.Outcome
import Interop.Proofs.Analysis.ArrayLookup
import Interop.Proofs.Catalog.BaseSearch
import Interop.Proofs.Catalog.Reference
import Interop.Proofs.Code.Reference
import Interop.Proofs.Analysis.Warnings
import Interop.Proofs.Analysis.TargetPosition
import Interop.Proofs.Analysis.AccessStyle
import Interop.Proofs.Scope
import Interop.Proofs.Code.Locals
import Interop.Proofs.Analysis.Shadowing
import Interop.Proofs.Text.Slice
import Interop.Proofs.Token.Partition
import Interop.Proofs.Token.Stretch
import Interop.Proofs.Form.SpanText
import Interop.Proofs.Analysis.ErrorSpan
import Interop.Proofs.ErrorReport
import Interop.Proofs.Text.Bytes
import Interop.Proofs.Text.LineSearch
import Interop.Proofs.Token.Lookahead
import Interop.Proofs.Form.Progress
import Interop.Proofs.Token.StringScan
