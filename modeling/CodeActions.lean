import CodeActions.Action
import CodeActions.Branch.Chain
import CodeActions.Branch.Conditional
import CodeActions.Branch.If
import CodeActions.Branch.ShortCircuit
import CodeActions.Branch.Swap
import CodeActions.Branch.Switch
import CodeActions.Catalog
import CodeActions.CommandLine.Arguments
import CodeActions.CommandLine.Run
import CodeActions.Config
import CodeActions.Dialect
import CodeActions.Document
import CodeActions.Edit.Basic
import CodeActions.Edit.Json
import CodeActions.Engine
import CodeActions.FileName
import CodeActions.Files
import CodeActions.Function.Binding
import CodeActions.Function.Body
import CodeActions.Function.Form
import CodeActions.Function.Signature
import CodeActions.Json.Basic
import CodeActions.Json.Printer
import CodeActions.Json.Reader
import CodeActions.Literal.Chunk
import CodeActions.Literal.Concatenation
import CodeActions.Literal.Template
import CodeActions.Main
import CodeActions.Path
import CodeActions.Position
import CodeActions.Proofs.Session.Turn
import CodeActions.Proofs.Text.Slice
import CodeActions.Registry
import CodeActions.Selection
import CodeActions.Session.Basic
import CodeActions.Session.Command
import CodeActions.Session.Offer
import CodeActions.Session.Workspace
import CodeActions.Snippet
import CodeActions.Span
import CodeActions.Statement.Declaration
import CodeActions.Statement.Guard
import CodeActions.Statement.Loop
import CodeActions.Text.Blank
import CodeActions.Text.Bond
import CodeActions.Text.Cluster
import CodeActions.Text.Cut
import CodeActions.Text.Extender
import CodeActions.Text.Printable
import CodeActions.Text.Quoted
import CodeActions.Text.Ranges
import CodeActions.Text.Unsigned
import CodeActions.Transform
import CodeActions.Tree.Bank
import CodeActions.Tree.Basic
import CodeActions.Tree.Errors
import CodeActions.Tree.Expression
import CodeActions.Tree.Node
import CodeActions.Tree.Rows
import CodeActions.Tree.Search
import CodeActions.Tree.Statement
import CodeActions.Wrap
import CodeActions.Proofs.Session.Refusal
import CodeActions.Proofs.Catalog
import CodeActions.Proofs.Session.Document
import CodeActions.Proofs.Session.Saving
import CodeActions.Proofs.Tree.Fits
import CodeActions.Proofs.Branch
import CodeActions.Proofs.Function
import CodeActions.Proofs.Literal
import CodeActions.Proofs.Action
import CodeActions.Proofs.Path
import CodeActions.Proofs.Covering
import CodeActions.Proofs.Position
import CodeActions.Proofs.Offset
import CodeActions.Proofs.Session.Listing
import CodeActions.Proofs.Session.Selection
import CodeActions.Proofs.Selection
import CodeActions.Proofs.CommandLine
import CodeActions.Proofs.Kind
import CodeActions.Proofs.Ranking
import CodeActions.Proofs.Snippet
import CodeActions.Proofs.Literal.Holes
import CodeActions.Proofs.Statement.Guard
import CodeActions.Proofs.Branch.Lines
import CodeActions.Proofs.Statement.Ending
import CodeActions.Proofs.Statement.Declaration
import CodeActions.Proofs.Branch.Else
import CodeActions.Proofs.Branch.Valuation
import CodeActions.Proofs.Branch.Switch
import CodeActions.Proofs.Branch.Equality
import CodeActions.Proofs.Tree.Search
import CodeActions.Proofs.Function.Binding
import CodeActions.Proofs.Literal.Value
import CodeActions.Proofs.Literal.Requote
import CodeActions.Proofs.Literal.Embedding
import CodeActions.Proofs.Branch.Expression
import CodeActions.Proofs.Branch.Conditional
import CodeActions.Proofs.Literal.Addition
import CodeActions.Proofs.Literal.Concatenation
import CodeActions.Proofs.Branch.Dispatch
import CodeActions.Proofs.Branch.Break
import CodeActions.Proofs.Branch.Suspension
import CodeActions.Proofs.Branch.Sequence
import CodeActions.Proofs.Branch.Circuit
import CodeActions.Proofs.Function.Body
import CodeActions.Proofs.Function.Refusal
import CodeActions.Proofs.Text.Layout
import CodeActions.Proofs.Selection.Grammar
import CodeActions.Proofs.Session.Command
import CodeActions.Proofs.Edit
import CodeActions.Proofs.Tree.Errors
import CodeActions.Proofs.Edit.Json
import CodeActions.Proofs.Literal.Settled
import CodeActions.Proofs.Wrap
