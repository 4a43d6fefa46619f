import RubyCheck.Cli.Args
import RubyCheck.Cli.Run
import RubyCheck.Config.Load
import RubyCheck.Config.Settings
import RubyCheck.Files.Memory
import RubyCheck.Files.Path
import RubyCheck.Files.System
import RubyCheck.Lint.Edit
import RubyCheck.Lint.Engine
import RubyCheck.Lint.Registry
import RubyCheck.Lint.Rule
import RubyCheck.Lint.Scripted
import RubyCheck.Lint.UseZip
import RubyCheck.Main
import RubyCheck.Pattern.Basic
import RubyCheck.Pattern.Compile
import RubyCheck.Pattern.Match
import RubyCheck.Pattern.Token
import RubyCheck.Report.Basic
import RubyCheck.Report.Json
import RubyCheck.Ruby.Chars
import RubyCheck.Ruby.Cst
import RubyCheck.Ruby.Lower
import RubyCheck.Ruby.Parse
import RubyCheck.Ruby.Reader.Body
import RubyCheck.Ruby.Reader.Call
import RubyCheck.Ruby.Reader.Control
import RubyCheck.Ruby.Reader.Define
import RubyCheck.Ruby.Reader.Expr
import RubyCheck.Ruby.Reader.Grammar
import RubyCheck.Ruby.Reader.Literal
import RubyCheck.Ruby.Reader.Operand
import RubyCheck.Ruby.Reader.Params
import RubyCheck.Ruby.Reader.Pattern
import RubyCheck.Ruby.Reader.State
import RubyCheck.Ruby.Reader.Tie
import RubyCheck.Ruby.Token
import RubyCheck.Source.Buffer
import RubyCheck.Source.Span
import RubyCheck.Text.Blank
import RubyCheck.Text.Digit
import RubyCheck.Text.Hex
import RubyCheck.Text.Printable
import RubyCheck.Text.Quoted
import RubyCheck.Text.Utf8
import RubyCheck.Text.Whole
import RubyCheck.Toml.Document
import RubyCheck.Toml.Marks
import RubyCheck.Toml.Scalar
import RubyCheck.Toml.Scan
import RubyCheck.Toml.Value
import RubyCheck.Tree.Access
import RubyCheck.Tree.Kind
import RubyCheck.Tree.Node
import RubyCheck.Tree.Plan
import RubyCheck.Tree.Shape
import RubyCheck.Tree.Store
import RubyCheck.Tree.Structure
import RubyCheck.Tree.Walk
import RubyCheck.Proofs.Edit.Order
import RubyCheck.Proofs.Edit.Splice
import RubyCheck.Proofs.Text.Utf8
import RubyCheck.Proofs.Edit.Resolve
import RubyCheck.Proofs.Pattern.Grammar
import RubyCheck.Proofs.Pattern.Compile
import RubyCheck.Proofs.Tree.Shape
import RubyCheck.Proofs.Tree.Readers
import RubyCheck.Proofs.Tree.Same
import RubyCheck.Proofs.Pattern.Semantics
import RubyCheck.Proofs.Tree.Preorder
import RubyCheck.Proofs.Pattern.Structure
import RubyCheck.Proofs.Source.Lines
import RubyCheck.Proofs.Edit.Characters
import RubyCheck.Proofs.Lint.Dispatch
import RubyCheck.Proofs.Lint.Fixing
import RubyCheck.Proofs.Tree.Layout
import RubyCheck.Proofs.Tree.Links
import RubyCheck.Proofs.Tree.Traversal
import RubyCheck.Proofs.Tree.Ownership
import RubyCheck.Proofs.Tree.Construction
import RubyCheck.Proofs.Lint.ZipOffenses
import RubyCheck.Proofs.Files.Memory
import RubyCheck.Proofs.Cli.Outcome
import RubyCheck.Proofs.Edit.Boundaries
import RubyCheck.Proofs.Ruby.Formed
import RubyCheck.Proofs.Ruby.Lowering
import RubyCheck.Proofs.Ruby.Parameters
import RubyCheck.Proofs.Ruby.ParameterList
import RubyCheck.Proofs.Ruby.Convert
import RubyCheck.Proofs.Ruby.Program
import RubyCheck.Proofs.Ruby.Numbered
import RubyCheck.Proofs.Lint.ZipEdits
