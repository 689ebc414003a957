import CanonTree.Arena
import CanonTree.Canon.Builder
import CanonTree.Canon.Dump
import CanonTree.Canon.Statistics
import CanonTree.Canon.Tree
import CanonTree.Canon.View
import CanonTree.Cli.Args
import CanonTree.Cli.Help
import CanonTree.Cli.Report
import CanonTree.Cli.Run
import CanonTree.Config.Basic
import CanonTree.Config.File
import CanonTree.Config.Json
import CanonTree.Config.Toml
import CanonTree.Config.Yaml
import CanonTree.Conversion
import CanonTree.Decimal.Shortest
import CanonTree.Entity.Basic
import CanonTree.Entity.Name
import CanonTree.Entity.Registry
import CanonTree.Error
import CanonTree.Files.Inputs
import CanonTree.Files.Path
import CanonTree.Files.Tree
import CanonTree.Json.Names
import CanonTree.Json.Number
import CanonTree.Json.Positions
import CanonTree.Json.Problem
import CanonTree.Json.Raw
import CanonTree.Json.Reader
import CanonTree.Json.Registry
import CanonTree.Json.Value
import CanonTree.Main
import CanonTree.Proofs.Canon.Discipline
import CanonTree.Proofs.Canon.Legible
import CanonTree.Proofs.Canon.Order
import CanonTree.Proofs.Canon.Ranking
import CanonTree.Proofs.Canon.Recovery
import CanonTree.Proofs.Canon.Rows
import CanonTree.Proofs.Cli.Delivery
import CanonTree.Proofs.Cli.Isolation
import CanonTree.Proofs.Cli.Summary
import CanonTree.Proofs.Conversion.Arrangement
import CanonTree.Proofs.Conversion.Charging
import CanonTree.Proofs.Conversion.Correctness
import CanonTree.Proofs.Conversion.Dotted
import CanonTree.Proofs.Conversion.Flattening
import CanonTree.Proofs.Conversion.Frame
import CanonTree.Proofs.Conversion.Image
import CanonTree.Proofs.Conversion.Lines
import CanonTree.Proofs.Conversion.Locating
import CanonTree.Proofs.Conversion.Nearest
import CanonTree.Proofs.Conversion.Opacity
import CanonTree.Proofs.Conversion.Operators
import CanonTree.Proofs.Conversion.Origin
import CanonTree.Proofs.Conversion.Outcome
import CanonTree.Proofs.Conversion.Planting
import CanonTree.Proofs.Conversion.Steps
import CanonTree.Proofs.Conversion.Traversal
import CanonTree.Proofs.Entity.Spelling
import CanonTree.Proofs.Fallible
import CanonTree.Proofs.Files.Collecting
import CanonTree.Proofs.Files.Naming
import CanonTree.Proofs.Files.Sorting
import CanonTree.Proofs.Files.Writing
import CanonTree.Proofs.Growth
import CanonTree.Proofs.Json.Decoding
import CanonTree.Proofs.Json.Grammar
import CanonTree.Proofs.Json.Rephrasing
import CanonTree.Proofs.Json.Spacing
import CanonTree.Proofs.Json.Squeezing
import CanonTree.Proofs.Json.Written
import CanonTree.Proofs.Layout
import CanonTree.Proofs.Levels
import CanonTree.Proofs.Nesting
import CanonTree.Proofs.Preorder
import CanonTree.Proofs.Rose
import CanonTree.Proofs.Source.Lines
import CanonTree.Proofs.Syntax.Accounting
import CanonTree.Proofs.Syntax.Breaks
import CanonTree.Proofs.Syntax.Building
import CanonTree.Proofs.Syntax.Correspondence
import CanonTree.Proofs.Syntax.Dimensions
import CanonTree.Proofs.Syntax.Fields
import CanonTree.Proofs.Syntax.History
import CanonTree.Proofs.Syntax.Interchange
import CanonTree.Proofs.Syntax.Loading
import CanonTree.Proofs.Syntax.Quoting
import CanonTree.Proofs.Syntax.Restating
import CanonTree.Proofs.Syntax.Walking
import CanonTree.Proofs.Text.Bytes
import CanonTree.Proofs.Text.Lines
import CanonTree.Proofs.Text.Searching
import CanonTree.Rose
import CanonTree.Source.Elapsed
import CanonTree.Source.Lines
import CanonTree.Source.Span
import CanonTree.Syntax.Builder
import CanonTree.Syntax.Construct
import CanonTree.Syntax.Document
import CanonTree.Syntax.Document.Reader
import CanonTree.Syntax.Document.Writer
import CanonTree.Syntax.Kind
import CanonTree.Syntax.Label
import CanonTree.Syntax.Node
import CanonTree.Syntax.Rendering
import CanonTree.Syntax.Tree
import CanonTree.Syntax.Walk
import CanonTree.Text.Blank
import CanonTree.Text.Hidden
import CanonTree.Text.Quoted
import CanonTree.Text.Slice
import CanonTree.Toml.Item
import CanonTree.Toml.Reader
import CanonTree.Toml.Scalar
import CanonTree.Yaml.Node
import CanonTree.Yaml.Scalar
import CanonTree.Yaml.Scan
import CanonTree.Yaml.Tag
import CanonTree.Yaml.Token
import CanonTree.Yaml.Tokens
