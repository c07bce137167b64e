import LispShell.Binary64
import LispShell.CommandLine
import LispShell.CommandLine.Console
import LispShell.CommandLine.Flags
import LispShell.CommandLine.History
import LispShell.CommandLine.Input
import LispShell.CommandLine.Repl
import LispShell.Decimal.Layout
import LispShell.Decimal.Numeral
import LispShell.Decimal.Shortest
import LispShell.Desk
import LispShell.Disk
import LispShell.Eval
import LispShell.Expr
import LispShell.Fault
import LispShell.Frame
import LispShell.Imports
import LispShell.Log
import LispShell.Machine
import LispShell.Main
import LispShell.Module.Strings
import LispShell.Module.Surroundings
import LispShell.Number
import LispShell.Path
import LispShell.Platform
import LispShell.Power
import LispShell.Program
import LispShell.Proofs.Arguments
import LispShell.Proofs.Arithmetic
import LispShell.Proofs.Atom
import LispShell.Proofs.Binary64
import LispShell.Proofs.Binary64.Order
import LispShell.Proofs.Branches
import LispShell.Proofs.Cancellation
import LispShell.Proofs.Comparison
import LispShell.Proofs.Decimal.Numeral
import LispShell.Proofs.Decimal.RoundTrip
import LispShell.Proofs.Decimal.Shortest
import LispShell.Proofs.DefaultCommand
import LispShell.Proofs.Derivation
import LispShell.Proofs.Desk
import LispShell.Proofs.Dialogue
import LispShell.Proofs.Drivers
import LispShell.Proofs.Echo
import LispShell.Proofs.Equality
import LispShell.Proofs.FailStop
import LispShell.Proofs.Frame
import LispShell.Proofs.Grouping
import LispShell.Proofs.Identities
import LispShell.Proofs.Imports
import LispShell.Proofs.Integers
import LispShell.Proofs.Isolation
import LispShell.Proofs.Lexing
import LispShell.Proofs.Literals
import LispShell.Proofs.Made
import LispShell.Proofs.Orderly
import LispShell.Proofs.Patience
import LispShell.Proofs.Platform
import LispShell.Proofs.Printing
import LispShell.Proofs.Program
import LispShell.Proofs.Reader
import LispShell.Proofs.Recovery
import LispShell.Proofs.Reports
import LispShell.Proofs.Resolution
import LispShell.Proofs.Scope
import LispShell.Proofs.Sharing
import LispShell.Proofs.Simulation
import LispShell.Proofs.Tandem
import LispShell.Proofs.Termination
import LispShell.Proofs.Terms
import LispShell.Proofs.Token
import LispShell.Proofs.Tree
import LispShell.Proofs.Verdict
import LispShell.Proofs.Writes
import LispShell.Reader
import LispShell.Sample
import LispShell.Settings
import LispShell.Shell
import LispShell.Standard.Arithmetic
import LispShell.Standard.Basic
import LispShell.Standard.Math
import LispShell.Text.Blank
import LispShell.Text.Case
import LispShell.Text.Control
import LispShell.Text.Letter
import LispShell.Text.Printable
import LispShell.Text.Quoted
import LispShell.Text.Range
import LispShell.Text.Search
import LispShell.Token
import LispShell.Value.Basic
import LispShell.Value.Member
import LispShell.Value.Render
import LispShell.Value.Same
import LispShell.Wasm.Instance
import LispShell.Wasm.Sample
import LispShell.Wasm.Sharing
import LispShell.Wasm.Word
import LispShell.Yaml.Comment
import LispShell.Yaml.Cursor
import LispShell.Yaml.Decode
import LispShell.Yaml.Directive
import LispShell.Yaml.Node
import LispShell.Yaml.Scalar
import LispShell.Yaml.Tag
import LispShell.Yaml.Timestamp
import LispShell.Yaml.Token
import LispShell.Proofs.Words
import LispShell.Proofs.HostCalls
import LispShell.Proofs.Paths
import LispShell.Proofs.Yaml.Clean
import LispShell.Proofs.Yaml.Fields
import LispShell.Proofs.Settings.Lists
import LispShell.Proofs.Settings.Loading
import LispShell.Proofs.Text.Search
import LispShell.Proofs.Strings
import LispShell.Proofs.Completion
