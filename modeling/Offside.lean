import Offside.Brace.Balance
import Offside.Brace.Role
import Offside.Brace.Scan
import Offside.Command.Invocation
import Offside.Command.Reach
import Offside.Command.Run
import Offside.Command.Split
import Offside.Conversion
import Offside.Event
import Offside.Files.Path
import Offside.Files.Tree
import Offside.Keyword
import Offside.Layout.Feed
import Offside.Layout.Nesting
import Offside.Layout.OutLine
import Offside.Layout.Width
import Offside.Log.Filter
import Offside.Log.Record
import Offside.Main
import Offside.Options.Grammar
import Offside.Proofs.AllOrNothing
import Offside.Proofs.BlockTree
import Offside.Proofs.Cases
import Offside.Proofs.Contradiction
import Offside.Proofs.Cut
import Offside.Proofs.Evidence
import Offside.Proofs.Flags
import Offside.Proofs.Flat
import Offside.Proofs.HeaderLine
import Offside.Proofs.Indentation
import Offside.Proofs.Ink
import Offside.Proofs.LineBreaks
import Offside.Proofs.Literal
import Offside.Proofs.Lookback
import Offside.Proofs.OneLine
import Offside.Proofs.OpenBraces
import Offside.Proofs.Options
import Offside.Proofs.Pairing
import Offside.Proofs.Peeling
import Offside.Proofs.Precedence
import Offside.Proofs.Reachable
import Offside.Proofs.Reading
import Offside.Proofs.Resuming
import Offside.Proofs.Scaling
import Offside.Proofs.Sessions
import Offside.Proofs.Sideways
import Offside.Proofs.Splitting
import Offside.Proofs.Strings
import Offside.Proofs.Tags
import Offside.Proofs.Trim
import Offside.Settings.Arguments
import Offside.Settings.Basic
import Offside.Settings.Environment
import Offside.Settings.Load
import Offside.Settings.Number
import Offside.Settings.Value
import Offside.Source
import Offside.Style.Basic
import Offside.Style.Check
import Offside.Text.Alphanumeric
import Offside.Text.Basic
import Offside.Text.Quoted
import Offside.Text.Shapeless
import Offside.Text.Utf8
import Offside.Text.Visible
import Offside.Toml.Document
import Offside.Toml.Scalar
import Offside.Toml.Table
