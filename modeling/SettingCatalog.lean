import SettingCatalog.Text.Alphanumeric
import SettingCatalog.Text.Blank
import SettingCatalog.Text.Quoted
import SettingCatalog.Text.Terminal
import SettingCatalog.Text.Utf8
import SettingCatalog.Number.Shortest
import SettingCatalog.Number.LittleEndian
import SettingCatalog.Json.Lexeme
import SettingCatalog.Json.Reader
import SettingCatalog.Json.Value
import SettingCatalog.Toml.Document
import SettingCatalog.Tree.Decode
import SettingCatalog.Tree.Encode
import SettingCatalog.Query.Parser
import SettingCatalog.Query.Printer
import SettingCatalog.Query.Select
import SettingCatalog.Setting.Export
import SettingCatalog.Setting.Extract
import SettingCatalog.Files.Path
import SettingCatalog.Files.Walk
import SettingCatalog.Source.Stored
import SettingCatalog.Source.Service
import SettingCatalog.Source.Store
import SettingCatalog.Source.Cache
import SettingCatalog.Source.Origin
import SettingCatalog.Run.Pool
import SettingCatalog.Config.File
import SettingCatalog.CommandLine.Configure
import SettingCatalog.CommandLine.Parse
import SettingCatalog.Program.Run
import SettingCatalog.Command.FolderStore
import SettingCatalog.Main
import SettingCatalog.Proofs.Query.Places
import SettingCatalog.Proofs.Query.Selection
import SettingCatalog.Proofs.Query.Lineage
import SettingCatalog.Proofs.Setting.Structure
import SettingCatalog.Proofs.Setting.Defaults
import SettingCatalog.Proofs.Json.Grammar
import SettingCatalog.Proofs.Text.Utf8
import SettingCatalog.Proofs.Json.Strings
import SettingCatalog.Proofs.Json.Numbers
import SettingCatalog.Proofs.Json.Compact
import SettingCatalog.Proofs.Json.Containers
import SettingCatalog.Proofs.Json.Records
import SettingCatalog.Proofs.Tree.Attributes
import SettingCatalog.Proofs.Tree.RoundTrip
import SettingCatalog.Proofs.Query.Grammar
import SettingCatalog.Proofs.Query.Parsing
import SettingCatalog.Proofs.Query.Printing
import SettingCatalog.Proofs.Run.Schedules
import SettingCatalog.Proofs.Run.FirstFailure
import SettingCatalog.Proofs.Source.Stores
import SettingCatalog.Proofs.Source.FileStore
import SettingCatalog.Proofs.Source.Caching
import SettingCatalog.Proofs.Source.Retrying
import SettingCatalog.Proofs.Source.Waiting
import SettingCatalog.Proofs.Text.Blank
import SettingCatalog.Proofs.Json.Extension
import SettingCatalog.Proofs.Source.Truncation
import SettingCatalog.Proofs.Source.Answers
import SettingCatalog.Proofs.Json.Unambiguous
import SettingCatalog.Proofs.Source.Framing
import SettingCatalog.Proofs.Json.Pretty
import SettingCatalog.Proofs.Setting.Export
import SettingCatalog.Proofs.Query.Descent
import SettingCatalog.Proofs.Setting.Nesting
import SettingCatalog.Proofs.Setting.Variables
import SettingCatalog.Proofs.Files.Addresses
import SettingCatalog.Proofs.Files.Writing
import SettingCatalog.Proofs.Run.Sources
import SettingCatalog.Proofs.Source.Overlay
import SettingCatalog.Proofs.Program.Endings
import SettingCatalog.Proofs.Setting.Composition
import SettingCatalog.Proofs.Setting.Idioms
import SettingCatalog.Proofs.Query.Alignment
import SettingCatalog.Proofs.Setting.References
import SettingCatalog.Proofs.Setting.Spelling
import SettingCatalog.Proofs.Query.Faults
import SettingCatalog.Proofs.Text.Pieces
import SettingCatalog.Proofs.Setting.Table
import SettingCatalog.Proofs.Files.Paths
import SettingCatalog.Proofs.Files.Walking
import SettingCatalog.Proofs.Files.Relative
import SettingCatalog.Proofs.Config.Filters
import SettingCatalog.Proofs.Program.Provenance
import SettingCatalog.Proofs.Query.Searching
import SettingCatalog.Proofs.Query.Contexts
