import Gleaner.Unicode.CaseFold
import Gleaner.Unicode.Category
import Gleaner.Unicode.Script
import Gleaner.Unicode.Property
import Gleaner.Regex.Parser
import Gleaner.Regex.Expr
import Gleaner.Regex.Pattern
import Gleaner.Text.Utf8
import Gleaner.Text.Blank
import Gleaner.Json.Reader
import Gleaner.Glob
import Gleaner.Lines
import Gleaner.Memo
import Gleaner.Counters
import Gleaner.Document.Tree
import Gleaner.Yaml.Node
import Gleaner.Yaml.Printer
import Gleaner.Config.Document
import Gleaner.Match.Error
import Gleaner.Report
import Gleaner.Files.Tree
import Gleaner.Files.Expand
import Gleaner.Lua.Syntax
import Gleaner.Lua.Number
import Gleaner.Lua.Parser
import Gleaner.Lua.Operate
import Gleaner.Lua.Session
import Gleaner.Match.Chain
import Gleaner.Rules.Node
import Gleaner.Rules.Normalizer
import Gleaner.Pipeline
import Gleaner.Command.Program
import Gleaner.Lua.Pattern
import Gleaner.Lua.Format
import Gleaner.Proofs.Actions
import Gleaner.Proofs.Producers
import Gleaner.Proofs.Pruning
import Gleaner.Proofs.Listing
import Gleaner.Proofs.Interleaving
import Gleaner.Proofs.Threading
import Gleaner.Proofs.Breakdowns
import Gleaner.Proofs.Findings
import Gleaner.Proofs.Records
import Gleaner.Proofs.Refusals
import Gleaner.Proofs.LuaFree
import Gleaner.Proofs.Asking
import Gleaner.Proofs.Failures
import Gleaner.Proofs.Documents
import Gleaner.Proofs.Entries
import Gleaner.Proofs.Merging
import Gleaner.Proofs.Nodes
import Gleaner.Proofs.PlainTexts
import Gleaner.Proofs.QuotedTexts
import Gleaner.Proofs.BlockTexts
import Gleaner.Proofs.Blocks
import Gleaner.Proofs.Brackets
import Gleaner.Proofs.Printed
import Gleaner.Proofs.Recasts
import Gleaner.Proofs.Rendering
import Gleaner.Proofs.Callers
import Gleaner.Proofs.Collecting
import Gleaner.Proofs.Histories
import Gleaner.Proofs.Ignoring
import Gleaner.Proofs.Loading
import Gleaner.Proofs.Decoding
import Gleaner.Proofs.Projection
import Gleaner.Proofs.Accounts
import Gleaner.Proofs.Calls
import Gleaner.Proofs.Influence
import Gleaner.Proofs.Correspondence
import Gleaner.Proofs.Patterns
import Gleaner.Proofs.Deciding
import Gleaner.Proofs.Trying
import Gleaner.Proofs.Filters
import Gleaner.Proofs.Lifetimes
import Gleaner.Proofs.Copying
import Gleaner.Proofs.Reports
