import KeywordRules.Text.Quoted
import KeywordRules.Number.Shortest
import KeywordRules.Json.Reader
import KeywordRules.Json.Writer
import KeywordRules.Form.Node
import KeywordRules.Form.Member
import KeywordRules.Form.Config
import KeywordRules.Toml.Table
import KeywordRules.Options.Load
import KeywordRules.Rule.Required
import KeywordRules.Rule.Coverage
import KeywordRules.Session
import KeywordRules.Json.RoundTrip
import KeywordRules.Proofs.Application
import KeywordRules.Proofs.Edits
import KeywordRules.Proofs.Accounting
import KeywordRules.Proofs.WellFormed
import KeywordRules.Proofs.Decoding
import KeywordRules.Proofs.MemberGrammar
import KeywordRules.Proofs.MemberRoundTrip
import KeywordRules.Proofs.SessionCoverage
import KeywordRules.Proofs.Interleaving
import KeywordRules.Proofs.FieldOrder
import KeywordRules.Proofs.Denotation
import KeywordRules.Proofs.ValueRoundTrip
import KeywordRules.Proofs.Dispatch
import KeywordRules.Proofs.TomlLines
import KeywordRules.Proofs.TomlTables
import KeywordRules.Proofs.FlagSettings
import KeywordRules.Proofs.ConfigAgreement
import KeywordRules.Proofs.Runs
import KeywordRules.Proofs.Replay
import KeywordRules.Proofs.Reordering
import KeywordRules.Proofs.Positional
import KeywordRules.Proofs.Distinctness
import KeywordRules.Proofs.Leaves
import KeywordRules.Proofs.Truth
import KeywordRules.Proofs.Refusal
import KeywordRules.Proofs.FirstDefect
import KeywordRules.Proofs.FormAgreement
import KeywordRules.Proofs.Grammar
import KeywordRules.Proofs.Extensionality
import KeywordRules.Proofs.Paths
import KeywordRules.Proofs.NodeEquality
import KeywordRules.Proofs.ValueEquality
import KeywordRules.Proofs.Enabling
import KeywordRules.Proofs.Comments
import KeywordRules.Proofs.ReportViews
import KeywordRules.Proofs.PathResolution
import KeywordRules.Proofs.Loading
