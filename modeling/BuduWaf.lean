import BuduWaf.Lib.Except
import BuduWaf.Lib.Text
import BuduWaf.Lib.Utf8
import BuduWaf.Lib.Lines
import BuduWaf.Lib.Decimal
import BuduWaf.Lib.Hex
import BuduWaf.Lib.Case
import BuduWaf.Lib.Split
import BuduWaf.Lib.Pattern
import BuduWaf.Lib.Alternation
import BuduWaf.Lib.Scan
import BuduWaf.Lib.Cache
import BuduWaf.Lib.TokenBucket
import BuduWaf.Lib.Runs
import BuduWaf.Lib.Trailing
import BuduWaf.Lib.Exposition
import BuduWaf.Lib.Cyclic
import BuduWaf.Common
import BuduWaf.Config
import BuduWaf.Countries
import BuduWaf.Rules.Definition
import BuduWaf.Crates
import BuduWaf.Parser
import BuduWaf.RateLimit
import BuduWaf.CounterMap
import BuduWaf.Plain
import BuduWaf.Signatures
import BuduWaf.Encodings
import BuduWaf.Haystack
import BuduWaf.Scanning
import BuduWaf.RateBound
import BuduWaf.Reputation
import BuduWaf.Expiry
import BuduWaf.Rules.Compile
import BuduWaf.Rules.Fields
import BuduWaf.Rules.Splitting
import BuduWaf.Rules.FormPairs
import BuduWaf.Rules.JsonPaths
import BuduWaf.Rules.Multipart
import BuduWaf.Rules.ContentTypes
import BuduWaf.Rules.Clock
import BuduWaf.Rules.Days
import BuduWaf.Rules.Overflow
import BuduWaf.Rules.Exact
import BuduWaf.Rules.Evaluate
import BuduWaf.Rules.CanonicalQuery
import BuduWaf.Rules.LocalClock
import BuduWaf.Rules.ResponseBody
import BuduWaf.Rules.Headers
import BuduWaf.Rules.BigStep
import BuduWaf.Rules.Clients
import BuduWaf.Rules.Passive
import BuduWaf.Rules.BruteForce
import BuduWaf.Rules.Counters
import BuduWaf.Rules.CounterTests
import BuduWaf.Rules.Generations
import BuduWaf.Rules.Modsec
import BuduWaf.Rules.AnomalyScores
import BuduWaf.Rules.Chains
import BuduWaf.Rules.RuleIds
import BuduWaf.Rules.Quoting
import BuduWaf.Rules.Messages
import BuduWaf.Rules.SourceText
import BuduWaf.Rules.Imported
import BuduWaf.Rules.Phrases
import BuduWaf.Rules.Loading
import BuduWaf.Rules.Audit
import BuduWaf.Pipeline.Stack
import BuduWaf.Pipeline.Standard
import BuduWaf.Pipeline.Clients
import BuduWaf.Pipeline.Reload
import BuduWaf.Pipeline.Twins
import BuduWaf.Proxy.Http
import BuduWaf.Proxy.Handle
import BuduWaf.Proxy.Simulation
import BuduWaf.Proxy.Enforcement
import BuduWaf.Proxy.Detection
import BuduWaf.Proxy.Tally
import BuduWaf.Proxy.Bodies
import BuduWaf.Proxy.RequestId
import BuduWaf.Proxy.Forwarding
import BuduWaf.Cli.Ban
import BuduWaf.Cli.Edits
import BuduWaf.Cli.Listing
import BuduWaf.Cli.Spellings
import BuduWaf.Cli.Races
import BuduWaf.Supervisor.Process
import BuduWaf.Supervisor.Clients
import BuduWaf.Supervisor.Feeds
import BuduWaf.Supervisor.Throttling
import BuduWaf.Supervisor.Limits
import BuduWaf.Proxy.Admin
import BuduWaf.Traffic.Controls
import BuduWaf.Traffic.Bans
import BuduWaf.Traffic.Destination
import BuduWaf.Traffic.Isolation
import BuduWaf.Traffic.Load
import BuduWaf.Traffic.Trail
