import BuduWaf.Lib.Cache
import BuduWaf.Config
import BuduWaf.Rules.Definition

/-!
# What the workspace calls but does not contain

The third-party crates, as one parameter `X : Crates` of everything below. A result about all `X`
holds whatever these crates compute; the two facts the code relies on without checking (a match
index names one of the patterns) are fields of the structure. The optional Cargo features are part
of it, so that one development covers every build.

The host's files are the other input the code reads: `FileSystem` is what reading a path gives.

Beside these two facts nothing is assumed of a crate here. What a result needs to know of one, it
takes as a hypothesis that is named after the documented behaviour (`Cache.ModelledBy` for `moka`,
`GcraLaws` for `governor`, `MatchesAsDocumented` for the matchers), so that the statement shows
what it rests on, and its example discharges the hypothesis on a build that behaves so.
-/

namespace BuduWaf

open Rules Signatures

/-- The Cargo features a build is made with. -/
structure Features where
  /-- `geoip`. -/
  geoip : Bool
  /-- `remote-blocklist`. -/
  remoteBlocklist : Bool
  /-- `fail2ban`. -/
  fail2ban : Bool
  /-- `libinjection`. -/
  libinjection : Bool

/-- `serde_json::Value`; a number is kept as the text it prints as. -/
inductive Json where
  | null
  | bool (b : Bool)
  | number (text : Str)
  | string (s : Str)
  | array (items : List Json)
  | object (members : List (Str × Json))

/-- `governor::Quota`: cells per second and capacity, both `NonZeroU32`. -/
structure Quota where
  /-- `Quota::per_second`. -/
  perSecond : UInt32
  /-- `Quota::allow_burst`. -/
  burst : UInt32
  /-- `NonZeroU32`. -/
  perSecond_ne : perSecond ≠ 0
  /-- `NonZeroU32`. -/
  burst_ne : burst ≠ 0

/-- The third-party crates. Instants and durations are nanoseconds. -/
structure Crates where
  /-- The features the workspace was built with. -/
  features : Features
  /-- The text form of an address. -/
  ipText : IpAddr → Str
  /-- `str::parse::<IpAddr>`. -/
  parseIp : Str → Option IpAddr
  /-- `str::parse::<IpNet>`. -/
  parseNet : Str → Option IpNet
  /-- The `{:?}` form of a text. -/
  debugText : Str → Str
  /-- `regex::Regex`. -/
  Regex : Type
  /-- `RegexBuilder::new(p).unicode(false).build()`. -/
  regexNew : Str → Except Str Regex
  /-- `Regex::is_match`. -/
  isMatch : Regex → Str → Bool
  /-- `regex::RegexSet`. -/
  RegexSet : Type
  /-- `RegexSetBuilder::new(ps).unicode(false).build()`. -/
  regexSetNew : List Str → Except Str RegexSet
  /-- `RegexSet::matches`, the indices of the matching patterns in increasing order. -/
  setMatches : RegexSet → Str → List Nat
  /-- A reported index is one of the patterns'. -/
  setMatches_lt : ∀ {ps : List Str} {r : RegexSet} {hay : Str} {i : Nat},
    regexSetNew ps = .ok r → i ∈ setMatches r hay → i < ps.length
  /-- `aho_corasick::AhoCorasick`. -/
  AhoCorasick : Type
  /-- `AhoCorasick::new`. -/
  ahoNew : List Str → Except Str AhoCorasick
  /-- `AhoCorasick::find`, the index of the pattern found. -/
  ahoFind : AhoCorasick → Str → Option Nat
  /-- A reported index is one of the patterns'. -/
  ahoFind_lt : ∀ {ps : List Str} {a : AhoCorasick} {hay : Str} {i : Nat},
    ahoNew ps = .ok a → ahoFind a hay = some i → i < ps.length
  /-- `libinjectionrs::detect_sqli`. -/
  detectSqli : Bytes → Bool
  /-- `libinjectionrs::detect_xss`. -/
  detectXss : Bytes → Bool
  /-- `serde_json::from_slice::<Value>`. -/
  jsonFromSlice : Bytes → Option Json
  /-- `toml::from_str::<Config>`. -/
  tomlConfig : Str → Except Str Config
  /-- `toml::from_str::<RuleFile>`. -/
  tomlRules : Str → Except Str (List RuleDef)
  /-- `toml::from_str` of a signature file. -/
  tomlSignatures : Str → Except Str (List Signature)
  /-- `maxminddb::Reader`. -/
  GeoReader : Type
  /-- `Reader::open_readfile`, on the bytes of the file. -/
  geoOpen : Bytes → Except Str GeoReader
  /-- The ISO code a lookup decodes to, where it decodes to one. -/
  geoIso : GeoReader → IpAddr → Option Str
  /-- `http::uri::Builder` with a path and query. -/
  uriBuild : (scheme : Option Str) → (authority pathAndQuery : Str) → Except Str Uri
  /-- `moka::sync::Cache`. -/
  moka : (κ ν : Type) → [DecidableEq κ] → Cache κ ν
  /-- `governor::DefaultDirectRateLimiter`. -/
  Bucket : Type
  /-- `governor::NotUntil`. -/
  NotUntil : Type
  /-- `RateLimiter::direct` at an instant. -/
  direct : Quota → (now : Nat) → Bucket
  /-- `RateLimiter::check` at an instant. -/
  check : Bucket → (now : Nat) → Except NotUntil Unit × Bucket
  /-- `NotUntil::wait_time_from`. -/
  waitTimeFrom : NotUntil → (now : Nat) → Nat

/-- The files of the host: what reading a path gives, or the error. -/
structure FileSystem where
  /-- `std::fs::read`. -/
  read : Str → Except Str Bytes

/-- `std::fs::read_to_string`: an error also where the bytes are no UTF-8. -/
def FileSystem.readToString (fs : FileSystem) (path : Str) : Except Str Str :=
  match fs.read path with
  | .error e => .error e
  | .ok b =>
    if Str.utf8 (Str.fromUtf8Lossy b) = b then .ok (Str.fromUtf8Lossy b)
    else .error "stream did not contain valid UTF-8"

/-- The readings of the two clocks: seconds of UNIX time, nanoseconds of the monotonic clock. -/
structure Now where
  /-- `SystemTime::now()`, in seconds since the epoch. -/
  wall : Nat
  /-- `Instant::now()`, in nanoseconds. -/
  mono : Nat
deriving DecidableEq

/-- Read and validate the configuration.
Source: `budu-config/src/lib.rs` `Config::load` -/
def Config.load (X : Crates) (fs : FileSystem) (path : Str) : Except ConfigError Config := do
  let text ← (fs.readToString path).mapError (.read path ·)
  let cfg ← (X.tomlConfig text).mapError .parse
  cfg.validate X.ipText
  return cfg

end BuduWaf
