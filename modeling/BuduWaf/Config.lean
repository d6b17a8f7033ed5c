import BuduWaf.Common

/-!
# `budu-config`: the configuration

The sections of `budu.toml` that the modelled functions read, and the checks `Config::validate`
makes. Reading TOML text is left to the `toml` crate (`Crates.tomlConfig`), so a `Config` here is
what deserialization hands to `validate`: the declared widths of the integers bound their values.

Sections and fields that no modelled function reads are left out. A field has the Rust type's width
(`UInt64`, `UInt32`, `UInt16`), so a configuration that does not fit is no value here, as it is
none for `serde`. The order of the checks in `validate` is the source's: which error is reported
for a configuration with several mistakes depends on it.
-/

namespace BuduWaf

/-- `on_error`: fail-closed or fail-open when an inspection layer errors out.
Source: `budu-config/src/lib.rs` `OnError` -/
inductive OnError where
  | closed
  | open
deriving DecidableEq

/-- `enforcement`: in `detect` mode every layer is evaluated, but blocks are only counted.
Source: `budu-config/src/lib.rs` `Enforcement` -/
inductive Enforcement where
  | block
  | detect
deriving DecidableEq

/-- `[server]`.
Source: `budu-config/src/lib.rs` `ServerConfig` -/
structure ServerConfig where
  /-- The backend. -/
  upstream : Uri
  /-- The header that carries the real client address. -/
  clientIpHeader : Str
  /-- The peers whose `clientIpHeader` is believed. -/
  trustedPeer : IpNet
  /-- The fail policy. -/
  onError : OnError
  /-- The enforcement mode. -/
  enforcement : Enforcement
  /-- How long to wait for the backend. -/
  upstreamTimeoutSecs : UInt64
  /-- Default timezone of `time_between` rules. -/
  timezone : Str
  /-- The header that carries the request id; empty for none. -/
  requestIdHeader : Str
deriving DecidableEq

/-- `[limits]`.
Source: `budu-config/src/lib.rs` `LimitsConfig` -/
structure LimitsConfig where
  /-- Longest path and query. -/
  maxUriLen : Nat
  /-- Most header lines. -/
  maxHeaderCount : Nat
  /-- Largest body held in memory, in bytes. -/
  maxInspectBody : UInt64
deriving DecidableEq

/-- `[inspect]`.
Source: `budu-config/src/lib.rs` `InspectConfig` -/
structure InspectConfig where
  /-- Media types of request bodies that are inspected. -/
  contentTypes : List Str
  /-- Media types of response bodies that are inspected. -/
  responseContentTypes : List Str
deriving DecidableEq

/-- `[ratelimit]`.
Source: `budu-config/src/lib.rs` `RateLimitConfig` -/
structure RateLimitConfig where
  /-- Sustained rate for one address. -/
  requestsPerSec : UInt32
  /-- Bucket capacity; `0` stands for the rate. -/
  burst : UInt32
  /-- Idle time of a bucket. -/
  ttlSecs : UInt64
deriving DecidableEq

/-- `[paths]`.
Source: `budu-config/src/lib.rs` `PathsConfig` -/
structure PathsConfig where
  /-- The rule file; empty for no rules. -/
  rules : Str
  /-- The signature file; empty for the built-in set. -/
  signatures : Str
deriving DecidableEq

/-- `[reputation]`.
Source: `budu-config/src/lib.rs` `ReputationConfig` -/
structure ReputationConfig where
  /-- Inline blocklist. -/
  blocklist : List IpNet
  /-- Blocklist file; empty for none. -/
  blocklistFile : Str
  /-- Remote feeds. -/
  blocklistUrls : List Str
  /-- Seconds between two fetches of the feeds; `0` for none. -/
  refreshSecs : UInt64
  /-- Inline allowlist. -/
  allowlist : List IpNet
  /-- Allowlist file; empty for none. -/
  allowlistFile : Str
deriving DecidableEq

/-- `[scoring]`.
Source: `budu-config/src/lib.rs` `ScoringConfig` -/
structure ScoringConfig where
  /-- Points that block; `0` disables scoring. -/
  threshold : UInt32
  /-- Status of an anomaly block. -/
  status : UInt16
  /-- Reason of an anomaly block. -/
  msg : Str
deriving DecidableEq

/-- `ScoringConfig::default`: no threshold, so no request is refused by its score. -/
def ScoringConfig.default : ScoringConfig := ⟨0, 403, "anomaly score threshold exceeded"⟩

/-- `[geoip]`.
Source: `budu-config/src/lib.rs` `GeoIpConfig` -/
structure GeoIpConfig where
  /-- Whether the stage is on. -/
  enabled : Bool
  /-- The database file. -/
  dbPath : Str
  /-- Countries that pass; when there are any, no other does. -/
  allowCountries : List Str
  /-- Countries that do not pass. -/
  blockCountries : List Str
deriving DecidableEq

/-- The configuration.
Source: `budu-config/src/lib.rs` `Config` -/
structure Config where
  /-- `[server]`. -/
  server : ServerConfig
  /-- `[limits]`. -/
  limits : LimitsConfig
  /-- `[inspect]`. -/
  inspect : InspectConfig
  /-- `[ratelimit]`. -/
  ratelimit : RateLimitConfig
  /-- `[reputation]`. -/
  reputation : ReputationConfig
  /-- `[metrics] listen`: the admin address, if any. -/
  metricsListen : Option SocketAddr
  /-- `[scoring]`. -/
  scoring : ScoringConfig
  /-- `[paths]`. -/
  paths : PathsConfig
  /-- `[geoip]`. -/
  geoip : GeoIpConfig
deriving DecidableEq

/-- Why a configuration is refused.
Source: `budu-config/src/lib.rs` `ConfigError` -/
inductive ConfigError where
  | read (path source : Str)
  | parse (msg : Str)
  | invalid (msg : Str)
deriving DecidableEq

/-- The checks made after deserialization. `ipText` is the text form of an address.
Source: `budu-config/src/lib.rs` `Config::validate` -/
def Config.validate (ipText : IpAddr → Str) (c : Config) : Except ConfigError Unit := do
  if c.server.upstream.scheme ≠ some "http" ∧ c.server.upstream.scheme ≠ some "https" then
    throw (.invalid "server.upstream must be an http(s):// URL")
  if c.server.upstream.authority.isNone then
    throw (.invalid "server.upstream must include a host[:port]")
  if (Str.trim c.server.clientIpHeader).isEmpty then
    throw (.invalid "server.client_ip_header must not be empty")
  if c.limits.maxUriLen = 0 then
    throw (.invalid "limits.max_uri_len must be > 0")
  if c.ratelimit.requestsPerSec = 0 then
    throw (.invalid "ratelimit.requests_per_sec must be > 0")
  if c.server.upstreamTimeoutSecs = 0 then
    throw (.invalid "server.upstream_timeout_secs must be > 0")
  match c.metricsListen with
  | some addr =>
    if !addr.ip.isLoopback then
      throw (.invalid (("metrics.listen must be a loopback address (got " : Str)
        ++ ipText addr.ip ++ ("); the admin endpoint is unauthenticated and must not be "
        : Str) ++ ("client-facing" : Str)))
  | none => pure ()

end BuduWaf
