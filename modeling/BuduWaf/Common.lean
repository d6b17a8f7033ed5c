import BuduWaf.Lib.Text
import BuduWaf.Lib.Scan

/-!
# `budu-common`: the vocabulary of the request path

* **From the standard library and `http`**: addresses and networks, status codes, header maps,
  URIs.
* **The request and the response as a stage sees them** (`RequestCtx`, `ResponseCtx`), the
  verdict (`WafDecision`), and what a stage answers (`StageResult`).
* **`Stage`**: one inspection layer. `inspect` takes `&mut ctx` and may change the state behind
  the handles it holds, so a stage is a function of everything it can see and write (`ω`), and a
  panic leaves behind what was written before it.
* **`Metrics`**: the process-wide counters. A `fetch_add` on an `AtomicU64` wraps, so they are
  `UInt64`.

Header lines are kept in the order they were sent, with all lines of a name, since the code reads
some headers by their first line (`get`) and others by all of them. Header values are bytes, as a
client may send bytes that are no text; whoever wants a text has to ask for it (`headerToStr`).

A `StatusCode` carries its range, and an `IpNet` the bound on its prefix, so that no value of these
types stands for something `http` or `ipnet` refuse to build.
-/

namespace BuduWaf

/-! ## Addresses -/

/-- `std::net::IpAddr`: an IPv4 or an IPv6 address. An IPv4-mapped IPv6 address is one of the second
kind. -/
inductive IpAddr where
  | v4 (bits : BitVec 32)
  | v6 (bits : BitVec 128)
deriving DecidableEq

/-- `IpAddr::is_loopback`: 127.0.0.0/8 and `::1`. -/
def IpAddr.isLoopback : IpAddr → Bool
  | .v4 a => a >>> 24 == 127#32
  | .v6 a => a == 1#128

/-- `std::net::SocketAddr`: an address with a port. -/
structure SocketAddr where
  /-- The address. -/
  ip : IpAddr
  /-- The port. -/
  port : UInt16
deriving DecidableEq

/-- `ipnet::IpNet`: an address, whose host bits are kept as written, and a prefix length. -/
inductive IpNet where
  | v4 (addr : BitVec 32) (prefixLen : Fin 33)
  | v6 (addr : BitVec 128) (prefixLen : Fin 129)
deriving DecidableEq

/-- There are prefix lengths of either family, so numerals read as such. -/
instance neZero_v4 : NeZero 33 := ⟨by decide⟩

instance neZero_v6 : NeZero 129 := ⟨by decide⟩

/-- `IpNet::from(IpAddr)`: the host route. -/
def IpNet.ofAddr : IpAddr → IpNet
  | .v4 a => .v4 a 32
  | .v6 a => .v6 a 128

/-- `IpNet::contains`: same family, and equal once the host bits are shifted out. -/
def IpNet.contains : IpNet → IpAddr → Bool
  | .v4 net len, .v4 a => net >>> (32 - len.val) == a >>> (32 - len.val)
  | .v6 net len, .v6 a => net >>> (128 - len.val) == a >>> (128 - len.val)
  | _, _ => false

/-! ## `http` -/

/-- `http::StatusCode`: three digits, by construction. -/
structure StatusCode where
  /-- The code. -/
  code : Nat
  /-- `http` has no other codes. -/
  valid : 100 ≤ code ∧ code ≤ 999
deriving DecidableEq

namespace StatusCode

/-- `StatusCode::from_u16`: a number of three digits, whether or not a status has a name for it. -/
def fromU16 (n : UInt16) : Option StatusCode :=
  if h : 100 ≤ n.toNat ∧ n.toNat ≤ 999 then some ⟨n.toNat, h⟩ else none

/-- `200 OK`. -/
def ok : StatusCode := ⟨200, by decide⟩
/-- `400 Bad Request`. -/
def badRequest : StatusCode := ⟨400, by decide⟩
/-- `403 Forbidden`. -/
def forbidden : StatusCode := ⟨403, by decide⟩
/-- `413 Payload Too Large`. -/
def payloadTooLarge : StatusCode := ⟨413, by decide⟩
/-- `414 URI Too Long`. -/
def uriTooLong : StatusCode := ⟨414, by decide⟩
/-- `429 Too Many Requests`. -/
def tooManyRequests : StatusCode := ⟨429, by decide⟩
/-- `431 Request Header Fields Too Large`. -/
def requestHeaderFieldsTooLarge : StatusCode := ⟨431, by decide⟩
/-- `500 Internal Server Error`. -/
def internalServerError : StatusCode := ⟨500, by decide⟩
/-- `502 Bad Gateway`. -/
def badGateway : StatusCode := ⟨502, by decide⟩
/-- `504 Gateway Timeout`. -/
def gatewayTimeout : StatusCode := ⟨504, by decide⟩

end StatusCode

/-- `HeaderValue::to_str`: only visible ASCII, space and tab read as text. -/
def headerToStr (v : Bytes) : Option Str :=
  if v.all fun b => (0x20 ≤ b.toNat && b.toNat < 0x7F) || b.toNat == 0x09 then
    some (v.map fun b => Char.ofNat b.toNat)
  else none

/-- `http::HeaderMap`: the header lines, with lower-case names, in order. -/
structure HeaderMap where
  /-- Name and value of each line. -/
  entries : List (Str × Bytes)
deriving DecidableEq

namespace HeaderMap

/-- The map of no headers. -/
def empty : HeaderMap := ⟨[]⟩

/-- `HeaderMap::len`: the number of lines. -/
def len (h : HeaderMap) : Nat := h.entries.length

/-- `HeaderMap::get`: the first line with this name, whatever the name's case. -/
def get (h : HeaderMap) (name : Str) : Option Bytes :=
  (h.entries.find? fun e => e.1 == Str.toAsciiLowercase name).map Prod.snd

/-- `HeaderMap::keys`: each name once, in the order of the first line it stands on. -/
def keys (h : HeaderMap) : List Str := (h.entries.map Prod.fst).eraseDups

/-- `HeaderMap::remove`: drops every line with this name. -/
def remove (h : HeaderMap) (name : Str) : HeaderMap :=
  ⟨h.entries.filter fun e => e.1 != Str.toAsciiLowercase name⟩

/-- `HeaderMap::insert`: one line in place of every line with this name. -/
def insert (h : HeaderMap) (name : Str) (value : Bytes) : HeaderMap :=
  ⟨(h.remove name).entries ++ [(Str.toAsciiLowercase name, value)]⟩

end HeaderMap

/-- `http::Uri`, cut into its parts. A part that is not there is no empty text. -/
structure Uri where
  /-- The scheme, if any. -/
  scheme : Option Str
  /-- `host[:port]`, if any. -/
  authority : Option Str
  /-- The path. -/
  path : Str
  /-- The query, without its `?`. -/
  query : Option Str
deriving DecidableEq

/-- The text of `Uri::path_and_query`: the path, and `?` with the query if there is one. -/
def Uri.pathAndQuery (u : Uri) : Str :=
  match u.query with
  | some q => u.path ++ '?' :: q
  | none => u.path

/-! ## What a stage sees -/

/-- Two-letter country code.
Source: `budu-common/src/lib.rs` `CountryCode` -/
structure CountryCode where
  /-- The two bytes. -/
  bytes : UInt8 × UInt8
deriving DecidableEq

/-- `CountryCode::as_str`: the text of the bytes, `??` where they are no UTF-8. -/
def CountryCode.asStr (c : CountryCode) : Str :=
  let s := Str.fromUtf8Lossy [c.bytes.1, c.bytes.2]
  if Str.utf8 s = [c.bytes.1, c.bytes.2] then s else "??"

/-- Who is making the request.
Source: `budu-common/src/lib.rs` `ClientInfo` -/
structure ClientInfo where
  /-- The resolved client address. -/
  ip : IpAddr
  /-- The country, once a stage resolved it. -/
  geo : Option CountryCode
deriving DecidableEq

/-- Whether the body was pulled into memory.
Source: `budu-common/src/lib.rs` `BodyState` -/
inductive BodyState where
  | notBuffered
  | buffered (bytes : Bytes)
  | tooLarge
deriving DecidableEq

/-- Normalized copies kept on the context.
Source: `budu-common/src/lib.rs` `NormalizedCache` -/
structure NormalizedCache where
  /-- The normalized path. -/
  path : Option Str
  /-- The normalized query. -/
  query : Option Str
deriving DecidableEq

/-- `NormalizedCache::default`: neither part was written yet. -/
def NormalizedCache.default : NormalizedCache := ⟨none, none⟩

/-- Everything a stage needs to make a decision.
Source: `budu-common/src/lib.rs` `RequestCtx` -/
structure RequestCtx where
  /-- The method. -/
  method : Str
  /-- The path. -/
  path : Str
  /-- The query, without its `?`. -/
  query : Option Str
  /-- The header lines. -/
  headers : HeaderMap
  /-- The client. -/
  client : ClientInfo
  /-- The body. -/
  body : BodyState
  /-- The normalized copies. -/
  normalized : NormalizedCache
deriving DecidableEq

/-- The upstream response as response-phase rules see it.
Source: `budu-common/src/lib.rs` `ResponseCtx` -/
structure ResponseCtx where
  /-- The status. -/
  status : StatusCode
  /-- The header lines. -/
  headers : HeaderMap
  /-- The client of the request. -/
  client : ClientInfo
  /-- The path of the request. -/
  path : Str
  /-- The response body. -/
  body : BodyState

/-! ## Verdicts and stages -/

/-- The verdict a stage can hand back.
Source: `budu-common/src/lib.rs` `WafDecision` -/
inductive WafDecision where
  | allow
  | block (ruleId : Str) (status : StatusCode) (reason : Str)
  | rateLimited (retryAfterSecs : UInt32)
deriving DecidableEq

/-- The decision is a `Block`, of whatever rule. -/
def WafDecision.isBlock : WafDecision → Bool
  | .block _ _ _ => true
  | _ => false

/-- How a call of `inspect` under `catch_unwind` ends: with `ControlFlow::Continue`, with
`ControlFlow::Break`, or by a panic. -/
inductive StageResult where
  | cont
  | brk (decision : WafDecision)
  | panic
deriving DecidableEq

/-- One inspection layer; `ω` is all it can see and write.
Source: `budu-common/src/lib.rs` `Stage` -/
structure Stage (ω : Type) where
  /-- The name used in logs. -/
  name : Str
  /-- The inspection. -/
  inspect : ω → StageResult × ω

/-! ## Metrics -/

/-- The request counters.
Source: `budu-common/src/lib.rs` `Metrics` -/
structure Metrics where
  /-- Requests taken in. -/
  requestsTotal : UInt64
  /-- Decisions to let through. -/
  allowedTotal : UInt64
  /-- Enforced blocks. -/
  blockedTotal : UInt64
  /-- Rate-limit answers. -/
  ratelimitedTotal : UInt64
  /-- Failures towards the upstream. -/
  upstreamErrorsTotal : UInt64
  /-- Blocks that detect mode only counted. -/
  wouldBlockTotal : UInt64
  /-- Requests of allowlisted clients. -/
  whitelistedTotal : UInt64
deriving DecidableEq

namespace Metrics

/-- `Metrics::request`: one request more was taken up. -/
def request (m : Metrics) : Metrics := { m with requestsTotal := m.requestsTotal + 1 }

/-- `Metrics::record`: one decision more of its kind. -/
def record (m : Metrics) : WafDecision → Metrics
  | .allow => { m with allowedTotal := m.allowedTotal + 1 }
  | .block _ _ _ => { m with blockedTotal := m.blockedTotal + 1 }
  | .rateLimited _ => { m with ratelimitedTotal := m.ratelimitedTotal + 1 }

/-- `Metrics::upstream_error`: one failure more towards the upstream. -/
def upstreamError (m : Metrics) : Metrics :=
  { m with upstreamErrorsTotal := m.upstreamErrorsTotal + 1 }

/-- `Metrics::would_block`: one block more that detect mode let through. -/
def wouldBlock (m : Metrics) : Metrics := { m with wouldBlockTotal := m.wouldBlockTotal + 1 }

/-- `Metrics::whitelisted`: one request more that bypasses inspection. -/
def whitelisted (m : Metrics) : Metrics :=
  { m with whitelistedTotal := m.whitelistedTotal + 1 }

end Metrics

end BuduWaf
