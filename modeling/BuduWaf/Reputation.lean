import BuduWaf.Crates
import BuduWaf.Lib.Except

/-!
# `budu-reputation`: block and allow lists, countries

* **`BlockEntry`**: a network, with an expiry or for good.
* **Where lists come from**: inline networks, a list file, remote feeds. A list text is read line
  by line; a line that does not parse is skipped.
* **The stages' verdicts**: `ReputationStage` on a blocklist and `GeoStage` on a country policy.

Reading a text drops entries that have expired by then, and a query tests each entry again against
its own clock reading. Both use the same comparison (`active`), so an entry that was dropped early
is one that no later query would have found (`contains_pruneExpired`). Network addresses and names
are parsed by the standard library and by `ipnet`, which are part of `Crates`.

Feeds are an input: what each URL answered in this round, or that it failed.
-/

namespace BuduWaf.Reputation

variable (X : Crates)

/-! ## Entries -/

/-- A network that is listed, until a UNIX time in seconds or for good.
Source: `budu-reputation/src/lib.rs` `BlockEntry` -/
structure BlockEntry where
  /-- The network. -/
  net : IpNet
  /-- The expiry, if any. -/
  untilSecs : Option Nat
deriving DecidableEq

namespace BlockEntry

/-- A permanent entry.
Source: `budu-reputation/src/lib.rs` `BlockEntry::perm` -/
def perm (net : IpNet) : BlockEntry := ⟨net, none⟩

/-- Still in force.
Source: `budu-reputation/src/lib.rs` `BlockEntry::active` -/
def active (e : BlockEntry) (now : Nat) : Bool := e.untilSecs.all (now < ·)

/-- In force and containing the address.
Source: `budu-reputation/src/lib.rs` `BlockEntry::matches` -/
def covers (e : BlockEntry) (ip : IpAddr) (now : Nat) : Bool := e.active now && e.net.contains ip

end BlockEntry

/-- Whether some entry in force contains the address.
Source: `budu-reputation/src/lib.rs` `contains`; `ReputationStage::inspect` makes the same test -/
def contains (set : List BlockEntry) (ip : IpAddr) (now : Nat) : Bool :=
  set.any fun e => e.covers ip now

/-- Drop the entries that expired.
Source: `budu-reputation/src/lib.rs` `prune_expired` -/
def pruneExpired (set : List BlockEntry) (now : Nat) : List BlockEntry :=
  if set.any fun e => !e.active now then set.filter fun e => e.active now else set

/-- An address is on two lists in a row iff it is on one of them. -/
theorem contains_append (xs ys : List BlockEntry) (ip : IpAddr) (now : Nat) :
    contains (xs ++ ys) ip now = (contains xs ip now || contains ys ip now) := by
  simp [contains]

/-- An address is on a list iff some entry of it covers the address at the instant. -/
theorem contains_iff {set : List BlockEntry} {ip : IpAddr} {now : Nat} :
    contains set ip now = true ↔ ∃ e ∈ set, e.covers ip now = true := by
  simp [contains]

/-- What is still in force later was in force before. -/
theorem BlockEntry.active_of_later {e : BlockEntry} {now t : Nat} (h : now ≤ t)
    (hactive : e.active t = true) : e.active now = true := by
  unfold BlockEntry.active at hactive ⊢
  rw [Option.all_eq_true] at hactive ⊢
  intro u hu
  have hlater := hactive u hu
  simp only [decide_eq_true_eq] at hlater ⊢
  omega

/-- Dropping what expired changes nothing from then on. -/
theorem contains_pruneExpired (set : List BlockEntry) (ip : IpAddr) {now t : Nat} (h : now ≤ t) :
    contains (pruneExpired set now) ip t = contains set ip t := by
  unfold pruneExpired
  split
  · rw [Bool.eq_iff_iff, contains_iff, contains_iff]
    constructor
    · rintro ⟨e, he, hcovers⟩
      exact ⟨e, (List.mem_filter.mp he).1, hcovers⟩
    · rintro ⟨e, he, hcovers⟩
      have hactive := (Bool.and_eq_true_iff.mp hcovers).1
      exact ⟨e, List.mem_filter.mpr ⟨he, BlockEntry.active_of_later h hactive⟩, hcovers⟩
  · rfl

/-! ## Reading a list -/

/-- The expiry a line sets: `none` where the line is to be skipped.
Source: `budu-reputation/src/lib.rs` `line_until` -/
def lineUntil (now : Nat) (tokens : List Str) : Option (Option Nat) :=
  if X.features.fail2ban then
    let found := tokens.foldl (fun acc tok => acc.bind fun untilSecs =>
      match Str.stripPrefix ("until=" : Str) tok with
      | some v => (Str.parseUInt 64 v).map some
      | none => some untilSecs) (some none)
    found.filter fun untilSecs => untilSecs.all (now < ·)
  else some none

/-- The entry of a line, if it has one.
Source: `budu-reputation/src/lib.rs` `parse_blocklist` (the loop body) -/
def parseLine (now : Nat) (raw : Str) : Option BlockEntry :=
  let line := Str.trim ((Str.splitOnce '#' raw).elim raw Prod.fst)
  match Str.splitWhitespace line with
  | [] => none
  | netStr :: tokens =>
    ((X.parseNet netStr).or ((X.parseIp netStr).map IpNet.ofAddr)).bind fun net =>
      (lineUntil X now tokens).map fun untilSecs => ⟨net, untilSecs⟩

/-- The entries of a list text.
Source: `budu-reputation/src/lib.rs` `parse_blocklist` -/
def parseBlocklist (now : Nat) (text : Str) : List BlockEntry :=
  (Str.lines text).filterMap (parseLine X now)

/-- The entries of a list file.
Source: `budu-reputation/src/lib.rs` `load_file` -/
def loadFile (fs : FileSystem) (now : Nat) (path : Str) : Except Str (List BlockEntry) :=
  (fs.readToString path).map (parseBlocklist X now)

/-- Inline networks and a list file, if one is configured.
Source: `budu-reputation/src/lib.rs` `build_blocks`, `build_allowlist` -/
def buildList (fs : FileSystem) (now : Nat) (inline : List IpNet) (path : Str) :
    Except Str (List BlockEntry) :=
  if (Str.trim path).isEmpty then .ok (inline.map BlockEntry.perm)
  else (loadFile X fs now path).map (inline.map BlockEntry.perm ++ ·)

/-- The local part of the blocklist.
Source: `budu-reputation/src/lib.rs` `build_blocks` -/
def buildBlocks (fs : FileSystem) (now : Nat) (cfg : ReputationConfig) :
    Except Str (List BlockEntry) :=
  buildList X fs now cfg.blocklist cfg.blocklistFile

/-- The allowlist.
Source: `budu-reputation/src/lib.rs` `build_allowlist` -/
def buildAllowlist (fs : FileSystem) (now : Nat) (cfg : ReputationConfig) :
    Except Str (List BlockEntry) :=
  buildList X fs now cfg.allowlist cfg.allowlistFile

/-- One round of fetching: whether the HTTP client could be built, and the body each URL
answered with, where it answered with success. -/
structure Feeds where
  /-- `reqwest::Client::builder().build()` succeeds. -/
  clientBuilds : Bool
  /-- The body of a URL, `none` where sending, the status or reading the body failed. -/
  fetch : Str → Option Bytes

/-- What one feed contributes.
Source: `budu-reputation/src/lib.rs` `fetch_blocklist_urls` (the loop body) -/
def feedEntries (feeds : Feeds) (now : Nat) (url : Str) : List BlockEntry :=
  match feeds.fetch url with
  | some body => parseBlocklist X now (Str.fromUtf8Lossy body)
  | none => []

/-- The entries of the remote feeds; a feed that fails contributes nothing.
Source: `budu-reputation/src/lib.rs` `fetch_blocklist_urls` -/
def fetchBlocklistUrls (feeds : Feeds) (now : Nat) (urls : List Str) : List BlockEntry :=
  if feeds.clientBuilds then urls.flatMap (feedEntries X feeds now) else []

/-! ### Reading a list at another time

Expiries are absolute, and a line that expired is skipped, so a list that was read at one time
and one that was read at another agree from then on. -/

section later

variable {read read' t : Nat} (h : read ≤ t) (h' : read' ≤ t)

include h h'

/-- A line that is skipped because it expired would not be active later either. -/
theorem lineUntil_active (tokens : List Str) (net : IpNet) (ip : IpAddr) :
    (lineUntil X read tokens).any (fun u => (BlockEntry.mk net u).covers ip t) =
      (lineUntil X read' tokens).any fun u => (BlockEntry.mk net u).covers ip t := by
  unfold lineUntil
  split
  · dsimp only
    generalize tokens.foldl _ _ = found
    rcases found with _ | _ | u
    · rfl
    · rfl
    · by_cases hu : t < u
      · have hread : read < u := by omega
        have hread' : read' < u := by omega
        simp [Option.filter, hread, hread']
      · simp only [Option.filter, BlockEntry.covers, BlockEntry.active, Option.all_some]
        split <;> split <;> simp [hu]
  · rfl

/-- From then on a line covers what it covers whenever it is read. -/
theorem parseLine_covers (raw : Str) (ip : IpAddr) :
    (parseLine X read raw).any (·.covers ip t) = (parseLine X read' raw).any (·.covers ip t) := by
  unfold parseLine
  dsimp only
  split
  · rfl
  · rename_i netStr tokens _
    cases (X.parseNet netStr).or ((X.parseIp netStr).map IpNet.ofAddr) with
    | none => rfl
    | some net =>
        simp only [Option.bind_some, Option.any_map]
        exact lineUntil_active X h h' tokens net ip

/-- A list text lists the same addresses at `t`, whenever up to then it was read. -/
theorem contains_parseBlocklist (text : Str) (ip : IpAddr) :
    contains (parseBlocklist X read text) ip t = contains (parseBlocklist X read' text) ip t := by
  unfold contains parseBlocklist
  rw [List.any_filterMap, List.any_filterMap]
  congr 1
  funext raw
  exact parseLine_covers X h h' raw ip

/-- The feeds list the same addresses at `t`, whenever up to then they were read. -/
theorem contains_fetchBlocklistUrls (feeds : Feeds) (urls : List Str) (ip : IpAddr) :
    contains (fetchBlocklistUrls X feeds read urls) ip t =
      contains (fetchBlocklistUrls X feeds read' urls) ip t := by
  have hentries : ∀ url, contains (feedEntries X feeds read url) ip t =
      contains (feedEntries X feeds read' url) ip t := by
    intro url
    unfold feedEntries
    cases feeds.fetch url with
    | none => rfl
    | some body => exact contains_parseBlocklist X h h' _ ip
  unfold fetchBlocklistUrls
  split
  · unfold contains at hentries ⊢
    rw [List.any_flatMap, List.any_flatMap]
    exact congrArg (List.any _) (funext hentries)
  · rfl

end later

/-- Reading a list again, at any time, succeeds if it did once, and agrees from then on. -/
theorem buildList_again {fs : FileSystem} {read : Nat} {inline : List IpNet} {path : Str}
    {set : List BlockEntry} (h : buildList X fs read inline path = .ok set) (read' : Nat) :
    ∃ set', buildList X fs read' inline path = .ok set' ∧
      ∀ ip t, read ≤ t → read' ≤ t → contains set' ip t = contains set ip t := by
  unfold buildList loadFile at h ⊢
  split at h
  · rename_i hpath
    obtain rfl := Except.ok.inj h
    exact ⟨_, if_pos hpath, fun _ _ _ _ => rfl⟩
  · rename_i hpath
    obtain ⟨entries, hentries, rfl⟩ := map_ok_iff.mp h
    obtain ⟨text, htext, rfl⟩ := map_ok_iff.mp hentries
    refine ⟨inline.map BlockEntry.perm ++ parseBlocklist X read' text, ?_, ?_⟩
    · rw [if_neg hpath, htext]
      rfl
    · intro ip t hread hread'
      rw [contains_append, contains_append, contains_parseBlocklist X hread' hread]

/-! ## The stages -/

/-- The verdict of `ReputationStage` holding this list.
Source: `budu-reputation/src/lib.rs` `ReputationStage::inspect` -/
def inspect (blocks : List BlockEntry) (now : Now) (ctx : RequestCtx) : StageResult :=
  if contains blocks ctx.client.ip now.wall then
    .brk (.block "reputation.blocklist" .forbidden "source IP is blocklisted")
  else .cont

/-- Country filtering.
Source: `budu-reputation/src/geoip.rs` `GeoStage` -/
structure GeoStage where
  /-- The database. -/
  reader : X.GeoReader
  /-- Countries that pass; when there are any, no other does. -/
  allow : List (UInt8 × UInt8)
  /-- Countries that do not pass. -/
  block : List (UInt8 × UInt8)

/-- `u8::to_ascii_uppercase`: other bytes than ASCII letters stay as they are. -/
def upperByte (b : UInt8) : UInt8 := if 0x61 ≤ b ∧ b ≤ 0x7A then b - 0x20 else b

/-- The two-byte codes of a list of texts; others are dropped.
Source: `budu-reputation/src/geoip.rs` `to_codes` -/
def toCodes (list : List Str) : List (UInt8 × UInt8) :=
  list.filterMap fun s =>
    match Str.utf8 (Str.trim s) with
    | [a, b] => some (upperByte a, upperByte b)
    | _ => none

/-- `true` where the country may pass.
Source: `budu-reputation/src/geoip.rs` `country_decision` -/
def countryDecision (geo : Option CountryCode) (allow block : List (UInt8 × UInt8)) : Bool :=
  match geo with
  | some cc => if allow.isEmpty then !block.contains cc.bytes else allow.contains cc.bytes
  | none => allow.isEmpty

namespace GeoStage

/-- The stage, where it is enabled.
Source: `budu-reputation/src/geoip.rs` `GeoStage::from_config` -/
def fromConfig (fs : FileSystem) (cfg : GeoIpConfig) : Except Str (Option (GeoStage X)) :=
  if !cfg.enabled then .ok none
  else if (Str.trim cfg.dbPath).isEmpty then
    .error "geoip.enabled = true but geoip.db_path is empty"
  else do
    let bytes ← (fs.read cfg.dbPath).mapError fun e =>
      ("opening geoip db " : Str) ++ cfg.dbPath ++ (": " : Str) ++ e
    let reader ← (X.geoOpen bytes).mapError fun e =>
      ("opening geoip db " : Str) ++ cfg.dbPath ++ (": " : Str) ++ e
    return some ⟨reader, toCodes cfg.allowCountries, toCodes cfg.blockCountries⟩

variable {X}

/-- The country of an address, where the database has a two-letter one.
Source: `budu-reputation/src/geoip.rs` `GeoStage::lookup` -/
def lookup (g : GeoStage X) (ip : IpAddr) : Option CountryCode :=
  (X.geoIso g.reader ip).bind fun iso =>
    match Str.utf8 iso with
    | [a, b] => some ⟨(upperByte a, upperByte b)⟩
    | _ => none

/-- Whether the stage lets an address pass. -/
def permits (g : GeoStage X) (ip : IpAddr) : Bool := countryDecision (g.lookup ip) g.allow g.block

/-- Stamp the country on the context, then decide.
Source: `budu-reputation/src/geoip.rs` `GeoStage::inspect` -/
def inspect (g : GeoStage X) (ctx : RequestCtx) : StageResult × RequestCtx :=
  let ctx' := { ctx with client := { ctx.client with geo := g.lookup ctx.client.ip } }
  if g.permits ctx.client.ip then (.cont, ctx')
  else (.brk (.block "geoip.country" .forbidden "source country not permitted"), ctx')

/-- The GeoIP stage leaves the body of the context as it is. -/
@[simp] theorem inspect_body (g : GeoStage X) (ctx : RequestCtx) :
    (g.inspect ctx).2.body = ctx.body := by
  unfold inspect
  split <;> rfl

/-- The GeoIP stage leaves the client's address. -/
@[simp] theorem inspect_ip (g : GeoStage X) (ctx : RequestCtx) :
    (g.inspect ctx).2.client.ip = ctx.client.ip := by
  unfold inspect
  split <;> rfl

end GeoStage

end BuduWaf.Reputation
