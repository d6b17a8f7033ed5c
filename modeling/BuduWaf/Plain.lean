import BuduWaf.Lib.Decimal
import BuduWaf.Lib.Except
import BuduWaf.Lib.Split
import BuduWaf.Lib.Utf8
import BuduWaf.RateLimit

/-!
# A plain build

One instance of `Crates` on which the model runs, for builds with any features: caches that only
drop what expired, the token bucket of `governor`, dotted-quad addresses, and patterns that are
read as literal texts. The TOML and JSON readers stay parameters (`Readers`), so that a run fixes
just the files it reads. `likeNew_of_idle` says of such a build when a limiter is as good as new,
and `Config.minimal` is the smallest configuration file with every default in place.

The build is there to evaluate examples and to show that the hypotheses of theorems can be met. It
is not a second model: the definitions of the workspace are the same on every build, and only the
crates they call are filled in.

The bucket is the algorithm that `governor` documents, with the theoretical arrival time as its
state. A full one that has been idle takes `burst + 1` cells at once, and a new one `burst`.
-/

namespace BuduWaf

open RateLimit

/-! ## Addresses -/

namespace Plain

/-- A number below 256 without sign or leading zeros. -/
def parseOctet (s : Str) : Option Nat :=
  (Str.parseUInt 8 s).filter fun n => Str.ofNat n == s

/-- A dotted quad, the one form of addresses a plain build reads. -/
def parseIp (s : Str) : Option IpAddr :=
  match (s.splitOn '.').mapM parseOctet with
  | some [a, b, c, d] => some (.v4 (BitVec.ofNat 32 (((a * 256 + b) * 256 + c) * 256 + d)))
  | _ => none

/-- A dotted quad with a prefix length, the one form of networks a plain build reads. -/
def parseNet (s : Str) : Option IpNet := do
  let (addr, len) ← Str.splitOnce '/' s
  let len ← parseOctet len
  match parseIp addr with
  | some (.v4 a) => if h : len < 33 then some (.v4 a ⟨len, h⟩) else none
  | _ => none

/-- What is read as an address is made of digits, pluses and points. -/
theorem mem_of_parseIp {s : Str} {ip : IpAddr} (h : parseIp s = some ip) :
    ∀ c ∈ s, (c.isDigit = true ∨ c = '+') ∨ c = '.' := by
  have hparts : ∃ parts, (s.splitOn '.').mapM parseOctet = some parts := by
    unfold parseIp at h
    split at h
    · rename_i hparts
      exact ⟨_, hparts⟩
    · cases h
  obtain ⟨parts, hparts⟩ := hparts
  have hpieces : ∀ piece ∈ s.splitOn '.', ∀ c ∈ piece, (c.isDigit = true ∨ c = '+') ∨ c = '.' := by
    intro piece hpiece c hc
    obtain ⟨n, hn⟩ := Option.isSome_iff_exists.mp (isSome_of_mem_mapM hparts piece hpiece)
    have hread := (Option.filter_eq_some_iff.mp hn).1
    exact .inl (Str.mem_of_parseUInt hread c hc)
  have hall := Str.forall_mem_intercalate (.inr rfl) hpieces
  rwa [List.intercalate_splitOn] at hall

/-- A network is written as digits, dots and plus signs, a slash, and its length. -/
theorem mem_of_parseNet {s : Str} {net : IpNet} (h : parseNet s = some net) :
    ∃ addr len, s = addr ++ '/' :: len ∧ ∀ c ∈ addr, (c.isDigit = true ∨ c = '+') ∨ c = '.' := by
  obtain ⟨⟨addr, len⟩, hsplit, h⟩ := Option.bind_eq_some_iff.mp h
  obtain ⟨n, -, h⟩ := Option.bind_eq_some_iff.mp h
  refine ⟨addr, len, (Str.splitOnce_eq_some_iff.mp hsplit).1, ?_⟩
  split at h
  · rename_i ip hip
    exact mem_of_parseIp hip
  · cases h

/-- A word that begins with a letter is neither. -/
theorem parse_eq_none {c : Char} (hc : c.isDigit = false ∧ c ≠ '+' ∧ c ≠ '.' ∧ c ≠ '/') (s : Str) :
    parseIp (c :: s) = none ∧ parseNet (c :: s) = none := by
  have hnot : ¬((c.isDigit = true ∨ c = '+') ∨ c = '.') := by
    rintro ((h | h) | h)
    · rw [hc.1] at h
      cases h
    · exact hc.2.1 h
    · exact hc.2.2.1 h
  constructor
  · rw [Option.eq_none_iff_forall_ne_some]
    intro ip h
    exact hnot (mem_of_parseIp h c List.mem_cons_self)
  · rw [Option.eq_none_iff_forall_ne_some]
    intro net h
    obtain ⟨addr, len, hs, haddr⟩ := mem_of_parseNet h
    cases addr with
    | nil => exact hc.2.2.2 (List.cons.inj hs).1
    | cons d addr =>
        obtain ⟨rfl, -⟩ := List.cons.inj hs
        exact hnot (haddr c List.mem_cons_self)

/-- The text of an address; of an IPv6 address, the decimal form of its bits. -/
def ipText : IpAddr → Str
  | .v4 a => Str.join "." ([a >>> 24, a >>> 16, a >>> 8, a].map fun o =>
      Str.ofNat (o.toNat % 256))
  | .v6 a => Str.ofNat a.toNat

/-- The four octets of an address, most significant first. -/
theorem octets_injective {a b : BitVec 32}
    (h : [a >>> 24, a >>> 16, a >>> 8, a].map (fun o => o.toNat % 256) =
      [b >>> 24, b >>> 16, b >>> 8, b].map (fun o => o.toNat % 256)) : a = b := by
  simp only [List.map_cons, List.map_nil, List.cons.injEq, BitVec.toNat_ushiftRight,
    Nat.shiftRight_eq_div_pow, and_true] at h
  apply BitVec.eq_of_toNat_eq
  have ha := a.isLt
  have hb := b.isLt
  omega

/-- Different addresses have different texts. -/
theorem ipText_injective : Function.Injective ipText := by
  have hdot : ∀ n, '.' ∉ Str.ofNat n := by
    intro n h
    have hdigit := Str.isDigit_of_mem_ofNat h
    cases hdigit
  have hsplit : ∀ a : BitVec 32, (ipText (.v4 a)).splitOn '.' =
      [a >>> 24, a >>> 16, a >>> 8, a].map (fun o => Str.ofNat (o.toNat % 256)) := by
    intro a
    refine List.splitOn_intercalate _ ?_ (by simp)
    intro l hl
    obtain ⟨o, -, rfl⟩ := List.mem_map.mp hl
    exact hdot _
  have hfour : ∀ (a : BitVec 32) (b : BitVec 128), ipText (.v4 a) ≠ ipText (.v6 b) := by
    intro a b h
    have hmem : '.' ∈ ipText (.v4 a) := by
      simp [ipText, Str.join, List.intercalate]
    rw [h] at hmem
    exact hdot _ hmem
  rintro (a | a) (b | b) h
  · have hparts := congrArg (List.splitOn '.') h
    rw [hsplit, hsplit] at hparts
    refine congrArg IpAddr.v4 (octets_injective ?_)
    refine Str.ofNat_injective.list_map ?_
    rw [List.map_map, List.map_map]
    exact hparts
  · exact absurd h (hfour a b)
  · exact absurd h.symm (hfour b a)
  · exact congrArg IpAddr.v6 (BitVec.eq_of_toNat_eq (Str.ofNat_injective h))

/-- Texts of addresses are made of digits and points. -/
theorem isDigit_of_mem_ipText {ip : IpAddr} {c : Char} (h : c ∈ ipText ip) :
    c.isDigit = true ∨ c = '.' := by
  cases ip with
  | v4 a =>
      simp only [ipText, Str.join, List.map_cons, List.map_nil, List.intercalate,
        List.intersperse_cons_cons, List.intersperse_singleton, List.flatten_cons, List.flatten_nil,
        List.append_nil, List.mem_append] at h
      have hdot : c ∈ (".".toList : Str) → c = '.' := fun hc => List.mem_singleton.mp hc
      rcases h with h | h | h | h | h | h | h
      · exact .inl (Str.isDigit_of_mem_ofNat h)
      · exact .inr (hdot h)
      · exact .inl (Str.isDigit_of_mem_ofNat h)
      · exact .inr (hdot h)
      · exact .inl (Str.isDigit_of_mem_ofNat h)
      · exact .inr (hdot h)
      · exact .inl (Str.isDigit_of_mem_ofNat h)
  | v6 a => exact .inl (Str.isDigit_of_mem_ofNat h)

/-- No text of an address has the separator of counter keys. -/
theorem separator_not_mem_ipText (ip : IpAddr) : Char.ofNat 1 ∉ ipText ip := by
  intro hmem
  rcases isDigit_of_mem_ipText hmem with h | h
  · cases h
  · cases h

/-! ## Token buckets -/

/-- The state of a `governor` bucket: its quota and its theoretical arrival time. -/
structure Bucket where
  /-- Rate and capacity. -/
  quota : Quota
  /-- The theoretical arrival time of the next cell. -/
  tat : Nat

/-- The time one cell takes to come back. -/
def Bucket.interval (b : Bucket) : Nat := nanos / b.quota.perSecond.toNat

/-- The first instant at which a cell conforms. -/
def Bucket.earliest (b : Bucket) : Nat := b.tat - b.interval * b.quota.burst.toNat

/-- A new bucket, whose next arrival is expected one interval ahead, so that it grants a burst at
once. -/
def direct (quota : Quota) (now : Nat) : Bucket := ⟨quota, now + nanos / quota.perSecond.toNat⟩

/-- One cell: refused before the first conforming instant. -/
def check (b : Bucket) (now : Nat) : Except Nat Unit × Bucket :=
  if now < b.earliest then (.error b.earliest, b)
  else (.ok (), { b with tat := max b.tat now + b.interval })

/-! ## Patterns -/

/-- The positions of the patterns that occur in a text. -/
def occurring (patterns : List Str) (hay : Str) : List Nat :=
  (List.range patterns.length).filter fun i => (patterns[i]?).any fun p => Str.contains p hay

/-- The positions that are reported are positions of patterns. -/
theorem occurring_lt {patterns : List Str} {hay : Str} {i : Nat}
    (h : i ∈ occurring patterns hay) : i < patterns.length := by
  have := (List.mem_filter.mp h).1
  exact List.mem_range.mp this

end Plain

/-! ## The instance -/

/-- What the text formats of a build read as: a function for each of its files, and one for JSON. -/
structure Readers where
  /-- `budu.toml`. -/
  config : Str → Except Str Config
  /-- `rules.toml`. -/
  rules : Str → Except Str (List Rules.RuleDef)
  /-- `signatures.toml`. -/
  signatures : Str → Except Str (List Signatures.Signature)
  /-- JSON bodies. -/
  json : Bytes → Option Json

/-- Readers that refuse every text. -/
def Readers.none : Readers :=
  ⟨fun _ => .error "not TOML", fun _ => .error "not TOML", fun _ => .error "not TOML",
    fun _ => .none⟩

/-- The plain build with some features and readers. -/
def Crates.plain (features : Features) (readers : Readers) : Crates where
  features := features
  ipText := Plain.ipText
  parseIp := Plain.parseIp
  parseNet := Plain.parseNet
  debugText s := ("\"" : Str) ++ s ++ ("\"" : Str)
  Regex := Str
  regexNew := .ok
  isMatch := Str.contains
  RegexSet := List Str
  regexSetNew := .ok
  setMatches := Plain.occurring
  setMatches_lt h hi := by cases h; exact Plain.occurring_lt hi
  AhoCorasick := List Str
  ahoNew := .ok
  ahoFind patterns hay := (Plain.occurring patterns hay).head?
  ahoFind_lt h hi := by cases h; exact Plain.occurring_lt (List.mem_of_mem_head? hi)
  detectSqli _ := false
  detectXss _ := false
  jsonFromSlice := readers.json
  tomlConfig := readers.config
  tomlRules := readers.rules
  tomlSignatures := readers.signatures
  GeoReader := Empty
  geoOpen _ := .error "not a database"
  geoIso := Empty.elim
  uriBuild scheme authority pathAndQuery :=
    match Str.splitOnce '?' pathAndQuery with
    | some (path, query) => .ok ⟨scheme, some authority, path, some query⟩
    | none => .ok ⟨scheme, some authority, pathAndQuery, none⟩
  moka κ ν := Cache.timed κ ν
  Bucket := Plain.Bucket
  NotUntil := Nat
  direct := Plain.direct
  check := Plain.check
  waitTimeFrom earliest now := earliest - now

/-! ## Buckets that idled out -/

section idle

variable {features : Features} {readers : Readers}

/-- One check of a plain bucket that was looked up. -/
def Plain.settle (now : Nat) (ip : IpAddr) (r : Plain.Bucket × Cache.Timed IpAddr Plain.Bucket) :
    Except UInt32 Unit × Cache.Timed IpAddr Plain.Bucket :=
  match Plain.check r.1 now with
  | (.ok (), b) => (.ok (), (Cache.timed IpAddr Plain.Bucket).mutate r.2 ip b)
  | (.error earliest, b) =>
    (.error (retryAfter (earliest - now)), (Cache.timed IpAddr Plain.Bucket).mutate r.2 ip b)

variable (features readers) in
/-- In a plain build a check looks the bucket up and settles. -/
theorem checkIn_plain (l : IpRateLimiter) (c : Cache.Timed IpAddr Plain.Bucket) (now : Nat)
    (ip : IpAddr) :
    l.checkIn (X := .plain features readers) c now ip =
      Plain.settle now ip
        ((Cache.timed IpAddr Plain.Bucket).getWith c now ip (Plain.direct l.quota now)) := by
  unfold IpRateLimiter.checkIn Plain.settle
  dsimp only [Crates.plain]
  rcases Plain.check ((Cache.timed IpAddr Plain.Bucket).getWith c now ip
    (Plain.direct l.quota now)).1 now with ⟨_ | _, b⟩ <;> rfl

/-- Caches with the same live buckets answer alike. -/
theorem sameAnswers_of_sameLive (l : IpRateLimiter) {now : Nat}
    {c c' : Cache.Timed IpAddr Plain.Bucket} (h : Cache.SameLive now c c') :
    l.SameAnswers (X := .plain features readers) now c c' := by
  refine Indistinguishable.of_rel
    (R := fun s s' : Cache.Timed IpAddr Plain.Bucket × Nat =>
      s.2 = s'.2 ∧ Cache.SameLive s.2 s.1 s'.1) ?_ ⟨rfl, h⟩
  rintro ⟨c, now⟩ ⟨c', _⟩ ⟨elapsed, ip⟩ ⟨rfl, hlive⟩
  obtain ⟨hbucket, hnext⟩ :=
    (hlive.later elapsed).getWith ip (Plain.direct l.quota (now + elapsed))
  have hsettle : ∀ {r r' : Plain.Bucket × Cache.Timed IpAddr Plain.Bucket}, r.1 = r'.1 →
      Cache.SameLive (now + elapsed) r.2 r'.2 →
        (Plain.settle (now + elapsed) ip r).1 = (Plain.settle (now + elapsed) ip r').1 ∧
          Cache.SameLive (now + elapsed) (Plain.settle (now + elapsed) ip r).2
            (Plain.settle (now + elapsed) ip r').2 := by
    rintro ⟨b, d⟩ ⟨_, d'⟩ rfl hd
    unfold Plain.settle
    rcases Plain.check b (now + elapsed) with ⟨_ | _, b'⟩
    · exact ⟨rfl, hd.mutate ip b'⟩
    · exact ⟨rfl, hd.mutate ip b'⟩
  obtain ⟨hanswer, hafter⟩ := hsettle hbucket hnext
  have hc := checkIn_plain features readers l c (now + elapsed) ip
  have hc' := checkIn_plain features readers l c' (now + elapsed) ip
  rw [← hc, ← hc'] at hanswer hafter
  exact ⟨congrArg (fun answer => [answer]) hanswer, rfl, hafter⟩

/-- A limiter all of whose buckets have been idle for long enough answers like a new one. -/
theorem likeNew_of_idle {l : IpRateLimiter} {now : Nat} {ls : Limiters (.plain features readers)}
    (hidle : (l.buckets ls).idle = some l.timeToIdle)
    (h : ∀ ip, Cache.Timed.liveEntry (l.buckets ls) now ip = none) : l.LikeNew now ls :=
  sameAnswers_of_sameLive l ⟨hidle, h⟩

/-- A limiter whose buckets were all last used its idle time ago answers like a new one. -/
theorem likeNew_of_used {l : IpRateLimiter} {now : Nat} {ls : Limiters (.plain features readers)}
    (hidle : (l.buckets ls).idle = some l.timeToIdle)
    (h : ∀ ip e, (l.buckets ls).entry ip = some e → e.used + l.timeToIdle ≤ now) :
    l.LikeNew now ls :=
  likeNew_of_idle hidle fun ip => Cache.Timed.liveEntry_of_used hidle (h ip)

end idle

/-- A build without optional features. -/
def Features.none : Features := ⟨false, false, false, false⟩

/-! ## A small configuration -/

/-- A file that holds the bytes of a text is read as the text. -/
theorem FileSystem.readToString_utf8 {fs : FileSystem} {path text : Str}
    (h : fs.read path = .ok (Str.utf8 text)) : fs.readToString path = .ok text := by
  unfold FileSystem.readToString
  rw [h]
  dsimp only
  rw [Str.fromUtf8Lossy_utf8, if_pos rfl]

/-- A configuration is loaded from a file that has its text. -/
theorem Config.load_of_text {X : Crates} {fs : FileSystem} {path text : Str} {cfg : Config}
    (hread : fs.read path = .ok (Str.utf8 text)) (hparse : X.tomlConfig text = .ok cfg)
    (hvalid : cfg.validate X.ipText = .ok ()) : Config.load X fs path = .ok cfg := by
  have htext : ((fs.readToString path).mapError (.read path ·) : Except ConfigError Str) =
      .ok text := by
    rw [FileSystem.readToString_utf8 hread]
    rfl
  have hcfg : ((X.tomlConfig text).mapError .parse : Except ConfigError Config) = .ok cfg := by
    rw [hparse]
    rfl
  unfold Config.load
  exact bind_ok_iff.mpr ⟨text, htext, bind_ok_iff.mpr ⟨cfg, hcfg, bind_ok_iff.mpr
    ⟨(), hvalid, rfl⟩⟩⟩

/-- A text made of lines, each with a line feed at its end. -/
def unlines (lines : List Str) : Str := lines.flatMap (· ++ ['\n'])

/-- The sections and keys a configuration file cannot leave out. -/
def minimalToml : Str :=
  unlines
    ["[server]", "listen = \"127.0.0.1:8088\"", "upstream = \"http://192.168.10.20:8080\"",
      "client_ip_header = \"X-Real-IP\"", "trusted_peer = \"127.0.0.1/32\"", "[limits]",
      "max_uri_len = 8192", "max_header_count = 100", "max_inspect_body = 1048576", "[ratelimit]",
      "requests_per_sec = 50", "burst = 100", "ttl_secs = 300", "[log]"]

/-- What it reads as; the rest are the defaults. -/
def Config.minimal : Config where
  server :=
    { upstream := ⟨some "http", some "192.168.10.20:8080", "/", none⟩
      clientIpHeader := "X-Real-IP"
      trustedPeer := .v4 0x7F000001#32 32
      onError := .closed
      enforcement := .block
      upstreamTimeoutSecs := 30
      timezone := []
      requestIdHeader := "X-Request-Id" }
  limits := ⟨8192, 100, 1048576⟩
  inspect :=
    { contentTypes := []
      responseContentTypes := ["text/html", "application/json", "application/xml", "text/xml",
        "text/plain"] }
  ratelimit := ⟨50, 100, 300⟩
  reputation := ⟨[], [], [], 0, [], []⟩
  metricsListen := none
  scoring := .default
  paths := ⟨[], []⟩
  geoip := ⟨false, [], [], []⟩

end BuduWaf
