import BuduWaf.Pipeline.Stack
import BuduWaf.Reputation
import BuduWaf.Rules.Evaluate
import BuduWaf.Signatures

/-!
# `budu-pipeline`: the standard pipeline

* **`Shared`**: what the pipeline, the supervisor and the admin endpoint share behind `Arc`s: the
  swappable lists, signatures and rules, the counter store, the limiters' caches, the log tally.
  The clocks are part of it; whoever owns the state sets them.
* **The stages** of the standard stacks, as functions of the context and the shared state.
* **`Pipeline`**: an early and a late stack under a fail policy, and `fromConfig`, which builds
  the standard one.

Each stage is written as the source has it, over everything that the process shares, and touches a
few fields of that. The order of the two stacks is `fromConfig`'s, and the country stage is there if
the configuration asks for it and the build has the feature. `fromConfig_ok` says what a build that
succeeds has built, part by part, and is what later modules use of it.
-/

namespace BuduWaf

open Rules RateLimit Signatures Reputation

/-- What the parts of the running process share. -/
structure Shared (X : Crates) extends RuleState X where
  /-- The clocks. -/
  now : Now
  /-- The blocklist handle. -/
  blocks : List BlockEntry
  /-- The allowlist handle. -/
  allowlist : List BlockEntry
  /-- The signature handle. -/
  signatures : SignatureDb X
  /-- The rule-set handle. -/
  rules : RuleSet X

namespace Pipeline

variable {X : Crates}

/-! ## The stages -/

variable (X) in
/-- What a stage of the standard pipeline sees and writes. -/
abbrev World := RequestCtx × Shared X

/-- The blocklist stage.
Source: `budu-reputation/src/lib.rs` `ReputationStage` -/
def reputationStage : Stage (World X) where
  name := "reputation"
  inspect w := (Reputation.inspect w.2.blocks w.2.now w.1, w)

/-- The country stage.
Source: `budu-reputation/src/geoip.rs` `GeoStage` -/
def geoStage (geo : GeoStage X) : Stage (World X) where
  name := "geoip"
  inspect w := ((geo.inspect w.1).1, (geo.inspect w.1).2, w.2)

/-- The verdict on the answer of a limiter.
Source: `budu-ratelimit/src/lib.rs` `RateLimitStage::inspect` -/
def throttle : Except UInt32 Unit → StageResult
  | .ok () => .cont
  | .error secs => .brk (.rateLimited secs)

/-- The global rate limit.
Source: `budu-ratelimit/src/lib.rs` `RateLimitStage` -/
def rateLimitStage (limiter : IpRateLimiter) : Stage (World X) where
  name := "ratelimit"
  inspect w :=
    let r := limiter.check w.2.limiters w.2.now.mono w.1.client.ip
    (throttle r.1, w.1, { w.2 with limiters := r.2 })

/-- The verdict of the sanity stage.
Source: `budu-pipeline/src/sanity.rs` `SanityStage::inspect` -/
def sanity (limits : LimitsConfig) (ctx : RequestCtx) : StageResult :=
  if limits.maxUriLen < Str.byteLen ctx.path + ctx.query.elim 0 (Str.byteLen · + 1) then
    .brk (.block "sanity.uri_len" .uriTooLong "request URI exceeds configured limit")
  else if limits.maxHeaderCount < ctx.headers.len then
    .brk (.block "sanity.header_count" .requestHeaderFieldsTooLarge "too many request headers")
  else
    match ctx.headers.get "content-length" with
    | none => .cont
    | some v =>
      if ((headerToStr v).bind fun s => Str.parseUInt 64 (Str.trim s)).isNone then
        .brk (.block "sanity.content_length" .badRequest "malformed Content-Length")
      else .cont

/-- The structural limits.
Source: `budu-pipeline/src/sanity.rs` `SanityStage` -/
def sanityStage (limits : LimitsConfig) : Stage (World X) where
  name := "sanity"
  inspect w := (sanity limits w.1, w)

/-- The normalization.
Source: `budu-parser/src/lib.rs` `NormalizeStage` -/
def normalizeStage : Stage (World X) where
  name := "normalize"
  inspect w := (.cont, Parser.normalize w.1, w.2)

/-- The decision an outcome of the rules stands for.
Source: `budu-rules/src/stage.rs` `RulesStage::inspect` -/
def outcomeDecision : Outcome → WafDecision
  | .block ruleId status reason => .block ruleId status reason
  | .allow _ => .allow
  | .rateLimited _ secs => .rateLimited secs

/-- The rules.
Source: `budu-rules/src/stage.rs` `RulesStage::inspect` -/
def rulesStage : Stage (World X) where
  name := "rules"
  inspect w :=
    let r := w.2.rules.evaluateCounting w.2.now w.1 w.2.toRuleState
    (r.1.elim .cont fun outcome => .brk (outcomeDecision outcome),
      w.1, { w.2 with toRuleState := r.2 })

/-- The signatures.
Source: `budu-signatures/src/stage.rs` `SignatureStage::inspect` -/
def signatureStage : Stage (World X) where
  name := "signatures"
  inspect w := (Signatures.inspect w.2.signatures w.1, w)

/-- The GeoIP stage inspects the context and hands the shared state on. -/
@[simp] theorem geoStage_inspect (geo : GeoStage X) (w : World X) :
    (geoStage geo).inspect w = ((geo.inspect w.1).1, (geo.inspect w.1).2, w.2) := rfl

/-- The rules stage evaluates the rules in force, with the counters and buckets in force. -/
@[simp] theorem rulesStage_inspect (w : World X) :
    rulesStage.inspect w =
      ((w.2.rules.evaluateCounting w.2.now w.1 w.2.toRuleState).1.elim .cont
          fun outcome => .brk (outcomeDecision outcome),
        w.1, { w.2 with toRuleState :=
          (w.2.rules.evaluateCounting w.2.now w.1 w.2.toRuleState).2 }) := rfl

/-- The signature stage inspects the context with the signatures in force. -/
@[simp] theorem signatureStage_inspect (w : World X) :
    signatureStage.inspect w = (Signatures.inspect w.2.signatures w.1, w) := rfl

/-- The response-phase decision.
Source: `budu-rules/src/stage.rs` `RulesStage::inspect_response` -/
def inspectResponse (rctx : ResponseCtx) (s : Shared X) : WafDecision × Shared X :=
  let r := s.rules.evaluateResponse s.now rctx s.toRuleState
  (match r.1 with
    | some (.block ruleId status reason) => .block ruleId status reason
    | _ => .allow,
    { s with toRuleState := r.2 })

end Pipeline

/-! ## The pipeline -/

/-- Two stacks around the body gate, and the fail policy. The code's struct also holds the
handles that are in `Shared` here.
Source: `budu-pipeline/src/lib.rs` `Pipeline` -/
structure Pipeline (X : Crates) where
  /-- Stages on the head alone. -/
  early : List (Stage (Pipeline.World X))
  /-- Stages with the body available. -/
  late : List (Stage (Pipeline.World X))
  /-- The fail policy. -/
  onError : OnError

namespace Pipeline

variable {X : Crates}

/-- The stages on the head.
Source: `budu-pipeline/src/lib.rs` `Pipeline::evaluate_early` -/
def evaluateEarly (p : Pipeline X) (ctx : RequestCtx) (s : Shared X) : Evaluation (World X) :=
  runStages p.onError p.early (ctx, s)

/-- The stages with the body.
Source: `budu-pipeline/src/lib.rs` `Pipeline::evaluate_late` -/
def evaluateLate (p : Pipeline X) (ctx : RequestCtx) (s : Shared X) : Evaluation (World X) :=
  runStages p.onError p.late (ctx, s)

/-- Whether an address is on the allowlist.
Source: `budu-pipeline/src/lib.rs` `Pipeline::is_whitelisted` -/
def isWhitelisted (s : Shared X) (ip : IpAddr) : Bool :=
  Reputation.contains s.allowlist ip s.now.wall

/-- The standard early stack.
Source: `budu-pipeline/src/lib.rs` `Pipeline::from_config` -/
def earlyStack (geo : Option (GeoStage X)) (cfg : Config) : List (Stage (World X)) :=
  reputationStage :: (geo.map geoStage).toList ++
    [rateLimitStage (globalLimiter cfg.ratelimit), sanityStage cfg.limits, normalizeStage]

/-- The standard late stack.
Source: `budu-pipeline/src/lib.rs` `Pipeline::from_config` -/
def lateStack : List (Stage (World X)) := [rulesStage, signatureStage]

/-- What holds of the stages of the early stack one by one holds of all of them. -/
theorem forall_mem_earlyStack {P : Stage (World X) → Prop} {geo : Option (GeoStage X)}
    {cfg : Config} (hreputation : P reputationStage) (hgeo : ∀ g, P (geoStage g))
    (hrate : P (rateLimitStage (globalLimiter cfg.ratelimit)))
    (hsanity : P (sanityStage cfg.limits)) (hnormalize : P normalizeStage) :
    ∀ stage ∈ earlyStack geo cfg, P stage := by
  intro stage hstage
  simp only [earlyStack, List.cons_append, List.mem_cons, List.mem_append, Option.mem_toList,
    Option.map_eq_some_iff, List.not_mem_nil, or_false] at hstage
  rcases hstage with rfl | ⟨g, -, rfl⟩ | rfl | rfl | rfl
  · exact hreputation
  · exact hgeo g
  · exact hrate
  · exact hsanity
  · exact hnormalize

/-- What holds of the rules and the signature stage holds of the whole late stack. -/
theorem forall_mem_lateStack {P : Stage (World X) → Prop} (hrules : P rulesStage)
    (hsignature : P signatureStage) : ∀ stage ∈ lateStack (X := X), P stage := by
  intro stage hstage
  simp only [lateStack, List.mem_cons, List.not_mem_nil, or_false] at hstage
  rcases hstage with rfl | rfl
  · exact hrules
  · exact hsignature

/-- The standard pipeline with a given country stage.
Source: `budu-pipeline/src/lib.rs` `Pipeline::from_config` -/
def standard (geo : Option (GeoStage X)) (cfg : Config) : Pipeline X :=
  ⟨earlyStack geo cfg, lateStack, cfg.server.onError⟩

/-- Why a configuration cannot be put into force. -/
inductive BuildError where
  | list (msg : Str)
  | signatures (e : SignatureError)
  | timezone (msg : Str)
  | rules (e : RuleError)
  | geo (msg : Str)
deriving DecidableEq

variable (X)

/-- The default timezone in minutes.
Source: `budu-pipeline/src/lib.rs` `parse_default_tz` -/
def parseDefaultTz (timezone : Str) : Except BuildError Int :=
  match parseTzOffset timezone with
  | some tz => .ok tz
  | none =>
    .error (.timezone (("invalid [server] timezone " : Str) ++ X.debugText timezone
      ++ ("; expected e.g. \"+08:00\"" : Str)))

/-- The country stage of a build that has the feature.
Source: `budu-pipeline/src/lib.rs` `Pipeline::from_config` (`feature = "geoip"`) -/
def buildGeo (fs : FileSystem) (cfg : Config) : Except BuildError (Option (GeoStage X)) :=
  if X.features.geoip then (GeoStage.fromConfig X fs cfg.geoip).mapError .geo else .ok none

/-- Build the standard pipeline and the state it starts from. The rules of this first load are
generation 0.
Source: `budu-pipeline/src/lib.rs` `Pipeline::from_config` -/
def fromConfig (fs : FileSystem) (now : Now) (cfg : Config) :
    Except BuildError (Pipeline X × Shared X) := do
  let blocks ← (buildBlocks X fs now.wall cfg.reputation).mapError .list
  let signatures ← (SignatureDb.load X fs cfg.paths.signatures).mapError .signatures
  let defaultTz ← parseDefaultTz X cfg.server.timezone
  let rules ← (RuleSet.load X fs cfg.paths.rules cfg.scoring defaultTz 0).mapError .rules
  let allowlist ← (buildAllowlist X fs now.wall cfg.reputation).mapError .list
  let geo ← buildGeo X fs cfg
  return (standard geo cfg,
    { counters := CounterStore.new
      limiters := fun _ => none
      logHits := 0
      now := now
      blocks := blocks
      allowlist := allowlist
      signatures := signatures
      rules := rules })

variable {X} in
/-- **What is built**: the standard pipeline, and the state it starts from, each part of it from its
own source. -/
theorem fromConfig_ok {fs : FileSystem} {now : Now} {cfg : Config} {pipeline : Pipeline X}
    {shared : Shared X} (h : fromConfig X fs now cfg = .ok (pipeline, shared)) :
    ∃ blocks signatures defaultTz rules allowlist geo,
      buildBlocks X fs now.wall cfg.reputation = .ok blocks ∧
      SignatureDb.load X fs cfg.paths.signatures = .ok signatures ∧
      parseDefaultTz X cfg.server.timezone = .ok defaultTz ∧
      RuleSet.load X fs cfg.paths.rules cfg.scoring defaultTz 0 = .ok rules ∧
      buildAllowlist X fs now.wall cfg.reputation = .ok allowlist ∧
      pipeline = standard geo cfg ∧
      shared =
        { counters := CounterStore.new
          limiters := fun _ => none
          logHits := 0
          now := now
          blocks := blocks
          allowlist := allowlist
          signatures := signatures
          rules := rules } := by
  unfold fromConfig at h
  obtain ⟨blocks, hblocks, h⟩ := bind_ok_iff.mp h
  obtain ⟨signatures, hsignatures, h⟩ := bind_ok_iff.mp h
  obtain ⟨defaultTz, htz, h⟩ := bind_ok_iff.mp h
  obtain ⟨rules, hrules, h⟩ := bind_ok_iff.mp h
  obtain ⟨allowlist, hallowlist, h⟩ := bind_ok_iff.mp h
  obtain ⟨geo, -, h⟩ := bind_ok_iff.mp h
  obtain ⟨hpipeline, hshared⟩ := Prod.mk.inj (Except.ok.inj h)
  exact ⟨blocks, signatures, defaultTz, rules, allowlist, geo, mapError_ok_iff.mp hblocks,
    mapError_ok_iff.mp hsignatures, htz, mapError_ok_iff.mp hrules, mapError_ok_iff.mp hallowlist,
    hpipeline.symm, hshared.symm⟩

end Pipeline

end BuduWaf
