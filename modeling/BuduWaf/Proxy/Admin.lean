import BuduWaf.Lib.Exposition
import BuduWaf.Proxy.Http
import BuduWaf.Supervisor.Process

/-!
# `budu-proxy`: the admin endpoint

A listener of its own answers `GET /metrics` and `GET /healthz`. What it answers the first with is
text in the exposition format.

* **`MetricsSnapshot`**, **`PipelineMetrics`**: what is read for an answer.
* **`render_eq`**, **`scrape_render`**: the text is that of fourteen families, and reads back.

The values are read one after the other while requests go on, so an answer is not a snapshot of one
state. `Metrics.snapshot` and `Pipeline.metrics` are therefore given what is there at each of their
reads. What the text says of these values is the subject here; what the values have to do with the
requests of a run is shown where runs are (`Traffic/Trail`).
-/

namespace BuduWaf

/-- `StatusCode::NOT_FOUND`, the answer to any other path. -/
def StatusCode.notFound : StatusCode := ⟨404, by decide⟩

/-- The request counters as they were read.
Source: `budu-common/src/lib.rs` `MetricsSnapshot` -/
structure MetricsSnapshot where
  requests : UInt64
  allowed : UInt64
  blocked : UInt64
  ratelimited : UInt64
  upstreamErrors : UInt64
  wouldBlock : UInt64
  whitelisted : UInt64

/-- `Metrics::snapshot`: the counters are read one after the other, the `i`th of them where they
are `m i`. -/
def Metrics.snapshot (m : Nat → Metrics) : MetricsSnapshot where
  requests := (m 0).requestsTotal
  allowed := (m 1).allowedTotal
  blocked := (m 2).blockedTotal
  ratelimited := (m 3).ratelimitedTotal
  upstreamErrors := (m 4).upstreamErrorsTotal
  wouldBlock := (m 5).wouldBlockTotal
  whitelisted := (m 6).whitelistedTotal

/-- The number of rules.
Source: `budu-rules/src/ruleset.rs` `RuleSet::len` -/
def Rules.RuleSet.len {X : Crates} (rs : Rules.RuleSet X) : Nat :=
  rs.rules.length + rs.responseRules.length

namespace Pipeline

open Rules RateLimit Supervisor

/-- The state of the pipeline as it was read.
Source: `budu-pipeline/src/lib.rs` `PipelineMetrics` -/
structure PipelineMetrics where
  signatures : Nat
  rules : Nat
  ruleLogMatches : UInt64
  blocklist : Nat
  allowlist : Nat
  rateBuckets : UInt64
  counters : UInt64

/-- How many entries the two caches say they hold, which is an estimate of theirs. -/
structure Tracked (X : Crates) where
  /-- `IpRateLimiter::tracked`. -/
  rateBuckets : (X.moka IpAddr X.Bucket).Content → UInt64
  /-- `CounterStore::tracked`. -/
  counters : (X.moka Str Counter).Content → UInt64

variable {X : Crates}

/-- `Reloadable::metrics`: these are read one after the other too, the `i`th of them where the
process is `p i`. -/
def metrics (tracked : Tracked X) (p : Nat → Process X) : PipelineMetrics where
  signatures := (p 0).shared.signatures.count
  rules := (p 1).shared.rules.len
  ruleLogMatches := (p 2).shared.logHits
  blocklist := (p 3).shared.blocks.length
  allowlist := (p 4).shared.allowlist.length
  rateBuckets := tracked.rateBuckets ((p 5).limiter.buckets (p 5).shared.limiters)
  counters := tracked.counters (p 6).shared.counters

end Pipeline

namespace Proxy

open Pipeline Supervisor Exposition

/-! ## The text -/

/-- The two lines of one metric in the format string. -/
def metricLines (name kind : Str) (value : Nat) : List Str :=
  [("# TYPE " : Str) ++ name ++ ' ' :: kind, name ++ ' ' :: Str.ofNat value]

/-- The exposition of what was read.
Source: `budu-proxy/src/admin.rs` `render` -/
def render (m : MetricsSnapshot) (p : PipelineMetrics) : Str :=
  endLines <| ("# HELP budu_requests_total Total requests seen by B.U.D.U" : Str) ::
    List.flatten [
      metricLines "budu_requests_total" "counter" m.requests.toNat,
      metricLines "budu_allowed_total" "counter" m.allowed.toNat,
      metricLines "budu_blocked_total" "counter" m.blocked.toNat,
      metricLines "budu_ratelimited_total" "counter" m.ratelimited.toNat,
      metricLines "budu_upstream_errors_total" "counter" m.upstreamErrors.toNat,
      metricLines "budu_would_block_total" "counter" m.wouldBlock.toNat,
      metricLines "budu_whitelisted_total" "counter" m.whitelisted.toNat,
      metricLines "budu_signatures" "gauge" p.signatures,
      metricLines "budu_rules" "gauge" p.rules,
      metricLines "budu_rule_log_matches_total" "counter" p.ruleLogMatches.toNat,
      metricLines "budu_blocklist_entries" "gauge" p.blocklist,
      metricLines "budu_allowlist_entries" "gauge" p.allowlist,
      metricLines "budu_rate_buckets" "gauge" p.rateBuckets.toNat,
      metricLines "budu_counters" "gauge" p.counters.toNat]

/-- The families the endpoint is meant to show: seven counters of requests, the tally of `log`
rules, and the sizes of what is in force. -/
def families (m : MetricsSnapshot) (p : PipelineMetrics) : List Family :=
  [⟨"budu_requests_total", some "Total requests seen by B.U.D.U", .counter, m.requests.toNat⟩,
    ⟨"budu_allowed_total", none, .counter, m.allowed.toNat⟩,
    ⟨"budu_blocked_total", none, .counter, m.blocked.toNat⟩,
    ⟨"budu_ratelimited_total", none, .counter, m.ratelimited.toNat⟩,
    ⟨"budu_upstream_errors_total", none, .counter, m.upstreamErrors.toNat⟩,
    ⟨"budu_would_block_total", none, .counter, m.wouldBlock.toNat⟩,
    ⟨"budu_whitelisted_total", none, .counter, m.whitelisted.toNat⟩,
    ⟨"budu_signatures", none, .gauge, p.signatures⟩,
    ⟨"budu_rules", none, .gauge, p.rules⟩,
    ⟨"budu_rule_log_matches_total", none, .counter, p.ruleLogMatches.toNat⟩,
    ⟨"budu_blocklist_entries", none, .gauge, p.blocklist⟩,
    ⟨"budu_allowlist_entries", none, .gauge, p.allowlist⟩,
    ⟨"budu_rate_buckets", none, .gauge, p.rateBuckets.toNat⟩,
    ⟨"budu_counters", none, .gauge, p.counters.toNat⟩]

/-- The lines of a family with a help are its help line and those of `metricLines`. -/
theorem lines_helped (name help : Str) (kind : Kind) (value : Nat) :
    (⟨name, some help, kind, value⟩ : Family).lines =
      (("# HELP " : Str) ++ name ++ ' ' :: help) :: metricLines name kind.text value := rfl

/-- **The text is that of the families**, in their order. -/
theorem render_eq (m : MetricsSnapshot) (p : PipelineMetrics) :
    render m p = expose (families m p) := by
  have hhelp : ("# HELP " : Str) ++ ("budu_requests_total" : Str) ++
      ' ' :: ("Total requests seen by B.U.D.U" : Str) =
        ("# HELP budu_requests_total Total requests seen by B.U.D.U" : Str) := by
    decide +kernel
  unfold render expose families
  rw [List.flatMap_cons, lines_helped, hhelp, List.cons_append]
  rfl

/-- The families are well formed, and no two have one name. -/
theorem families_wellFormed (m : MetricsSnapshot) (p : PipelineMetrics) :
    (∀ f ∈ families m p, f.WellFormed) ∧ ((families m p).map Family.name).Nodup := by
  have hnames : (families m p).map Family.name = (families ⟨0, 0, 0, 0, 0, 0, 0⟩
      ⟨0, 0, 0, 0, 0, 0, 0⟩).map Family.name := rfl
  have hhelps : (families m p).map Family.help = (families ⟨0, 0, 0, 0, 0, 0, 0⟩
      ⟨0, 0, 0, 0, 0, 0, 0⟩).map Family.help := rfl
  refine ⟨fun f hf => ⟨?_, ?_⟩, ?_⟩
  · have hname : f.name ∈ (families m p).map Family.name := List.mem_map_of_mem hf
    rw [hnames] at hname
    revert hname
    generalize f.name = name
    revert name
    decide
  · have hhelp : f.help ∈ (families m p).map Family.help := List.mem_map_of_mem hf
    rw [hhelps] at hhelp
    revert hhelp
    generalize f.help = help
    revert help
    decide
  · rw [hnames]
    decide

/-- **What is exposed is what was read**: a reader of the text gets the families back, for all
values. -/
theorem scrape_render (m : MetricsSnapshot) (p : PipelineMetrics) :
    scrape (render m p) = some (families m p) := by
  obtain ⟨hwell, hnames⟩ := families_wellFormed m p
  rw [render_eq]
  exact scrape_expose hwell hnames

/-! ## The endpoint -/

/-- A text answer.
Source: `budu-proxy/src/admin.rs` `text` -/
def text (status : StatusCode) (body contentType : Str) : Response where
  status := status
  headers := HeaderMap.empty.insert "content-type" (Str.utf8 contentType)
  body := .full (Str.utf8 body)

/-- What the endpoint answers.
Source: `budu-proxy/src/admin.rs` `route` -/
def route (method path : Str) (m : MetricsSnapshot) (p : PipelineMetrics) : Response :=
  if method = "GET" ∧ path = "/metrics" then text .ok (render m p) "text/plain; version=0.0.4"
  else if method = "GET" ∧ path = "/healthz" then text .ok "ok\n" "text/plain"
  else text .notFound "not found\n" "text/plain"

/-- **Numbers are answered to those who ask for them**, and they are the ones that were read. -/
theorem scrape_route_iff {method path : Str} {m : MetricsSnapshot} {p : PipelineMetrics}
    {fs : List Family} :
    (∃ body, (route method path m p).body = .full (Str.utf8 body) ∧ scrape body = some fs) ↔
      method = "GET" ∧ path = "/metrics" ∧ fs = families m p := by
  have hbody : ∀ status body contentType text', (text status body contentType).body =
      .full (Str.utf8 text') ↔ body = text' := by
    intro status body contentType text'
    rw [text, RespBody.full.injEq]
    exact Str.utf8_injective.eq_iff
  unfold route
  by_cases hmetrics : method = "GET" ∧ path = "/metrics"
  · rw [if_pos hmetrics]
    constructor
    · rintro ⟨body, hbytes, hscrape⟩
      obtain rfl := (hbody _ _ _ _).1 hbytes
      rw [scrape_render] at hscrape
      exact ⟨hmetrics.1, hmetrics.2, (Option.some.inj hscrape).symm⟩
    · rintro ⟨-, -, rfl⟩
      exact ⟨render m p, rfl, scrape_render m p⟩
  · rw [if_neg hmetrics]
    refine ⟨?_, fun h => absurd ⟨h.1, h.2.1⟩ hmetrics⟩
    rintro ⟨body, hbytes, hscrape⟩
    exfalso
    by_cases hhealth : method = "GET" ∧ path = "/healthz"
    · rw [if_pos hhealth] at hbytes
      obtain rfl := (hbody _ _ _ _).1 hbytes
      have hnone : scrape "ok\n" = none := by decide
      rw [hnone] at hscrape
      cases hscrape
    · rw [if_neg hhealth] at hbytes
      obtain rfl := (hbody _ _ _ _).1 hbytes
      have hnone : scrape "not found\n" = none := by decide
      rw [hnone] at hscrape
      cases hscrape

end Proxy

end BuduWaf
