import BuduWaf.Supervisor.Throttling

/-!
# `budu`: reloads and the limits

The limits on a request are read in two places. The body gate reads the configuration in force;
the sanity stage has copied its two limits when the pipeline was built, and a reload builds no
pipeline.

* **`Judgement`**: what the limits of a process say of a request; `evaluateEarly_decision` says
  that the early stack decides so, where no stage before the sanity stage does.
* **`limits_reloaded_iff`**: after a reload a request is judged as by a process started from the
  new configuration exactly if the old and the new length and header limits say the same of it.

Two facts about runs are needed: no event builds a pipeline (`run_pipeline`), so the copied limits
are those of the start, and the configuration in force is that of the last reload that could load
one (`run_reload_config`). What is left is to compare two verdicts on one request. The order of the
checks matters there: a head that is too long is not looked at for its number of lines.
-/

namespace BuduWaf.Supervisor

open RateLimit Reputation Pipeline Proxy

variable {X : Crates}

/-! ## What the limits say -/

/-- A process's verdicts by its limits. -/
structure Judgement where
  /-- On the head of a request: the decision of the sanity stage. -/
  head : WafDecision
  /-- On its body. -/
  body : Gate
  /-- On the body of a reply: how buffering it ends, where it is of an inspected type and not
  declared too large. -/
  reply : Response → Option BufferResult

/-- The length a request is measured by. -/
def uriLen (parts : Parts) : Nat :=
  Str.byteLen parts.uri.path + parts.uri.query.elim 0 (Str.byteLen · + 1)

/-- Two limits say the same of a head: both admit its length or neither does, and where it is
admitted, both admit its headers or neither does. -/
def SameHeadVerdict (l l' : LimitsConfig) (parts : Parts) : Prop :=
  (l.maxUriLen < uriLen parts ↔ l'.maxUriLen < uriLen parts) ∧
    (uriLen parts ≤ l.maxUriLen →
      (l.maxHeaderCount < parts.headers.len ↔ l'.maxHeaderCount < parts.headers.len))

/-- The verdicts of a process's own stages and of the configuration in force. -/
def Process.judge (p : Process X) (client : ClientInfo) (req : Request) : Judgement where
  head :=
    (runStages p.pipeline.onError
      (p.pipeline.early.filter fun stage => stage.name == ("sanity" : Str))
      (newCtx req.parts client, p.shared)).decision
  body := bodyGate p.config req
  reply resp :=
    if responseBodyInspectable resp.headers p.config &&
        !declaredLenOver resp.headers p.config.limits.maxInspectBody.toNat then
      some (bufferFrames p.config.limits.maxInspectBody.toNat resp.body.toStream.failure []
        resp.body.toStream.frames)
    else none

/-! ## The head -/

/-- What is left to say of a head that is within the limits.
Source: `budu-pipeline/src/sanity.rs` `SanityStage::inspect` (the declared length) -/
def lengthDecision (ctx : RequestCtx) : WafDecision :=
  match ctx.headers.get "content-length" with
  | none => .allow
  | some v =>
    if ((headerToStr v).bind fun s => Str.parseUInt 64 (Str.trim s)).isNone then
      .block "sanity.content_length" .badRequest "malformed Content-Length"
    else .allow

/-- The decision on the head of a request by the limits: on its length, the number of its headers,
and whether the length it declares is a number. -/
def headDecision (limits : LimitsConfig) (ctx : RequestCtx) : WafDecision :=
  if limits.maxUriLen < Str.byteLen ctx.path + ctx.query.elim 0 (Str.byteLen · + 1) then
    .block "sanity.uri_len" .uriTooLong "request URI exceeds configured limit"
  else if limits.maxHeaderCount < ctx.headers.len then
    .block "sanity.header_count" .requestHeaderFieldsTooLarge "too many request headers"
  else lengthDecision ctx

/-- The sanity stage continues or breaks, as the decision on the head says. -/
theorem sanity_spec (limits : LimitsConfig) (ctx : RequestCtx) :
    (sanity limits ctx = .cont ∧ headDecision limits ctx = .allow) ∨
      sanity limits ctx = .brk (headDecision limits ctx) := by
  unfold sanity headDecision lengthDecision
  split
  · exact .inr rfl
  · split
    · exact .inr rfl
    · cases ctx.headers.get "content-length" with
      | none => exact .inl ⟨rfl, rfl⟩
      | some v =>
          dsimp only
          split
          · exact .inr rfl
          · exact .inl ⟨rfl, rfl⟩

/-- The sanity stage decides a pass, or leaves it to the stages behind it. -/
theorem scan_sanity (onError : OnError) (limits : LimitsConfig) (ctx : RequestCtx) (s : Shared X)
    (log : List Str) {rest : List (Stage (World X))}
    (hrest : ∀ w log, (scan (stageStep onError) rest (w, log)).1 = none) :
    (scan (stageStep onError) (sanityStage limits :: rest) ((ctx, s), log)).1.getD .allow =
      headDecision limits ctx := by
  have hinspect : (sanityStage limits).inspect (ctx, s) = (sanity limits ctx, ctx, s) := rfl
  rcases sanity_spec limits ctx with ⟨hcont, hallow⟩ | hbreak
  · have hstep : stageStep onError (sanityStage limits) ((ctx, s), log) =
        (none, (ctx, s), log) := by
      simp only [stageStep, hinspect, hcont]
    rw [scan_cons_of_none _ hstep, hrest, hallow]
    rfl
  · have hstep : stageStep onError (sanityStage limits) ((ctx, s), log) =
        (some (headDecision limits ctx), (ctx, s), log) := by
      simp only [stageStep, hinspect, hbreak]
    rw [scan_cons_of_some _ hstep]
    rfl

/-- The decision of a run, from its pass. -/
theorem runStages_decision {ω : Type} (onError : OnError) (stages : List (Stage ω)) (w : ω) :
    (runStages onError stages w).decision =
      (scan (stageStep onError) stages (w, [])).1.getD .allow := by
  unfold runStages
  rcases scan (stageStep onError) stages (w, []) with ⟨_ | decision, w', log⟩ <;> rfl

/-- The stages before the sanity stage.
Source: `budu-pipeline/src/lib.rs` `Pipeline::from_config` -/
def beforeSanity (geo : Option (GeoStage X)) (cfg : Config) : List (Stage (World X)) :=
  reputationStage :: (geo.map geoStage).toList ++ [rateLimitStage (globalLimiter cfg.ratelimit)]

/-- The stages before the sanity stage leave the head of the request as it is. -/
theorem beforeSanity_keeps_head (geo : Option (GeoStage X)) (cfg : Config) (onError : OnError)
    (ctx : RequestCtx) (s : Shared X) (log : List Str) :
    let after := (scan (stageStep onError) (beforeSanity geo cfg) ((ctx, s), log)).2.1.1
    after.path = ctx.path ∧ after.query = ctx.query ∧ after.headers = ctx.headers := by
  have hstage : ∀ stage ∈ beforeSanity geo cfg, ∀ w : World X,
      (stage.inspect w).2.1.path = w.1.path ∧ (stage.inspect w).2.1.query = w.1.query ∧
        (stage.inspect w).2.1.headers = w.1.headers := by
    intro stage hmem w
    have hcases : stage = reputationStage ∨ (∃ g, stage = geoStage g) ∨
        stage = rateLimitStage (globalLimiter cfg.ratelimit) := by
      rcases List.mem_append.mp hmem with hfront | hlimit
      · rcases List.mem_cons.mp hfront with h | hgeo
        · exact .inl h
        · obtain ⟨g, -, h⟩ := Option.map_eq_some_iff.mp (Option.mem_toList.mp hgeo)
          exact .inr (.inl ⟨g, h.symm⟩)
      · exact .inr (.inr (List.mem_singleton.mp hlimit))
    rcases hcases with rfl | ⟨g, rfl⟩ | rfl
    · exact ⟨rfl, rfl, rfl⟩
    · rw [geoStage_inspect]
      unfold GeoStage.inspect
      split <;> exact ⟨rfl, rfl, rfl⟩
    · exact ⟨rfl, rfl, rfl⟩
  refine scan_preserves (I := fun v : World X × List Str => v.1.1.path = ctx.path ∧
    v.1.1.query = ctx.query ∧ v.1.1.headers = ctx.headers) ?_ ⟨rfl, rfl, rfl⟩
  rintro stage hmem v ⟨hpath, hquery, hheaders⟩
  obtain ⟨hpath', hquery', hheaders'⟩ := hstage stage hmem v.1
  have hnext : (stageStep onError stage v).2.1 = (stage.inspect v.1).2 := by
    unfold stageStep
    rcases stage.inspect v.1 with ⟨_ | _ | _, w'⟩
    · rfl
    · rfl
    · cases onError <;> rfl
  rw [hnext]
  exact ⟨hpath'.trans hpath, hquery'.trans hquery, hheaders'.trans hheaders⟩

/-- Two choices among the same three different values, each by two conditions in turn. -/
theorem choice_eq_iff {δ : Type} {a b c : δ} {p p' q q' : Prop} [Decidable p] [Decidable p']
    [Decidable q] [Decidable q'] (hab : a ≠ b) (hac : a ≠ c) (hbc : b ≠ c) :
    (if p then a else if q then b else c) = (if p' then a else if q' then b else c) ↔
      (p ↔ p') ∧ (¬ p → (q ↔ q')) := by
  split_ifs <;> grind

/-- Two limits decide alike on a head iff they say the same of its length and, where that is kept,
of its number of lines. -/
theorem headDecision_eq_iff (l l' : LimitsConfig) (parts : Parts) (client : ClientInfo) :
    headDecision l (newCtx parts client) = headDecision l' (newCtx parts client) ↔
      SameHeadVerdict l l' parts := by
  have hlength : ∀ ctx, lengthDecision ctx = .allow ∨ lengthDecision ctx =
      .block "sanity.content_length" .badRequest "malformed Content-Length" := by
    intro ctx
    unfold lengthDecision
    split
    · exact .inl rfl
    · split
      · exact .inr rfl
      · exact .inl rfl
  unfold headDecision SameHeadVerdict
  rw [choice_eq_iff]
  · exact and_congr Iff.rfl (imp_congr Nat.not_lt Iff.rfl)
  · decide
  · rcases hlength (newCtx parts client) with h | h <;> rw [h] <;> decide
  · rcases hlength (newCtx parts client) with h | h <;> rw [h] <;> decide

/-- **The early stack decides by the limits** where no stage before the sanity stage decides. -/
theorem evaluateEarly_decision (geo : Option (GeoStage X)) (cfg : Config) (ctx : RequestCtx)
    (s : Shared X)
    (hbefore : (scan (stageStep cfg.server.onError) (beforeSanity geo cfg) ((ctx, s), [])).1 =
      none) :
    (evaluateEarly (standard geo cfg) ctx s).decision = headDecision cfg.limits ctx := by
  obtain ⟨hpath, hquery, hheaders⟩ :=
    beforeSanity_keeps_head geo cfg cfg.server.onError ctx s []
  have hstack : (standard geo cfg).early =
      beforeSanity geo cfg ++ [sanityStage cfg.limits, normalizeStage] := by
    simp [standard, earlyStack, beforeSanity]
  have hhead : ∀ ctx' : RequestCtx, ctx'.path = ctx.path → ctx'.query = ctx.query →
      ctx'.headers = ctx.headers → headDecision cfg.limits ctx' = headDecision cfg.limits ctx := by
    intro ctx' h h' h''
    unfold headDecision lengthDecision
    rw [h, h', h'']
  unfold evaluateEarly
  rw [hstack, runStages_decision]
  rcases hscan : scan (stageStep cfg.server.onError) (beforeSanity geo cfg) ((ctx, s), []) with
    ⟨decided, ⟨ctx', s'⟩, log⟩
  rw [hscan] at hbefore hpath hquery hheaders
  obtain rfl : decided = none := hbefore
  have honError : (standard geo cfg).onError = cfg.server.onError := rfl
  rw [honError, scan_append_of_none _ hscan, scan_sanity _ _ _ _ _ fun _ _ => rfl]
  exact hhead ctx' hpath hquery hheaders

/-! ## Runs with reloads -/

/-- An event, and the files and feeds it finds. -/
structure Occurrence where
  /-- The files. -/
  fs : FileSystem
  /-- The feeds. -/
  feeds : Feeds
  /-- What happens. -/
  event : Event

/-- One event on the files it finds, which may be others each time. -/
def Host.stepOn (path : Str) (h : Host X) (o : Occurrence) :
    Host X × List (Response × List WafDecision) := h.step o.fs o.feeds path o.event

/-- No event builds a pipeline anew, so its limits stay what they were. -/
theorem stepOn_pipeline (path : Str) (h : Host X) (o : Occurrence) :
    (h.stepOn path o).1.process.pipeline = h.process.pipeline := by
  obtain ⟨fs, feeds, event⟩ := o
  cases event with
  | wait wall mono => rfl
  | request generated req peerIp upstream => rfl
  | maintenance => rfl
  | refresh => rfl
  | reload =>
      show (sighup fs feeds path h.process).pipeline = _
      unfold sighup
      split <;> rfl

/-- Only a reload changes the configuration. -/
theorem stepOn_config (path : Str) (h : Host X) (o : Occurrence)
    (ho : o.event.isReload = false) : (h.stepOn path o).1.process.config = h.process.config := by
  obtain ⟨fs, feeds, event⟩ := o
  cases event with
  | reload => cases ho
  | _ => rfl

/-- A run keeps the pipeline the process was started with. -/
theorem run_pipeline (path : Str) (h : Host X) (os : List Occurrence) :
    (run (Host.stepOn path) h os).1.process.pipeline = h.process.pipeline := by
  induction os generalizing h with
  | nil => rfl
  | cons o os ih =>
      rw [run_cons]
      exact (ih _).trans (stepOn_pipeline path h o)

/-- A run without reloads keeps the configuration. -/
theorem run_config (path : Str) (h : Host X) (os : List Occurrence)
    (hos : ∀ o ∈ os, o.event.isReload = false) :
    (run (Host.stepOn path) h os).1.process.config = h.process.config := by
  induction os generalizing h with
  | nil => rfl
  | cons o os ih =>
      rw [run_cons]
      exact (ih _ fun o' ho' => hos o' (List.mem_cons_of_mem _ ho')).trans
        (stepOn_config path h o (hos o List.mem_cons_self))

/-- The configuration is the one of the last reload whose file loads. -/
theorem run_reload_config {path : Str} {fs : FileSystem} {cfg : Config}
    (hload : Config.load X fs path = .ok cfg) (feeds : Feeds) (h : Host X)
    (before after : List Occurrence) (hafter : ∀ o ∈ after, o.event.isReload = false) :
    (run (Host.stepOn path) h (before ++ ⟨fs, feeds, .reload⟩ :: after)).1.process.config =
      cfg := by
  induction before generalizing h with
  | nil =>
      rw [List.nil_append, run_cons]
      refine (run_config path _ after hafter).trans ?_
      show (sighup fs feeds path h.process).config = cfg
      unfold sighup
      rw [hload]
  | cons o before ih =>
      rw [List.cons_append, run_cons]
      exact ih _

/-- How a process with the standard pipeline of one configuration judges under another one. -/
theorem judge_eq {p : Process X} {geo : Option (GeoStage X)} {built : Config}
    (h : p.pipeline = standard geo built) (client : ClientInfo) (req : Request) :
    p.judge client req =
      { head := headDecision built.limits (newCtx req.parts client)
        body := bodyGate p.config req
        reply := fun resp =>
          if responseBodyInspectable resp.headers p.config &&
              !declaredLenOver resp.headers p.config.limits.maxInspectBody.toNat then
            some (bufferFrames p.config.limits.maxInspectBody.toNat resp.body.toStream.failure []
              resp.body.toStream.frames)
          else none } := by
  have hfilter : (standard geo built).early.filter
      (fun stage => stage.name == ("sanity" : Str)) = [sanityStage built.limits] := by
    cases geo <;> rfl
  unfold Process.judge
  rw [h, hfilter, runStages_decision, scan_sanity _ _ _ _ _ fun _ _ => rfl]

/-- **When a reload is as good as a restart for the limits.** A process is started, and in some
run a configuration is reloaded and stays in force. It judges a request as a process started from
that configuration does, exactly if the limits on the head in the configuration it was itself
started from say the same of the request. Its verdict on the head is the decision of the early
stack where no stage before the limits decides. -/
theorem limits_reloaded_iff {fs fs' : FileSystem} {feeds feeds' : Feeds} {path path' : Str}
    {now now' : Now} {p q : Process X} (hstart : start X fs feeds path now = .ok p)
    (hfresh : start X fs' feeds' path' now' = .ok q) (metrics : Metrics)
    (before after : List Occurrence) {fsNew : FileSystem} (feedsNew : Feeds)
    (hload : Config.load X fsNew path = .ok q.config)
    (hafter : ∀ o ∈ after, o.event.isReload = false) (client : ClientInfo) (req : Request) :
    let later := (run (Host.stepOn path) ⟨p, metrics⟩
      (before ++ ⟨fsNew, feedsNew, .reload⟩ :: after)).1
    (later.process.judge client req = q.judge client req ↔
      SameHeadVerdict p.config.limits q.config.limits req.parts) ∧
    ∃ geo, later.process.pipeline = standard geo p.config ∧ ∀ s : Shared X,
      (scan (stageStep p.config.server.onError) (beforeSanity geo p.config)
        ((newCtx req.parts client, s), [])).1 = none →
      (evaluateEarly later.process.pipeline (newCtx req.parts client) s).decision =
        (later.process.judge client req).head := by
  intro later
  obtain ⟨geo, hbuilt⟩ := (started_of_start hstart).pipeline
  obtain ⟨geo', hbuilt'⟩ := (started_of_start hfresh).pipeline
  have hpipeline : later.process.pipeline = standard geo p.config :=
    (run_pipeline path _ _).trans hbuilt
  have hconfig : later.process.config = q.config :=
    run_reload_config hload feedsNew _ before after hafter
  refine ⟨?_, geo, hpipeline, fun s hbefore => ?_⟩
  · rw [judge_eq hpipeline, judge_eq hbuilt', hconfig, Judgement.mk.injEq]
    simp only [and_true]
    exact headDecision_eq_iff _ _ req.parts client
  · rw [judge_eq hpipeline, hpipeline]
    exact evaluateEarly_decision geo p.config (newCtx req.parts client) s hbefore

/-! ## A limit that is lowered -/

/-- The configuration file after the administrator lowers the longest URI to four bytes. -/
def shortUriToml : Str :=
  unlines
    ["[server]", "listen = \"127.0.0.1:8088\"", "upstream = \"http://192.168.10.20:8080\"",
      "client_ip_header = \"X-Real-IP\"", "trusted_peer = \"127.0.0.1/32\"", "[limits]",
      "max_uri_len = 4", "max_header_count = 100", "max_inspect_body = 1048576", "[ratelimit]",
      "requests_per_sec = 50", "burst = 100", "ttl_secs = 300", "[log]"]

/-- What the file reads as before and after. -/
def shortUriConfig (edited : Bool) : Config :=
  if edited then { Config.minimal with limits := ⟨4, 100, 1048576⟩ } else Config.minimal

/-- A plain build that reads the two configurations. -/
def shortUriBuild : Crates :=
  .plain .none
    { Readers.none with config := fun text => .ok (shortUriConfig (text = shortUriToml)) }

/-- The files before and after the edit. -/
def shortUriFiles (edited : Bool) : FileSystem where
  read path :=
    if path = ("budu.toml" : Str) then
      .ok (Str.utf8 (if edited then shortUriToml else minimalToml))
    else .error "no such file"

/-- The configuration of the example loads, before the edit and after it. -/
theorem load_shortUri (edited : Bool) :
    Config.load shortUriBuild (shortUriFiles edited) "budu.toml" =
      .ok (shortUriConfig edited) := by
  have hparse : shortUriConfig ((if edited then shortUriToml else minimalToml) = shortUriToml) =
      shortUriConfig edited := by
    cases edited <;> decide +kernel
  have hvalid : (shortUriConfig edited).validate shortUriBuild.ipText = .ok () := by
    cases edited <;> decide +kernel
  exact Config.load_of_text rfl (congrArg Except.ok hparse) hvalid

/-- The pipeline and the shared state that are built from the files. -/
def shortUriBuilt (edited : Bool) : Pipeline shortUriBuild × Shared shortUriBuild :=
  (fromConfig shortUriBuild (shortUriFiles edited) ⟨0, 0⟩ (shortUriConfig edited)).toOption.get
    (by cases edited <;> decide +kernel)

/-- The process that was started from the files. -/
def shortUriProcess (edited : Bool) : Process shortUriBuild where
  config := shortUriConfig edited
  pipeline := (shortUriBuilt edited).1
  limiter := globalLimiter (shortUriConfig edited).ratelimit
  shared :=
    (refreshBlocklist (shortUriFiles edited) noFeeds (shortUriConfig edited)
      (shortUriBuilt edited).2).2
  generation := 0

/-- A process starts from it, before the edit and after it. -/
theorem start_shortUri (edited : Bool) :
    start shortUriBuild (shortUriFiles edited) noFeeds "budu.toml" ⟨0, 0⟩ =
      .ok (shortUriProcess edited) := by
  have hbuilt : fromConfig shortUriBuild (shortUriFiles edited) ⟨0, 0⟩ (shortUriConfig edited) =
      .ok (shortUriBuilt edited) := ok_of_toOption_get _ _
  unfold start
  rw [load_shortUri, Except.mapError]
  show ((fromConfig shortUriBuild _ _ _).mapError StartError.build >>= _) = _
  rw [hbuilt]
  rfl

/-- The process started before the edit, after the reload. -/
def shortUriReloaded : Host shortUriBuild :=
  (run (Host.stepOn "budu.toml") ⟨shortUriProcess false, noMetrics⟩
    [⟨shortUriFiles true, noFeeds, .reload⟩]).1

/-- A `GET` request for a path, without query, headers and body. -/
def getPath (path : Str) : Request := ⟨⟨"GET", ⟨none, none, path, none⟩, ⟨[]⟩⟩, ⟨[], none⟩⟩

/-- The client 192.0.2.7, of unknown country. -/
def someClient : ClientInfo := ⟨.v4 0xC0000207#32, none⟩

/-- A request that both limits admit is judged after the reload as after a restart. -/
theorem short_request_judged_alike :
    shortUriReloaded.process.judge someClient (getPath "/a") =
      (shortUriProcess true).judge someClient (getPath "/a") := by
  have hno : ∀ o ∈ ([] : List Occurrence), o.event.isReload = false := fun _ h => by cases h
  have hadmitted : SameHeadVerdict (shortUriConfig false).limits (shortUriConfig true).limits
      (getPath "/a").parts := by
    refine ⟨?_, fun _ => ?_⟩ <;> decide
  exact (limits_reloaded_iff (start_shortUri false) (start_shortUri true) noMetrics [] [] noFeeds
    (load_shortUri true) hno someClient (getPath "/a")).1.mpr hadmitted

/-- The statuses of the answers to a request whose path has five bytes. -/
def longPathStatuses (h : Host shortUriBuild) : List StatusCode :=
  (h.stepOn "budu.toml" ⟨shortUriFiles true, noFeeds, .request "id-1" (getPath "/abcd")
    (.v4 0xC0000207#32) fun _ => .reply ⟨.ok, .empty, .full []⟩⟩).2.map (·.1.status)

/-- The request is answered after the reload, all of whose steps succeed, and refused after a
restart. -/
theorem long_request_judged_apart :
    BothSucceed (shortUriFiles true) noFeeds (shortUriConfig true) (shortUriProcess false) ∧
      shortUriReloaded.process.config = shortUriConfig true ∧
      shortUriReloaded.process.judge someClient (getPath "/abcd") ≠
        (shortUriProcess true).judge someClient (getPath "/abcd") ∧
      longPathStatuses shortUriReloaded = [.ok] ∧
      longPathStatuses ⟨shortUriProcess true, noMetrics⟩ = [.uriTooLong] := by
  have hruns : shortUriReloaded.process.config = shortUriConfig true ∧
      (shortUriReloaded.process.judge someClient (getPath "/abcd")).head ≠
        ((shortUriProcess true).judge someClient (getPath "/abcd")).head ∧
      longPathStatuses shortUriReloaded = [.ok] ∧
      longPathStatuses ⟨shortUriProcess true, noMetrics⟩ = [.uriTooLong] := by
    decide +kernel
  obtain ⟨hconfig, hhead, hstatuses⟩ := hruns
  refine ⟨⟨?_, ?_⟩, hconfig, fun h => hhead (congrArg Judgement.head h), hstatuses⟩
  · exact ⟨_, ok_of_toOption_get (Pipeline.rebuild shortUriBuild (shortUriFiles true)
      (shortUriProcess false).shared.now 1 (shortUriConfig true)) (by decide +kernel)⟩
  · exact ⟨_, ok_of_toOption_get (rebuildBlocks shortUriBuild (shortUriFiles true) noFeeds
      (shortUriProcess false).shared.now (shortUriConfig true)) (by decide +kernel)⟩

end BuduWaf.Supervisor
