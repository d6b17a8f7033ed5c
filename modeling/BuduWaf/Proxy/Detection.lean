import BuduWaf.Pipeline.Reload
import BuduWaf.Proxy.Enforcement
import BuduWaf.Proxy.Simulation

/-!
# `budu-proxy`: detect mode

* **`Engine.allowing`** is the pipeline whose `Block`s are `Allow`s; nothing else about it
  changes. **`handleInner_allowed`**: in detect mode the handler does with a pipeline what it
  does with its allowing version, up to the count of would-be blocks, since one simulates the
  other.
* **`Answer`**: where the client's response comes from.
* **`detect_never_enforces`**: in detect mode the response has one of these origins, every `Block`
  is counted once, and the rest of the handling is that of the allowing pipeline.
* **`throttled_in_detect_iff`**: a client whose global bucket is empty is answered 429, whatever
  the rules and the upstream are, exactly if neither the blocklist nor the country stage breaks
  the early stack before the rate limit is asked.

The simulation runs the handler twice, with the pipeline and with its allowing version, on states
that differ in the recorded decisions and in the count of would-be blocks only. Each part of the
handler has one lemma for where its answer comes from (`…_answer`) and one for what it counts
(`…_counted`), and the theorem about the whole is assembled along the handler's own structure.

For the rate limit, a run is exhibited for each case: with an upstream that never answers and no
rules nothing but the limiter can answer 429.
-/

namespace BuduWaf

namespace Pipeline

/-- A decision with enforcement taken out: a `Block` allows. -/
def downgrade : WafDecision → WafDecision
  | .block _ _ _ => .allow
  | d => d

/-- An evaluation with enforcement taken out. -/
def Evaluation.allowing {ω : Type} (v : Evaluation ω) : Evaluation ω :=
  { v with decision := downgrade v.decision }

end Pipeline

namespace Proxy

open Pipeline Rules

variable {σ : Type}

/-! ## The allowing pipeline -/

/-- The pipeline that sees and writes the same, and allows what it would block. -/
def Engine.allowing (engine : Engine σ) : Engine σ :=
  { engine with
    evaluateEarly := fun ctx s => (engine.evaluateEarly ctx s).allowing
    evaluateLate := fun ctx s => (engine.evaluateLate ctx s).allowing
    evaluateResponse := fun rctx s =>
      (downgrade (engine.evaluateResponse rctx s).1, (engine.evaluateResponse rctx s).2) }

/-- A state as the allowing pipeline leaves it: its blocks are allows, and the count of would-be
blocks is some `w`. -/
def ProxyState.allowed (w : UInt64) (s : ProxyState σ) : ProxyState σ :=
  { s with
    decisions := s.decisions.map downgrade
    metrics := { s.metrics with wouldBlockTotal := w } }

section allowed

variable (w : UInt64)

/-- In detect mode a block is answered like an allow, and only its count differs. -/
theorem actOn_downgrade (d : WafDecision) (m : Metrics) :
    actOn (downgrade d) true { m with wouldBlockTotal := w } =
      ((actOn d true m).1, { (actOn d true m).2 with wouldBlockTotal := w }) := by
  cases d <;> rfl

/-- In detect mode a phase goes the same way with the pipeline that allows all it would block. -/
theorem runPhase_allowed (evaluate : RequestCtx → σ → Evaluation (RequestCtx × σ))
    (ctx : RequestCtx) (s : ProxyState σ) :
    runPhase (fun ctx s => (evaluate ctx s).allowing) true ctx (s.allowed w) =
      ((runPhase evaluate true ctx s).1, (runPhase evaluate true ctx s).2.1,
        (runPhase evaluate true ctx s).2.2.allowed w) := by
  have hact := actOn_downgrade w (evaluate ctx s.shared).decision s.metrics
  simp only [runPhase, ProxyState.allowed, Evaluation.allowing, hact, List.map_append,
    List.map_cons, List.map_nil]

/-- In detect mode a reply is judged the same way by the pipeline that allows all it would block. -/
theorem judgeResponse_allowed (engine : Engine σ) (rctx : ResponseCtx) (s : ProxyState σ) :
    judgeResponse engine.allowing rctx true (s.allowed w) =
      ((judgeResponse engine rctx true s).1, (judgeResponse engine rctx true s).2.allowed w) := by
  have hact := actOn_downgrade w (engine.evaluateResponse rctx s.shared).1 s.metrics
  simp only [judgeResponse, ProxyState.allowed, Engine.allowing, hact, List.map_append,
    List.map_cons, List.map_nil]

/-- In detect mode the pipeline and its allowing version agree, state by state. -/
theorem simulates_allowing (engine : Engine σ) (env : Env σ) :
    Simulates true engine engine.allowing env env fun s t => t = s.allowed w where
  upstream := rfl
  isWhitelisted := by
    rintro s t rfl ip
    rfl
  needsResponseBody := by
    rintro s t rfl
    rfl
  early := by
    rintro s t rfl ctx
    have hphase := runPhase_allowed w engine.evaluateEarly ctx s
    exact ⟨(congrArg Prod.fst hphase).symm, (congrArg (·.2.1) hphase).symm,
      congrArg (·.2.2) hphase⟩
  late := by
    rintro s t rfl ctx
    have hphase := runPhase_allowed w engine.evaluateLate ctx s
    exact ⟨(congrArg Prod.fst hphase).symm, (congrArg (·.2.1) hphase).symm,
      congrArg (·.2.2) hphase⟩
  response := by
    rintro s t rfl rctx
    have hjudge := judgeResponse_allowed w engine rctx s
    exact ⟨(congrArg Prod.fst hjudge).symm, congrArg Prod.snd hjudge⟩
  metrics := by
    rintro s t rfl f hf
    simp only [ProxyState.allowed, hf s.metrics w]
  reading := by
    rintro s t rfl
    rfl
  forwarding := by
    rintro s t rfl call
    rfl
  buffering := by
    rintro s t rfl
    rfl

/-- **In detect mode the pipeline might as well allow**: with the allowing pipeline the response,
the shared state, the forwarded calls and every metric but the count of would-be blocks are the
same. -/
theorem handleInner_allowed (X : Crates) (engine : Engine σ) {cfg : Config} (env : Env σ)
    (id : Str) (req : Request) (hdetect : cfg.server.enforcement = .detect) (peerIp : IpAddr)
    (s : ProxyState σ) :
    handleInner X engine.allowing cfg env id req peerIp (s.allowed w) =
      ((handleInner X engine cfg env id req peerIp s).1,
        (handleInner X engine cfg env id req peerIp s).2.allowed w) := by
  have hsim := simulates_allowing w engine env
  rw [← decide_eq_true hdetect] at hsim
  obtain ⟨hanswer, hstate⟩ := hsim.handleInner id req peerIp (X := X) rfl
  exact Prod.ext hanswer.symm hstate

end allowed

/-! ## The count of would-be blocks -/

/-- From one state to a later one, every `Block` among the new decisions was counted once. -/
def Counted (s s' : ProxyState σ) : Prop :=
  ∃ new, s'.decisions = s.decisions ++ new ∧
    s'.metrics.wouldBlockTotal =
      s.metrics.wouldBlockTotal + UInt64.ofNat (new.countP WafDecision.isBlock)

/-- Where no decision was made and nothing counted, all would-be blocks are counted. -/
theorem Counted.of_eq {s s' : ProxyState σ} (hdecisions : s'.decisions = s.decisions)
    (hmetrics : s'.metrics.wouldBlockTotal = s.metrics.wouldBlockTotal) : Counted s s' :=
  ⟨[], by simp [hdecisions], by simp [hmetrics]⟩

/-- If all would-be blocks of two parts of the handler are counted, all of both are. -/
theorem Counted.trans {s t u : ProxyState σ} (hst : Counted s t) (htu : Counted t u) :
    Counted s u := by
  obtain ⟨new, hd, hm⟩ := hst
  obtain ⟨new', hd', hm'⟩ := htu
  refine ⟨new ++ new', by rw [hd', hd, List.append_assoc], ?_⟩
  rw [hm', hm, List.countP_append, UInt64.ofNat_add, UInt64.add_assoc]

/-- Acting on one decision in detect mode counts it if it is a block. -/
theorem actOn_counts (d : WafDecision) (m : Metrics) :
    (actOn d true m).2.wouldBlockTotal =
      m.wouldBlockTotal + UInt64.ofNat ([d].countP WafDecision.isBlock) := by
  cases d <;> simp [actOn, Metrics.wouldBlock, Metrics.record, WafDecision.isBlock]

/-- A phase in detect mode counts each would-be block once. -/
theorem runPhase_counted (evaluate : RequestCtx → σ → Evaluation (RequestCtx × σ))
    (ctx : RequestCtx) (s : ProxyState σ) : Counted s (runPhase evaluate true ctx s).2.2 :=
  ⟨[_], rfl, actOn_counts _ _⟩

/-- The decision on a reply in detect mode counts a would-be block once. -/
theorem judgeResponse_counted (engine : Engine σ) (rctx : ResponseCtx) (s : ProxyState σ) :
    Counted s (judgeResponse engine rctx true s).2 :=
  ⟨[_], rfl, actOn_counts _ _⟩

/-! ## Where the response comes from -/

/-- The origins of a response that no WAF verdict was enforced for. -/
inductive Answer (X : Crates) (cfg : Config) (env : Env σ) (req : Request) (s : ProxyState σ) :
    Response → Prop
  /-- The upstream's reply. -/
  | reply {call reply} (hcall : call ∈ s.forwards)
      (hreply : forwardResult X cfg env call = .ok reply) : Answer X cfg env req s reply
  /-- The upstream's reply with its whole body, sent from memory. -/
  | reemitted {call reply bytes} (hcall : call ∈ s.forwards)
      (hreply : forwardResult X cfg env call = .ok reply) (hbody : reply.body.data? = some bytes) :
      Answer X cfg env req s (reemit reply bytes)
  /-- The 429 of a `RateLimited` decision. -/
  | throttled {secs} (hlast : s.decisions.getLast? = some (.rateLimited secs)) :
      Answer X cfg env req s (decisionResponse (.rateLimited secs))
  /-- The 413 of the body gate. -/
  | bodyTooLarge (hgate : bodyGate cfg req = .tooLarge) :
      Answer X cfg env req s
        (errorResponse .payloadTooLarge "request body exceeds inspection limit")
  /-- The 504 of an upstream timeout, or the 502 of another forward failure. -/
  | forwardFailed {call e} (hcall : call ∈ s.forwards)
      (hfailed : forwardResult X cfg env call = .error e) : Answer X cfg env req s e.response
  /-- The 502 of a response body that is over the limit or cannot be read. -/
  | replyRefused {call reply msg} (hcall : call ∈ s.forwards)
      (hreply : forwardResult X cfg env call = .ok reply)
      (hbody : cfg.limits.maxInspectBody.toNat < (dataOf reply.body.toStream.frames).length ∨
        reply.body.toStream.failure ≠ none) :
      Answer X cfg env req s (errorResponse .badGateway msg)

/-- What detect mode answers with by itself is a rate-limit answer. -/
theorem actOn_answers {d : WafDecision} {m : Metrics} {resp : Response}
    (h : (actOn d true m).1 = some resp) :
    ∃ secs, d = .rateLimited secs ∧ resp = decisionResponse (.rateLimited secs) := by
  cases d with
  | allow => simp [actOn] at h
  | block ruleId status reason => simp [actOn] at h
  | rateLimited secs => exact ⟨secs, rfl, (Option.some.inj h).symm⟩

section answer

variable (X : Crates) (engine : Engine σ) {cfg : Config} (env : Env σ) (id : Str) (req : Request)
  (client : ClientInfo)

/-- A phase that answers in detect mode throttles. -/
theorem runPhase_answers {evaluate : RequestCtx → σ → Evaluation (RequestCtx × σ)}
    {ctx : RequestCtx} {s : ProxyState σ} {resp : Response}
    (h : (runPhase evaluate true ctx s).1 = some resp) :
    Answer X cfg env req (runPhase evaluate true ctx s).2.2 resp := by
  obtain ⟨secs, hd, rfl⟩ := actOn_answers h
  refine .throttled ?_
  simp only [runPhase, List.getLast?_append, List.getLast?_singleton, hd, Option.some_or]

/-- In detect mode the decision on a reply leaves it one of the origins: it is answered with, or a
rate limit answers. -/
theorem judgeResponse_answers {rctx : ResponseCtx} {s : ProxyState σ} {resp fallback : Response}
    (h : Answer X cfg env req (judgeResponse engine rctx true s).2 fallback)
    (hresp : resp = (judgeResponse engine rctx true s).1.getD fallback) :
    Answer X cfg env req (judgeResponse engine rctx true s).2 resp := by
  subst hresp
  cases hanswer : (judgeResponse engine rctx true s).1 with
  | none => exact h
  | some resp =>
      obtain ⟨secs, hd, rfl⟩ := actOn_answers hanswer
      refine .throttled ?_
      simp only [judgeResponse, List.getLast?_append, List.getLast?_singleton, hd,
        Option.some_or]

/-- An inspected reply to a call is answered with, judged, or failed while it was buffered. -/
theorem inspectResponse_answer {call : ForwardCall} {reply : Response} (path : Str)
    {s : ProxyState σ} (hcall : call ∈ s.forwards)
    (hreply : forwardResult X cfg env call = .ok reply) :
    Answer X cfg env req (inspectResponse engine cfg env reply client true path s).2
        (inspectResponse engine cfg env reply client true path s).1 ∧
      Counted s (inspectResponse engine cfg env reply client true path s).2 := by
  unfold inspectResponse
  split
  · have hspec := bufferFrames_spec cfg.limits.maxInspectBody.toNat reply.body.toStream.failure
      reply.body.toStream.frames []
    cases hbuffer : bufferFrames cfg.limits.maxInspectBody.toNat reply.body.toStream.failure []
        reply.body.toStream.frames with
    | tooLarge =>
        rw [hbuffer] at hspec
        exact ⟨.replyRefused hcall hreply (.inl hspec), .of_eq rfl rfl⟩
    | readError =>
        rw [hbuffer] at hspec
        exact ⟨.replyRefused hcall hreply (.inr hspec), .of_eq rfl rfl⟩
    | done bytes =>
        rw [hbuffer] at hspec
        obtain ⟨hended, rfl⟩ := hspec
        have hbody := data?_of_ended hended
        refine ⟨judgeResponse_answers X engine env req (.reemitted hcall hreply hbody) rfl, ?_⟩
        exact judgeResponse_counted engine _ { s with shared := env.whileBuffering s.shared }
  · exact ⟨judgeResponse_answers X engine env req (.reply hcall hreply) rfl,
      judgeResponse_counted engine _ s⟩

/-- In detect mode what comes of a call has one of the origins, and its would-be blocks are counted.
-/
theorem forwardAndInspect_answer (hdetect : cfg.server.enforcement = .detect) (body : RespBody)
    (len : Option Nat) (s : ProxyState σ) :
    Answer X cfg env req (forwardAndInspect X engine cfg env id req client body len s).2
        (forwardAndInspect X engine cfg env id req client body len s).1 ∧
      Counted s (forwardAndInspect X engine cfg env id req client body len s).2 := by
  unfold forwardAndInspect forward
  simp only [hdetect, decide_true]
  cases hresult : forwardResult X cfg env ⟨forwardParts cfg id req.parts, body, len⟩ with
  | error e =>
      exact ⟨.forwardFailed (List.mem_append_right _ List.mem_cons_self) hresult, .of_eq rfl rfl⟩
  | ok reply =>
      exact inspectResponse_answer X engine env req client req.parts.uri.path
        (s := { s with
          metrics := s.metrics.record .allow
          shared := env.whileForwarding s.shared
          forwards := s.forwards ++ [⟨forwardParts cfg id req.parts, body, len⟩] })
        (List.mem_append_right _ List.mem_cons_self) hresult

/-- In detect mode the answer of the late phase and the call has one of the origins. -/
theorem lateAndForward_answer (hdetect : cfg.server.enforcement = .detect) (ctx : RequestCtx)
    (body : RespBody) (len : Option Nat) (s : ProxyState σ) :
    Answer X cfg env req (lateAndForward X engine cfg env id req client ctx body len s).2
        (lateAndForward X engine cfg env id req client ctx body len s).1 ∧
      Counted s (lateAndForward X engine cfg env id req client ctx body len s).2 := by
  have hphase := runPhase_counted engine.evaluateLate ctx s
  unfold lateAndForward
  simp only [hdetect, decide_true]
  cases hanswer : (runPhase engine.evaluateLate true ctx s).1 with
  | some resp => exact ⟨runPhase_answers X env req hanswer, hphase⟩
  | none =>
      obtain ⟨h1, h2⟩ := forwardAndInspect_answer X engine env id req client hdetect body len
        (runPhase engine.evaluateLate true ctx s).2.2
      exact ⟨h1, hphase.trans h2⟩

/-- In detect mode the answer from the body gate on has one of the origins. -/
theorem gateAndForward_answer (hdetect : cfg.server.enforcement = .detect) (ctx : RequestCtx)
    (s : ProxyState σ) :
    Answer X cfg env req (gateAndForward X engine cfg env id req client ctx s).2
        (gateAndForward X engine cfg env id req client ctx s).1 ∧
      Counted s (gateAndForward X engine cfg env id req client ctx s).2 := by
  unfold gateAndForward
  cases hgate : bodyGate cfg req with
  | tooLarge => exact ⟨.bodyTooLarge hgate, .of_eq rfl rfl⟩
  | buffered b =>
      exact lateAndForward_answer X engine env id req client hdetect _ _ _
        { s with shared := env.whileReading s.shared }
  | streamed => exact lateAndForward_answer X engine env id req client hdetect ctx _ _ s

/-- In detect mode the answer to an inspected request has one of the origins. -/
theorem inspectAndForward_answer (hdetect : cfg.server.enforcement = .detect)
    (s : ProxyState σ) :
    Answer X cfg env req (inspectAndForward X engine cfg env id req client s).2
        (inspectAndForward X engine cfg env id req client s).1 ∧
      Counted s (inspectAndForward X engine cfg env id req client s).2 := by
  have hphase := runPhase_counted engine.evaluateEarly (newCtx req.parts client) s
  unfold inspectAndForward
  simp only [hdetect, decide_true]
  cases hanswer : (runPhase engine.evaluateEarly true (newCtx req.parts client) s).1 with
  | some resp => exact ⟨runPhase_answers X env req hanswer, hphase⟩
  | none =>
      obtain ⟨h1, h2⟩ := gateAndForward_answer X engine env id req client hdetect
        (runPhase engine.evaluateEarly true (newCtx req.parts client) s).2.1
        (runPhase engine.evaluateEarly true (newCtx req.parts client) s).2.2
      exact ⟨h1, hphase.trans h2⟩

/-- In detect mode every answer has one of the origins, and every would-be block is counted once. -/
theorem handleInner_answer (hdetect : cfg.server.enforcement = .detect) (peerIp : IpAddr)
    (s : ProxyState σ) :
    Answer X cfg env req (handleInner X engine cfg env id req peerIp s).2
        (handleInner X engine cfg env id req peerIp s).1 ∧
      Counted s (handleInner X engine cfg env id req peerIp s).2 := by
  unfold handleInner
  dsimp only
  split
  · unfold bypass forward
    dsimp only
    cases hresult : forwardResult X cfg env
        ⟨forwardParts cfg id req.parts, .stream req.body, none⟩ with
    | error e =>
        exact ⟨.forwardFailed (List.mem_append_right _ List.mem_cons_self) hresult,
          .of_eq rfl rfl⟩
    | ok reply =>
        exact ⟨.reply (List.mem_append_right _ List.mem_cons_self) hresult, .of_eq rfl rfl⟩
  · exact inspectAndForward_answer X engine env id req _ hdetect
      { s with metrics := s.metrics.request }

end answer

/-- **Detect mode enforces no verdict.** For every pipeline, state, request and upstream, the
response is the upstream's reply, or the answer to a `RateLimited` decision, the body gate's, a
forward failure's or an unreadable response body's; every `Block` decision was counted once; and
the rest of the handling is that of the pipeline which allows what this one blocks. -/
theorem detect_never_enforces {X : Crates} (engine : Engine σ) {cfg : Config} (env : Env σ)
    (id : Str) (req : Request) (peerIp : IpAddr) (s : ProxyState σ)
    (hdetect : cfg.server.enforcement = .detect) :
    Answer X cfg env req (handleInner X engine cfg env id req peerIp s).2
        (handleInner X engine cfg env id req peerIp s).1 ∧
      Counted s (handleInner X engine cfg env id req peerIp s).2 ∧
        ∀ w, handleInner X engine.allowing cfg env id req peerIp (s.allowed w) =
          ((handleInner X engine cfg env id req peerIp s).1,
            (handleInner X engine cfg env id req peerIp s).2.allowed w) := by
  obtain ⟨hanswer, hcounted⟩ := handleInner_answer X engine env id req hdetect peerIp s
  exact ⟨hanswer, hcounted, fun w => handleInner_allowed w X engine env id req hdetect peerIp s⟩

/-- The configuration of the form post in detect mode, one request a second. -/
def detectConfig : Config :=
  { formConfig with
    server := { formConfig.server with enforcement := .detect }
    ratelimit := ⟨1, 1, 300⟩ }

/-- What becomes of the form post in detect mode when an early stage panics. -/
theorem formPost_in_detect_mode :
    let engine := (Pipeline.mk [panicky] lateStack .closed).engine
    let r := handleInner bareBuild engine detectConfig (replyingEnv _) "id-1" formPost localPeer
      bareState
    Answer bareBuild detectConfig (replyingEnv _) formPost r.2 r.1 ∧ Counted bareState r.2 ∧
      ∀ w, handleInner bareBuild engine.allowing detectConfig (replyingEnv _) "id-1" formPost
        localPeer (bareState.allowed w) = (r.1, r.2.allowed w) :=
  detect_never_enforces _ (replyingEnv _) "id-1" formPost localPeer bareState rfl

/-! ## The rate limit behind the blocklist -/

section throttled

variable {X : Crates}

/-- What the stages before the rate limit let pass: the address is not blocklisted, and the
country stage, if there is one, permits it. -/
def PassesFirst (geo : Option (Reputation.GeoStage X)) (s : Shared X) (ip : IpAddr) : Prop :=
  Reputation.contains s.blocks ip s.now.wall = false ∧ ∀ g, geo = some g → g.permits ip = true

/-- The global bucket of an address is empty. -/
def BucketEmpty (cfg₀ : Config) (s : Shared X) (ip : IpAddr) : Prop :=
  ∃ secs, ((RateLimit.globalLimiter cfg₀.ratelimit).check s.limiters s.now.mono ip).1 = .error secs

/-- Past the blocklist and the countries, an empty bucket decides. -/
theorem early_throttled {geo : Option (Reputation.GeoStage X)} (cfg₀ : Config) (ctx : RequestCtx)
    {s : Shared X} (hpass : PassesFirst geo s ctx.client.ip)
    (hempty : BucketEmpty cfg₀ s ctx.client.ip) :
    ∃ secs, ((standard geo cfg₀).evaluateEarly ctx s).decision = .rateLimited secs := by
  obtain ⟨secs, hempty⟩ := hempty
  refine ⟨secs, ?_⟩
  have hrate : ∀ ctx' : RequestCtx, ctx'.client.ip = ctx.client.ip →
      ∃ w, (rateLimitStage (RateLimit.globalLimiter cfg₀.ratelimit)).inspect (ctx', s) =
        (.brk (.rateLimited secs), w) := by
    intro ctx' hip
    have hcheck : (throttle ((RateLimit.globalLimiter cfg₀.ratelimit).check s.limiters
        s.now.mono ctx'.client.ip).1) = .brk (.rateLimited secs) := by
      rw [hip, hempty]; rfl
    exact ⟨_, Prod.ext hcheck rfl⟩
  have hreputation : reputationStage.inspect (ctx, s) = (.cont, (ctx, s)) :=
    Prod.ext (if_neg (by simp [hpass.1])) rfl
  have hdecision : ((standard geo cfg₀).evaluateEarly ctx s).decision =
      (outcome cfg₀.server.onError (earlyStack geo cfg₀) (ctx, s)).1 := rfl
  rw [hdecision]
  unfold earlyStack
  rw [List.cons_append, outcome_cons_cont _ _ hreputation]
  cases geo with
  | none =>
      obtain ⟨w, hw⟩ := hrate ctx rfl
      exact congrArg Prod.fst (outcome_cons_brk _ _ hw)
  | some g =>
      have hgeo : (geoStage g).inspect (ctx, s) = (.cont, ((g.inspect ctx).2, s)) := by
        refine Prod.ext ?_ rfl
        simp only [geoStage_inspect, Reputation.GeoStage.inspect, hpass.2 g rfl, if_true]
      obtain ⟨w, hw⟩ := hrate (g.inspect ctx).2 (Reputation.GeoStage.inspect_ip g ctx)
      simp only [Option.map_some, Option.toList_some, List.singleton_append]
      rw [outcome_cons_cont _ _ hgeo]
      exact congrArg Prod.fst (outcome_cons_brk _ _ hw)

/-- A blocklisted address, or one of a refused country, never gets to the rate limit. -/
theorem early_blocks {geo : Option (Reputation.GeoStage X)} (cfg₀ : Config) (ctx : RequestCtx)
    {s : Shared X} (h : ¬ PassesFirst geo s ctx.client.ip) :
    ((standard geo cfg₀).evaluateEarly ctx s).decision.isBlock = true := by
  have hdecision : ((standard geo cfg₀).evaluateEarly ctx s).decision =
      (outcome cfg₀.server.onError (earlyStack geo cfg₀) (ctx, s)).1 := rfl
  rw [hdecision]
  unfold earlyStack
  rw [List.cons_append]
  cases hlisted : Reputation.contains s.blocks ctx.client.ip s.now.wall with
  | true =>
      have hreputation : reputationStage.inspect (ctx, s) =
          (.brk (.block "reputation.blocklist" .forbidden "source IP is blocklisted"), (ctx, s)) :=
        Prod.ext (if_pos hlisted) rfl
      rw [outcome_cons_brk _ _ hreputation]
      rfl
  | false =>
      have hreputation : reputationStage.inspect (ctx, s) = (.cont, (ctx, s)) :=
        Prod.ext (if_neg (by simp [hlisted])) rfl
      obtain ⟨g, rfl, hg⟩ : ∃ g, geo = some g ∧ g.permits ctx.client.ip = false := by
        by_contra hall
        apply h
        refine ⟨hlisted, ?_⟩
        intro g hgeo
        by_contra hg
        exact hall ⟨g, hgeo, by simpa using hg⟩
      have hgeo : (geoStage g).inspect (ctx, s) =
          (.brk (.block "geoip.country" .forbidden "source country not permitted"),
            ((g.inspect ctx).2, s)) := by
        refine Prod.ext ?_ rfl
        simp only [geoStage_inspect, Reputation.GeoStage.inspect, hg, Bool.false_eq_true, if_false]
      rw [outcome_cons_cont _ _ hreputation]
      simp only [Option.map_some, Option.toList_some, List.singleton_append]
      rw [outcome_cons_brk _ _ hgeo]
      rfl

variable (X) in
/-- The rule set without rules, which lets everything through. -/
def noRules : RuleSet X := ⟨[], [], 0, .forbidden, []⟩

/-- Without rules the late stages allow or block. -/
theorem late_without_rules (geo : Option (Reputation.GeoStage X)) (cfg₀ : Config)
    (ctx : RequestCtx) {s : Shared X} (h : s.rules = noRules X) :
    ((standard geo cfg₀).evaluateLate ctx s).decision = .allow ∨
      ((standard geo cfg₀).evaluateLate ctx s).decision.isBlock = true := by
  have hrules : rulesDecision ctx s = none := by
    simp only [rulesDecision, h]
    rfl
  have hdecision : ((standard geo cfg₀).evaluateLate ctx s).decision =
      lateDecision cfg₀.server.onError ctx s := rfl
  rw [hdecision, lateDecision_eq, hrules, Option.getD_none]
  cases s.signatures.scan (Signatures.haystack ctx) with
  | none => exact .inl rfl
  | some hit => exact .inr rfl

end throttled

/-- An early phase that throttles is answered at once, in both modes. -/
theorem inspectAndForward_of_throttled (X : Crates) {engine : Engine σ} {cfg : Config} (env : Env σ)
    (id : Str) (req : Request) (client : ClientInfo) {s : ProxyState σ} {secs : UInt32}
    (h : (engine.evaluateEarly (newCtx req.parts client) s.shared).decision = .rateLimited secs) :
    (inspectAndForward X engine cfg env id req client s).1 =
      decisionResponse (.rateLimited secs) := by
  simp only [inspectAndForward, runPhase, h, actOn]

/-- In detect mode a block of the early phase leads on to the body gate. -/
theorem inspectAndForward_of_block (X : Crates) {engine : Engine σ} {cfg : Config}
    (hdetect : cfg.server.enforcement = .detect) (env : Env σ) (id : Str) (req : Request)
    (client : ClientInfo) {s : ProxyState σ}
    (h : (engine.evaluateEarly (newCtx req.parts client) s.shared).decision.isBlock = true) :
    inspectAndForward X engine cfg env id req client s =
      gateAndForward X engine cfg env id req client
        (runPhase engine.evaluateEarly true (newCtx req.parts client) s).2.1
        (runPhase engine.evaluateEarly true (newCtx req.parts client) s).2.2 := by
  have hnone : (runPhase engine.evaluateEarly true (newCtx req.parts client) s).1 = none :=
    actOn_eq_none_iff.mpr (.inr ⟨rfl, h⟩)
  unfold inspectAndForward
  simp only [hdetect, decide_true, hnone]

/-! ### An upstream that times out -/

/-- An upstream that never answers, and no other tasks. -/
def timeoutEnv (σ : Type) : Env σ where
  upstream _ := .timeout
  whileReading := id
  whileForwarding := id
  whileBuffering := id

variable (σ) in
/-- With an upstream that never replies a call fails. -/
theorem forwardResult_timeout (X : Crates) (cfg : Config) (call : ForwardCall) :
    ∃ e, forwardResult X cfg (timeoutEnv σ) call = .error e := by
  unfold forwardResult
  cases rewriteUri X cfg.server.upstream call.parts.uri with
  | error e => exact ⟨_, rfl⟩
  | ok uri => exact ⟨_, rfl⟩

/-- Without an answer of the upstream, a request its late stages do not throttle is not answered
429. -/
theorem lateAndForward_timeout (X : Crates) {engine : Engine σ} {cfg : Config}
    (hdetect : cfg.server.enforcement = .detect) (id : Str) (req : Request) (client : ClientInfo)
    {ctx : RequestCtx} (body : RespBody) (len : Option Nat) {s : ProxyState σ}
    (hlate : (engine.evaluateLate ctx s.shared).decision = .allow ∨
      (engine.evaluateLate ctx s.shared).decision.isBlock = true) :
    (lateAndForward X engine cfg (timeoutEnv σ) id req client ctx body len s).1.status ≠
      .tooManyRequests := by
  have hnone : (runPhase engine.evaluateLate true ctx s).1 = none :=
    actOn_eq_none_iff.mpr (hlate.imp_right fun h => ⟨rfl, h⟩)
  obtain ⟨e, he⟩ := forwardResult_timeout σ X cfg
    ⟨forwardParts cfg id req.parts, body, len⟩
  unfold lateAndForward forwardAndInspect forward
  simp only [hdetect, decide_true, hnone, he]
  cases e <;> simp [onForwardError, ForwardError.response, errorResponse, StatusCode.badGateway,
    StatusCode.gatewayTimeout, StatusCode.tooManyRequests]

/-- In detect mode and without rules, a request at the body gate is not answered with 429 either. -/
theorem gateAndForward_timeout {X : Crates} (geo : Option (Reputation.GeoStage X)) (cfg₀ : Config)
    {cfg : Config} (hdetect : cfg.server.enforcement = .detect) (id : Str) (req : Request)
    (client : ClientInfo) (ctx : RequestCtx) {s : ProxyState (Shared X)}
    (hrules : s.shared.rules = noRules X) :
    (gateAndForward X (standard geo cfg₀).engine cfg (timeoutEnv _) id req client ctx s).1.status ≠
      .tooManyRequests := by
  unfold gateAndForward
  cases bodyGate cfg req with
  | tooLarge => exact (by decide : StatusCode.payloadTooLarge ≠ .tooManyRequests)
  | buffered bytes =>
      exact lateAndForward_timeout X hdetect id req client _ _
        (late_without_rules geo cfg₀ _ hrules)
  | streamed =>
      exact lateAndForward_timeout X hdetect id req client _ _
        (late_without_rules geo cfg₀ _ hrules)

/-- **The rate limit in detect mode.** A client whose global bucket is empty is answered 429,
whatever the rules are and whatever the upstream and other tasks do, exactly if it is not
blocklisted and its country is permitted: a would-be block of these earlier stages ends the early
stack before the rate limit is asked, and is then not enforced. -/
theorem throttled_in_detect_iff {X : Crates} (geo : Option (Reputation.GeoStage X))
    (cfg₀ cfg : Config) (id : Str) (req : Request) (peerIp : IpAddr) (s : ProxyState (Shared X))
    (hdetect : cfg.server.enforcement = .detect)
    (hclient : Pipeline.isWhitelisted s.shared
      (resolveClient X cfg req.parts.headers peerIp).ip = false)
    (hempty : BucketEmpty cfg₀ s.shared (resolveClient X cfg req.parts.headers peerIp).ip) :
    (∀ (rs : RuleSet X) (env : Env (Shared X)),
      (handleInner X (standard geo cfg₀).engine cfg env id req peerIp
        { s with shared := { s.shared with rules := rs } }).1.status = .tooManyRequests) ↔
      PassesFirst geo s.shared (resolveClient X cfg req.parts.headers peerIp).ip := by
  have hinspected : ∀ (rs : RuleSet X) (env : Env (Shared X)),
      handleInner X (standard geo cfg₀).engine cfg env id req peerIp
          { s with shared := { s.shared with rules := rs } } =
        inspectAndForward X (standard geo cfg₀).engine cfg env id req
          (resolveClient X cfg req.parts.headers peerIp)
          { s with shared := { s.shared with rules := rs }, metrics := s.metrics.request } :=
    fun rs env => if_neg (fun h => absurd (hclient.symm.trans h) Bool.false_ne_true)
  simp only [hinspected]
  constructor
  · intro h
    by_contra hpass
    -- The would-be block ends the early stack, and nothing after it throttles.
    have hblock := early_blocks cfg₀ (newCtx req.parts
      (resolveClient X cfg req.parts.headers peerIp))
      (s := { s.shared with rules := noRules X }) hpass
    have hrules := (standard_early_frame geo cfg₀ (newCtx req.parts
      (resolveClient X cfg req.parts.headers peerIp)) { s.shared with rules := noRules X }).2
    have hstatus := h (noRules X) (timeoutEnv _)
    rw [inspectAndForward_of_block X hdetect _ id req _ hblock] at hstatus
    exact gateAndForward_timeout geo cfg₀ hdetect id req _ _ hrules hstatus
  · intro hpass rs env
    obtain ⟨secs, hsecs⟩ := early_throttled cfg₀ (newCtx req.parts
      (resolveClient X cfg req.parts.headers peerIp)) (s := { s.shared with rules := rs })
      hpass hempty
    rw [inspectAndForward_of_throttled X env id req _ hsecs]
    rfl

/-! ## A blocklisted client with an empty bucket -/

/-- The detect-mode configuration once the peer was put on the blocklist. -/
def listedConfig : Config :=
  { detectConfig with reputation :=
      { detectConfig.reputation with blocklist := [.v4 0x7F000001#32 32] } }

/-- The state after the peer spent its token, and, if so asked, a refresh of the blocklist with
the peer on it. -/
def drainedState (listed : Bool) : ProxyState (Shared bareBuild) :=
  let started := ((fromConfig bareBuild bareFiles ⟨0, 0⟩ detectConfig).toOption.get (by decide)).2
  let drained := (handleInner bareBuild (standard none detectConfig).engine detectConfig
    (replyingEnv _) "id-1" formPost localPeer { bareState with shared := started }).2
  if listed then
    { drained with shared :=
        (refreshBlocklist bareFiles ⟨true, fun _ => none⟩ listedConfig drained.shared).2 }
  else drained

/-- The peer is not blocklisted, so its second post is answered 429. -/
theorem throttled_in_detect_unlisted :
    (∀ (rs : RuleSet bareBuild) (env : Env (Shared bareBuild)),
      (handleInner bareBuild (standard none detectConfig).engine detectConfig env "id-2" formPost
        localPeer { drainedState false with
          shared := { (drainedState false).shared with rules := rs } }).1.status =
            .tooManyRequests) ↔
      PassesFirst none (drainedState false).shared
        (resolveClient bareBuild detectConfig formPost.parts.headers localPeer).ip :=
  throttled_in_detect_iff none detectConfig detectConfig "id-2" formPost localPeer
    (drainedState false) rfl (by decide +kernel) ⟨1, by decide +kernel⟩

/-- The peer is blocklisted and its bucket is empty, and its second post is answered with the
upstream's 200. -/
theorem listed_client_not_throttled :
    Pipeline.isWhitelisted (drainedState true).shared
        (resolveClient bareBuild detectConfig formPost.parts.headers localPeer).ip = false ∧
      BucketEmpty detectConfig (drainedState true).shared
        (resolveClient bareBuild detectConfig formPost.parts.headers localPeer).ip ∧
      (handleInner bareBuild (standard none detectConfig).engine detectConfig (replyingEnv _)
        "id-2" formPost localPeer (drainedState true)).1.status = .ok :=
  ⟨by decide +kernel, ⟨1, by decide +kernel⟩, by decide +kernel⟩

end Proxy

end BuduWaf
