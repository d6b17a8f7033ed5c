import BuduWaf.Pipeline.Reload
import BuduWaf.Proxy.Enforcement

/-!
# `budu-proxy`: the balance of the request counters

The counters are bumped one by one, by any number of requests at a time. What a request adds to
them depends on what it meets, not on their values, so at rest they hold the sum over the requests
handled, in whatever order the bumps came.

* **`responseEnforced`**: the response phase answers a request that was counted as allowed
  already.
* **`Tallies`**, **`handleInner_tallies`**: each request is counted once as taken in, and once as
  decided, but twice where the response phase answers.
* **`Runs`**: requests in any number, their bumps in any order.
* **`tally_balances_iff`**: at rest the decisions add up to the requests exactly if no response
  phase answered.

What a request adds to the counters does not depend on them, so it can be computed beforehand, from
what the request meets (`Tallies`). A run is then a list of bumps in which each request has its own,
in any order with those of others, and sums do not depend on order. The counters are 64 bits wide
and wrap; a balance is claimed below that.
-/

namespace BuduWaf

/-! ## Single bumps -/

/-- One change of a counter, by the method of `Metrics` that makes it. -/
inductive Bump where
  | request
  | record (decision : WafDecision)
  | upstreamError
  | wouldBlock
  | whitelisted

namespace Bump

/-- The change that takes a request in. -/
def isRequest : Bump → Bool
  | .request => true
  | _ => false

/-- A change that tallies a decision. -/
def isRecord : Bump → Bool
  | .record _ => true
  | _ => false

end Bump

namespace Metrics

/-- The counters after one change. -/
def bump (m : Metrics) : Bump → Metrics
  | .request => m.request
  | .record decision => m.record decision
  | .upstreamError => m.upstreamError
  | .wouldBlock => m.wouldBlock
  | .whitelisted => m.whitelisted

/-- The counters after some changes, in their order. -/
def bumps (m : Metrics) (bs : List Bump) : Metrics := bs.foldl bump m

/-- The decisions that were tallied, of all three kinds. -/
def finalTotal (m : Metrics) : UInt64 := m.allowedTotal + m.blockedTotal + m.ratelimitedTotal

/-- The counters at the start of the process. -/
def zero : Metrics := ⟨0, 0, 0, 0, 0, 0, 0⟩

/-- Bumping by some and then by others is bumping by all of them in a row. -/
theorem bumps_append (m : Metrics) (bs bs' : List Bump) :
    m.bumps (bs ++ bs') = (m.bumps bs).bumps bs' := List.foldl_append

/-- A bump adds one to the requests iff it is that of a request. -/
theorem bump_requestsTotal (m : Metrics) (b : Bump) :
    (m.bump b).requestsTotal = m.requestsTotal + UInt64.ofNat ([b].countP Bump.isRequest) := by
  cases b with
  | record d => cases d <;> exact (UInt64.add_zero _).symm
  | request => rfl
  | _ => exact (UInt64.add_zero _).symm

/-- A bump adds one to the decisions iff it tallies a decision. -/
theorem bump_finalTotal (m : Metrics) (b : Bump) :
    (m.bump b).finalTotal = m.finalTotal + UInt64.ofNat ([b].countP Bump.isRecord) := by
  cases b with
  | record d =>
      cases d with
      | allow =>
          show m.allowedTotal + 1 + m.blockedTotal + m.ratelimitedTotal = m.finalTotal + 1
          unfold finalTotal
          ac_rfl
      | block ruleId status reason =>
          show m.allowedTotal + (m.blockedTotal + 1) + m.ratelimitedTotal = m.finalTotal + 1
          unfold finalTotal
          ac_rfl
      | rateLimited secs =>
          show m.allowedTotal + m.blockedTotal + (m.ratelimitedTotal + 1) = m.finalTotal + 1
          unfold finalTotal
          ac_rfl
  | _ => exact (UInt64.add_zero _).symm

/-- The counter of requests after some bumps. -/
theorem bumps_requestsTotal (m : Metrics) (bs : List Bump) :
    (m.bumps bs).requestsTotal = m.requestsTotal + UInt64.ofNat (bs.countP Bump.isRequest) := by
  induction bs generalizing m with
  | nil => exact (UInt64.add_zero _).symm
  | cons b bs ih =>
      have hrest := ih (m.bump b)
      rw [bump_requestsTotal] at hrest
      rw [← List.singleton_append, List.countP_append, UInt64.ofNat_add, ← UInt64.add_assoc]
      exact hrest

/-- Some bumps add as many decisions as there are bumps that tally one. -/
theorem bumps_finalTotal (m : Metrics) (bs : List Bump) :
    (m.bumps bs).finalTotal = m.finalTotal + UInt64.ofNat (bs.countP Bump.isRecord) := by
  induction bs generalizing m with
  | nil => exact (UInt64.add_zero _).symm
  | cons b bs ih =>
      have hrest := ih (m.bump b)
      rw [bump_finalTotal] at hrest
      rw [← List.singleton_append, List.countP_append, UInt64.ofNat_add, ← UInt64.add_assoc]
      exact hrest

end Metrics

namespace Proxy

open Pipeline

variable {σ : Type}

/-! ## Answers of the response phase -/

/-- Whether a decision is answered: a rate limit always, a block unless in detect mode. -/
def enforces (detect : Bool) : WafDecision → Bool
  | .allow => false
  | .block _ _ _ => !detect
  | .rateLimited _ => true

section enforced

variable (X : Crates) (engine : Engine σ) (cfg : Config) (env : Env σ) (id : Str) (req : Request)

/-- The decision of the response phase on a reply that comes in, if its body can be had. -/
def replyDecision (resp : Response) (client : ClientInfo) (shared : σ) : Option WafDecision :=
  if buffersReply engine cfg resp shared then
    match bufferFrames cfg.limits.maxInspectBody.toNat resp.body.toStream.failure []
        resp.body.toStream.frames with
    | .tooLarge => none
    | .readError => none
    | .done bytes => some (engine.evaluateResponse
        ⟨resp.status, resp.headers, client, req.parts.uri.path, .buffered bytes⟩
        (env.whileBuffering shared)).1
  else some (engine.evaluateResponse
    ⟨resp.status, resp.headers, client, req.parts.uri.path, .notBuffered⟩ shared).1

/-- Whether the response phase answers a reply that comes in. -/
def replyEnforced (resp : Response) (client : ClientInfo) (shared : σ) : Bool :=
  (replyDecision engine cfg env req resp client shared).any
    (enforces (cfg.server.enforcement = .detect))

/-- Whether it answers a request that is forwarded. -/
def forwardEnforced (client : ClientInfo) (body : RespBody) (bufferedLen : Option Nat)
    (shared : σ) : Bool :=
  match forwardResult X cfg env ⟨forwardParts cfg id req.parts, body, bufferedLen⟩ with
  | .ok resp => replyEnforced engine cfg env req resp client (env.whileForwarding shared)
  | .error _ => false

/-- Whether it answers a request that comes to the late stages. -/
def lateEnforced (client : ClientInfo) (ctx : RequestCtx) (body : RespBody)
    (bufferedLen : Option Nat) (shared : σ) : Bool :=
  let v := engine.evaluateLate ctx shared
  !enforces (cfg.server.enforcement = .detect) v.decision &&
    forwardEnforced X engine cfg env id req client body bufferedLen v.ctx.2

/-- Whether it answers a request that comes to the early stages. -/
def earlyEnforced (client : ClientInfo) (shared : σ) : Bool :=
  let v := engine.evaluateEarly (newCtx req.parts client) shared
  !enforces (cfg.server.enforcement = .detect) v.decision &&
    match bodyGate cfg req with
    | .tooLarge => false
    | .buffered bytes => lateEnforced X engine cfg env id req client
        { v.ctx.1 with body := .buffered bytes } (.full bytes) (some bytes.length)
        (env.whileReading v.ctx.2)
    | .streamed =>
      lateEnforced X engine cfg env id req client v.ctx.1 (.stream req.body) none v.ctx.2

/-- Whether the response phase answers a request: it is let through to the upstream, a reply
comes in, and the decision on the reply is enforced. -/
def responseEnforced (peerIp : IpAddr) (shared : σ) : Bool :=
  let client := resolveClient X cfg req.parts.headers peerIp
  !engine.isWhitelisted shared client.ip &&
    earlyEnforced X engine cfg env id req client shared

end enforced

/-! ## What a request adds -/

/-- What acting on a decision adds to the counters. -/
def actBumps (detect : Bool) : WafDecision → List Bump
  | .allow => []
  | .block ruleId status reason =>
    [if detect then .wouldBlock else .record (.block ruleId status reason)]
  | .rateLimited secs => [.record (.rateLimited secs)]

/-- `act_on` changes the counters as `actBumps` says. -/
theorem actOn_bumps (d : WafDecision) (detect : Bool) (m : Metrics) :
    (actOn d detect m).2 = m.bumps (actBumps detect d) := by
  cases d with
  | block ruleId status reason => cases detect <;> rfl
  | _ => rfl

/-- `act_on` answers iff the decision is enforced. -/
theorem actOn_isSome (d : WafDecision) (detect : Bool) (m : Metrics) :
    (actOn d detect m).1.isSome = enforces detect d := by
  cases d with
  | block ruleId status reason => cases detect <;> rfl
  | _ => rfl

/-- Acting on a decision counts no request. -/
theorem countP_isRequest_actBumps (detect : Bool) (d : WafDecision) :
    (actBumps detect d).countP Bump.isRequest = 0 := by
  cases d with
  | block ruleId status reason => cases detect <;> rfl
  | _ => rfl

/-- Acting on a decision tallies it iff it is enforced. -/
theorem countP_isRecord_actBumps (detect : Bool) (d : WafDecision) :
    (actBumps detect d).countP Bump.isRecord = (enforces detect d).toNat := by
  cases d with
  | block ruleId status reason => cases detect <;> rfl
  | _ => rfl

/-- From some shared state, a part of the handler adds certain bumps, whatever the counters are:
none for a request taken in, and `n` for decisions. -/
def Tallies {α : Type} (part : ProxyState σ → α × ProxyState σ) (shared : σ) (n : Nat) : Prop :=
  ∃ bs : List Bump, bs.countP Bump.isRequest = 0 ∧ bs.countP Bump.isRecord = n ∧
    ∀ s, s.shared = shared → (part s).2.metrics = s.metrics.bumps bs

/-- The response phase tallies a decision iff it is enforced. -/
theorem judgeResponse_tallies (engine : Engine σ) (rctx : ResponseCtx) (detect : Bool)
    (shared : σ) :
    Tallies (judgeResponse engine rctx detect) shared
      (enforces detect (engine.evaluateResponse rctx shared).1).toNat := by
  refine ⟨_, countP_isRequest_actBumps detect _, countP_isRecord_actBumps detect _, ?_⟩
  rintro s rfl
  exact actOn_bumps _ detect s.metrics

section tallies

variable (X : Crates) (engine : Engine σ) (cfg : Config) (env : Env σ) (id : Str) (req : Request)
  (client : ClientInfo)

/-- An inspected reply tallies a decision iff a block of it is enforced. -/
theorem inspectResponse_tallies (resp : Response) (shared : σ) :
    Tallies (inspectResponse engine cfg env resp client (cfg.server.enforcement = .detect)
        req.parts.uri.path) shared
      (replyEnforced engine cfg env req resp client shared).toNat := by
  unfold replyEnforced replyDecision
  by_cases hbuffers : buffersReply engine cfg resp shared = true
  · rw [if_pos hbuffers]
    cases hbuffer : bufferFrames cfg.limits.maxInspectBody.toNat resp.body.toStream.failure []
        resp.body.toStream.frames with
    | tooLarge =>
        refine ⟨[.upstreamError], rfl, rfl, ?_⟩
        rintro s rfl
        unfold inspectResponse
        rw [if_pos hbuffers, hbuffer]
        rfl
    | readError =>
        refine ⟨[.upstreamError], rfl, rfl, ?_⟩
        rintro s rfl
        unfold inspectResponse
        rw [if_pos hbuffers, hbuffer]
        rfl
    | done bytes =>
        obtain ⟨bs, hrequest, hrecord, hbumps⟩ := judgeResponse_tallies engine
          ⟨resp.status, resp.headers, client, req.parts.uri.path, .buffered bytes⟩
          (cfg.server.enforcement = .detect) (env.whileBuffering shared)
        refine ⟨bs, hrequest, hrecord, ?_⟩
        rintro s rfl
        unfold inspectResponse
        rw [if_pos hbuffers, hbuffer]
        exact hbumps { s with shared := env.whileBuffering s.shared } rfl
  · rw [if_neg hbuffers]
    obtain ⟨bs, hrequest, hrecord, hbumps⟩ := judgeResponse_tallies engine
      ⟨resp.status, resp.headers, client, req.parts.uri.path, .notBuffered⟩
      (cfg.server.enforcement = .detect) shared
    refine ⟨bs, hrequest, hrecord, ?_⟩
    rintro s rfl
    unfold inspectResponse
    rw [if_neg hbuffers]
    exact hbumps s rfl

/-- A call and its reply tally one decision, and one more for an enforced block of the reply. -/
theorem forwardAndInspect_tallies (body : RespBody) (len : Option Nat) (shared : σ) :
    Tallies (forwardAndInspect X engine cfg env id req client body len) shared
      (1 + (forwardEnforced X engine cfg env id req client body len shared).toNat) := by
  unfold forwardEnforced
  cases hresult : forwardResult X cfg env ⟨forwardParts cfg id req.parts, body, len⟩ with
  | error e =>
      refine ⟨[.record .allow, .upstreamError], rfl, rfl, ?_⟩
      rintro s rfl
      unfold forwardAndInspect forward
      dsimp only
      rw [hresult]
      rfl
  | ok resp =>
      obtain ⟨bs, hrequest, hrecord, hbumps⟩ :=
        inspectResponse_tallies engine cfg env req client resp (env.whileForwarding shared)
      refine ⟨.record .allow :: bs, hrequest, ?_, ?_⟩
      · rw [List.countP_cons_of_pos rfl, hrecord, Nat.add_comm]
      · rintro s rfl
        unfold forwardAndInspect forward
        dsimp only
        rw [hresult]
        exact hbumps _ rfl

/-- Where a phase answers, its decision is the last one; else what follows adds the rest. -/
theorem phase_tallies {evaluate : RequestCtx → σ → Evaluation (RequestCtx × σ)} {ctx : RequestCtx}
    {part : ProxyState σ → Response × ProxyState σ}
    (next : RequestCtx → ProxyState σ → Response × ProxyState σ) {shared : σ} {enforced : Bool}
    (hanswer : ∀ s resp,
      (runPhase evaluate (cfg.server.enforcement = .detect) ctx s).1 = some resp →
      part s = (resp, (runPhase evaluate (cfg.server.enforcement = .detect) ctx s).2.2))
    (hpass : ∀ s, (runPhase evaluate (cfg.server.enforcement = .detect) ctx s).1 = none →
      part s = next (evaluate ctx s.shared).ctx.1
        (runPhase evaluate (cfg.server.enforcement = .detect) ctx s).2.2)
    (hnext : Tallies (next (evaluate ctx shared).ctx.1) (evaluate ctx shared).ctx.2
      (1 + enforced.toNat)) :
    Tallies part shared (1 + (!enforces (cfg.server.enforcement = .detect)
      (evaluate ctx shared).decision && enforced).toNat) := by
  have hact := actOn_isSome (evaluate ctx shared).decision (cfg.server.enforcement = .detect)
  cases hdecided : enforces (cfg.server.enforcement = .detect) (evaluate ctx shared).decision with
  | true =>
      refine ⟨_, countP_isRequest_actBumps (cfg.server.enforcement = .detect)
        (evaluate ctx shared).decision, ?_, ?_⟩
      · rw [countP_isRecord_actBumps, hdecided]
        rfl
      · rintro s rfl
        have hsome := hact s.metrics
        rw [hdecided] at hsome
        obtain ⟨resp, hresp⟩ := Option.isSome_iff_exists.mp hsome
        rw [hanswer s resp hresp]
        exact actOn_bumps _ _ s.metrics
  | false =>
      obtain ⟨bs, hrequest, hrecord, hbumps⟩ := hnext
      refine ⟨actBumps (cfg.server.enforcement = .detect) (evaluate ctx shared).decision ++ bs,
        ?_, ?_, ?_⟩
      · rw [List.countP_append, countP_isRequest_actBumps, hrequest]
      · rw [List.countP_append, countP_isRecord_actBumps, hdecided, hrecord]
        exact Nat.zero_add _
      · rintro s rfl
        have hnone := hact s.metrics
        rw [hdecided] at hnone
        rw [hpass s (Option.not_isSome_iff_eq_none.mp (Bool.eq_false_iff.mp hnone)), hbumps _ rfl,
          Metrics.bumps_append, ← actOn_bumps]
        rfl

/-- From the late phase on one decision is tallied, and one more for an enforced block of the reply.
-/
theorem lateAndForward_tallies (ctx : RequestCtx) (body : RespBody) (len : Option Nat)
    (shared : σ) :
    Tallies (lateAndForward X engine cfg env id req client ctx body len) shared
      (1 + (lateEnforced X engine cfg env id req client ctx body len shared).toNat) := by
  refine phase_tallies cfg (fun _ => forwardAndInspect X engine cfg env id req client body len)
    ?_ ?_ (forwardAndInspect_tallies X engine cfg env id req client body len _)
  · intro s resp h
    unfold lateAndForward
    dsimp only
    rw [h]
  · intro s h
    unfold lateAndForward
    dsimp only
    rw [h]

/-- From the body gate on one decision is tallied, and one more for an enforced block of the reply.
-/
theorem gateAndForward_tallies (ctx : RequestCtx) (shared : σ) :
    Tallies (gateAndForward X engine cfg env id req client ctx) shared
      (1 + (match bodyGate cfg req with
        | .tooLarge => false
        | .buffered bytes => lateEnforced X engine cfg env id req client
            { ctx with body := .buffered bytes } (.full bytes) (some bytes.length)
            (env.whileReading shared)
        | .streamed =>
          lateEnforced X engine cfg env id req client ctx (.stream req.body) none
            shared).toNat) := by
  cases hgate : bodyGate cfg req with
  | tooLarge =>
      refine ⟨[.record bodyTooLarge], rfl, rfl, ?_⟩
      rintro s rfl
      unfold gateAndForward
      rw [hgate]
      rfl
  | buffered bytes =>
      obtain ⟨bs, hrequest, hrecord, hbumps⟩ := lateAndForward_tallies X engine cfg env id
        req client { ctx with body := .buffered bytes } (.full bytes) (some bytes.length)
        (env.whileReading shared)
      refine ⟨bs, hrequest, hrecord, ?_⟩
      rintro s rfl
      unfold gateAndForward
      rw [hgate]
      exact hbumps { s with shared := env.whileReading s.shared } rfl
  | streamed =>
      obtain ⟨bs, hrequest, hrecord, hbumps⟩ := lateAndForward_tallies X engine cfg env id
        req client ctx (.stream req.body) none shared
      refine ⟨bs, hrequest, hrecord, ?_⟩
      rintro s rfl
      unfold gateAndForward
      rw [hgate]
      exact hbumps s rfl

/-- An inspected request tallies one decision, and one more for an enforced block of the reply. -/
theorem inspectAndForward_tallies (shared : σ) :
    Tallies (inspectAndForward X engine cfg env id req client) shared
      (1 + (earlyEnforced X engine cfg env id req client shared).toNat) := by
  refine phase_tallies cfg (gateAndForward X engine cfg env id req client) ?_ ?_
    (gateAndForward_tallies X engine cfg env id req client _ _)
  · intro s resp h
    unfold inspectAndForward
    dsimp only
    rw [h]
  · intro s h
    unfold inspectAndForward
    dsimp only
    rw [h]
    rfl

/-- **Each request is counted** once as taken in and once as decided, but twice as decided where
the response phase answers it. -/
theorem handleInner_tallies (peerIp : IpAddr) (shared : σ) :
    ∃ bs : List Bump, bs.countP Bump.isRequest = 1 ∧
      bs.countP Bump.isRecord =
        1 + (responseEnforced X engine cfg env id req peerIp shared).toNat ∧
      ∀ s : ProxyState σ, s.shared = shared →
        (handleInner X engine cfg env id req peerIp s).2.metrics = s.metrics.bumps bs := by
  unfold responseEnforced
  dsimp only
  cases hwhite : engine.isWhitelisted shared (resolveClient X cfg req.parts.headers peerIp).ip with
  | true =>
      cases hresult : forwardResult X cfg env
          ⟨forwardParts cfg id req.parts, .stream req.body, none⟩ with
      | error e =>
          refine ⟨[.request, .whitelisted, .record .allow, .upstreamError], rfl, rfl, ?_⟩
          rintro s rfl
          unfold handleInner bypass forward
          dsimp only
          rw [if_pos hwhite, hresult]
          rfl
      | ok resp =>
          refine ⟨[.request, .whitelisted, .record .allow], rfl, rfl, ?_⟩
          rintro s rfl
          unfold handleInner bypass forward
          dsimp only
          rw [if_pos hwhite, hresult]
          rfl
  | false =>
      obtain ⟨bs, hrequest, hrecord, hbumps⟩ := inspectAndForward_tallies X engine cfg env id req
        (resolveClient X cfg req.parts.headers peerIp) shared
      refine ⟨.request :: bs, ?_, ?_, ?_⟩
      · rw [List.countP_cons_of_pos rfl, hrequest]
      · rw [List.countP_cons_of_neg Bool.false_ne_true, hrecord]
        rfl
      · rintro s rfl
        unfold handleInner
        dsimp only
        rw [if_neg (Bool.eq_false_iff.mp hwhite)]
        exact hbumps { s with metrics := s.metrics.request } rfl

end tallies

/-! ## Runs -/

/-- One request to handle: all that decides what becomes of it. The shared state is the one it
finds; what other tasks do to that while it waits is part of `env`. -/
structure Handling (σ : Type) where
  /-- The pipeline. -/
  engine : Engine σ
  /-- The configuration it is handled under. -/
  cfg : Config
  /-- The upstream, and the other tasks. -/
  env : Env σ
  /-- The request id. -/
  id : Str
  /-- The request. -/
  req : Request
  /-- The peer. -/
  peerIp : IpAddr
  /-- The shared state at its start. -/
  shared : σ

namespace Handling

variable (X : Crates) (h : Handling σ)

/-- The response phase answers the request. -/
def responseEnforced : Bool :=
  Proxy.responseEnforced X h.engine h.cfg h.env h.id h.req h.peerIp h.shared

/-- The counters after the request is handled alone. -/
def metricsAfter (m : Metrics) : Metrics :=
  (handleInner X h.engine h.cfg h.env h.id h.req h.peerIp ⟨h.shared, m, [], [], []⟩).2.metrics

/-- Some bumps that make up what it does to the counters. -/
def Bumps (bs : List Bump) : Prop := ∀ m, h.metricsAfter X m = m.bumps bs

/-- Every request bumps the metrics by some bumps in order. -/
theorem exists_bumps : ∃ bs, h.Bumps X bs := by
  obtain ⟨bs, -, -, hbumps⟩ :=
    handleInner_tallies X h.engine h.cfg h.env h.id h.req h.peerIp h.shared
  exact ⟨bs, fun m => hbumps ⟨h.shared, m, [], [], []⟩ rfl⟩

variable {X h}

/-- However they are split, there is one for the request and one for its decision, or two. -/
theorem Bumps.counts {bs : List Bump} (hb : h.Bumps X bs) :
    UInt64.ofNat (bs.countP Bump.isRequest) = 1 ∧
      UInt64.ofNat (bs.countP Bump.isRecord) =
        1 + UInt64.ofNat (h.responseEnforced X).toNat := by
  obtain ⟨bs', hrequest, hrecord, hbumps⟩ :=
    handleInner_tallies X h.engine h.cfg h.env h.id h.req h.peerIp h.shared
  have hsame : Metrics.zero.bumps bs = Metrics.zero.bumps bs' :=
    (hb .zero).symm.trans (hbumps ⟨h.shared, .zero, [], [], []⟩ rfl)
  have hrequests := congrArg Metrics.requestsTotal hsame
  have hfinals := congrArg Metrics.finalTotal hsame
  rw [Metrics.bumps_requestsTotal, Metrics.bumps_requestsTotal, hrequest] at hrequests
  rw [Metrics.bumps_finalTotal, Metrics.bumps_finalTotal, hrecord, UInt64.ofNat_add] at hfinals
  exact ⟨(UInt64.add_right_inj _).mp hrequests, (UInt64.add_right_inj _).mp hfinals⟩

end Handling

/-- The counters, and what the requests in progress have yet to add. -/
structure Server where
  /-- The counters. -/
  metrics : Metrics
  /-- The bumps to come, a list for each request. -/
  inProgress : List (List Bump)

variable (X : Crates)

/-- Runs: requests come in at any time, and each adds its bumps one by one, in any order among
the requests. -/
inductive Runs : List (Handling σ) → Server → Prop
  | init : Runs [] ⟨.zero, []⟩
  | start {hs : List (Handling σ)} {s : Server} {h : Handling σ} {bs : List Bump}
      (hrun : Runs hs s) (hb : h.Bumps X bs) :
      Runs (hs ++ [h]) { s with inProgress := s.inProgress ++ [bs] }
  | bump {hs : List (Handling σ)} {m : Metrics} {before after : List (List Bump)} {b : Bump}
      {bs : List Bump} (hrun : Runs hs ⟨m, before ++ (b :: bs) :: after⟩) :
      Runs hs ⟨m.bump b, before ++ bs :: after⟩

/-- The next bumps may all be those of one request. -/
theorem Runs.drain (before after : List (List Bump)) {hs : List (Handling σ)} {bs : List Bump}
    {m : Metrics} (hrun : Runs X hs ⟨m, before ++ bs :: after⟩) :
    Runs X hs ⟨m.bumps bs, before ++ [] :: after⟩ := by
  induction bs generalizing m with
  | nil => exact hrun
  | cons b bs ih => exact ih hrun.bump

/-- A request that is handled alone is a run. -/
theorem Runs.alone (h : Handling σ) : Runs X [h] ⟨h.metricsAfter X .zero, [[]]⟩ := by
  obtain ⟨bs, hb⟩ := h.exists_bumps X
  rw [hb]
  exact Runs.drain X [] [] (Runs.init.start hb)

/-- No request is in progress: none has changes left to make. -/
def Server.AtRest (s : Server) : Prop := ∀ bs ∈ s.inProgress, bs = []

variable {X}

/-- Along a run, the counters and the bumps to come add up to the requests, and to their
decisions. -/
theorem Runs.balance {hs : List (Handling σ)} {s : Server} (hrun : Runs X hs s) :
    s.metrics.requestsTotal + UInt64.ofNat (s.inProgress.flatten.countP Bump.isRequest) =
        UInt64.ofNat hs.length ∧
      s.metrics.finalTotal + UInt64.ofNat (s.inProgress.flatten.countP Bump.isRecord) =
        UInt64.ofNat hs.length + UInt64.ofNat (hs.countP fun h => h.responseEnforced X) := by
  induction hrun with
  | init => exact ⟨rfl, rfl⟩
  | @start hs s h bs _ hb ih =>
      obtain ⟨hrequests, hfinals⟩ := ih
      obtain ⟨hrequest, hrecord⟩ := hb.counts
      simp only [List.flatten_append, List.flatten_cons, List.flatten_nil, List.append_nil,
        List.countP_append, UInt64.ofNat_add, List.length_append, List.length_singleton]
      constructor
      · rw [hrequest, ← hrequests, UInt64.add_assoc]
        rfl
      · rw [hrecord, ← UInt64.add_assoc, hfinals]
        have hlast : UInt64.ofNat ([h].countP fun h => h.responseEnforced X) =
            UInt64.ofNat (h.responseEnforced X).toNat := by
          cases henforced : h.responseEnforced X with
          | true => rw [List.countP_cons_of_pos henforced]; rfl
          | false => rw [List.countP_cons_of_neg (Bool.eq_false_iff.mp henforced)]; rfl
        rw [hlast]
        show _ = UInt64.ofNat hs.length + 1 + _
        ac_rfl
  | @bump hs m before after b bs _ ih =>
      obtain ⟨hrequests, hfinals⟩ := ih
      simp only [List.flatten_append, List.flatten_cons, List.countP_append,
        UInt64.ofNat_add] at hrequests hfinals ⊢
      rw [← List.singleton_append, List.countP_append, UInt64.ofNat_add] at hrequests hfinals
      constructor
      · rw [Metrics.bump_requestsTotal, ← hrequests]
        ac_rfl
      · rw [Metrics.bump_finalTotal, ← hfinals]
        ac_rfl

/-- **The decisions add up to the requests** at rest where no response phase answered, and, short
of a wrap of the counters, only there: a request that is let through is counted as allowed before
the response phase, whose answer is counted as well. -/
theorem tally_balances_iff {hs : List (Handling σ)} {s : Server} (hrun : Runs X hs s)
    (hrest : s.AtRest) :
    ((∀ h ∈ hs, h.responseEnforced X = false) →
        s.metrics.requestsTotal = s.metrics.finalTotal) ∧
      (hs.length < 2 ^ 64 → s.metrics.requestsTotal = s.metrics.finalTotal →
        ∀ h ∈ hs, h.responseEnforced X = false) := by
  obtain ⟨hrequests, hfinals⟩ := hrun.balance
  have hnone : s.inProgress.flatten = [] := List.flatten_eq_nil_iff.mpr hrest
  rw [hnone, List.countP_nil] at hrequests hfinals
  have hrequests : s.metrics.requestsTotal = UInt64.ofNat hs.length :=
    (UInt64.add_zero _).symm.trans hrequests
  have hfinals : s.metrics.finalTotal =
      UInt64.ofNat hs.length + UInt64.ofNat (hs.countP fun h => h.responseEnforced X) :=
    (UInt64.add_zero _).symm.trans hfinals
  rw [hrequests, hfinals]
  constructor
  · intro hall
    have hzero : hs.countP (fun h => h.responseEnforced X) = 0 :=
      List.countP_eq_zero.mpr fun h hmem => Bool.eq_false_iff.mp (hall h hmem)
    rw [hzero]
    exact (UInt64.add_zero _).symm
  · intro hlen hbalance h hmem
    have hzero : UInt64.ofNat (hs.countP fun h => h.responseEnforced X) = UInt64.ofNat 0 :=
      (UInt64.add_right_inj (UInt64.ofNat hs.length)).mp
        (hbalance.symm.trans (UInt64.add_zero _).symm)
    have hcount : hs.countP (fun h => h.responseEnforced X) = 0 := by
      have hle := List.countP_le_length (p := fun h : Handling σ => h.responseEnforced X) (l := hs)
      have hnat := congrArg UInt64.toNat hzero
      rw [UInt64.toNat_ofNat_of_lt' (by show _ < 2 ^ 64; omega)] at hnat
      exact hnat
    exact Bool.eq_false_iff.mpr (List.countP_eq_zero.mp hcount h hmem)

/-! ## A failing application -/

/-- Failures of the application are kept from the client. -/
def hideFailures : Rules.RuleDef :=
  { id := "hide-failures", phase := .response, status := 502, msg := "unavailable"
    when := [{ field := "status", op := "ge", value := "500" }] }

/-- The shared state with the rule that hides failures. -/
def hidingShared : Shared bareBuild :=
  { bareState.shared with
    rules := (Rules.compileWithTz bareBuild [hideFailures] .default 0 0).toOption.get (by decide) }

/-- A request for the start page, which the application answers with the given status. -/
def startPage (status : StatusCode) : Handling (Shared bareBuild) where
  engine := (standard none formConfig).engine
  cfg := formConfig
  env := { replyingEnv _ with upstream := fun _ => .reply ⟨status, .empty, .full []⟩ }
  id := "id-1"
  req := ⟨⟨"GET", ⟨none, none, "/", none⟩, .empty⟩, ⟨[], none⟩⟩
  peerIp := localPeer
  shared := hidingShared

/-- A start page that is served is tallied once. -/
theorem served_page_balances :
    ((startPage .ok).metricsAfter bareBuild .zero).requestsTotal =
      ((startPage .ok).metricsAfter bareBuild .zero).finalTotal := by
  have hrun := Runs.alone bareBuild (startPage .ok)
  generalize (startPage .ok).metricsAfter bareBuild .zero = after at hrun ⊢
  have hrest : Server.AtRest ⟨after, [[]]⟩ := fun bs hmem => List.mem_singleton.mp hmem
  refine (tally_balances_iff hrun hrest).1 fun h hmem => ?_
  rw [List.mem_singleton.mp hmem]
  decide +kernel

/-- One whose failure is hidden is tallied as allowed and as blocked. -/
theorem hidden_failure_tallied_twice :
    ∃ (hs : List (Handling (Shared bareBuild))) (s : Server), Runs bareBuild hs s ∧ s.AtRest ∧
      s.metrics.requestsTotal = 1 ∧ s.metrics.allowedTotal = 1 ∧ s.metrics.blockedTotal = 1 ∧
        s.metrics.requestsTotal ≠ s.metrics.finalTotal := by
  refine ⟨_, _, Runs.alone bareBuild (startPage .internalServerError), ?_, ?_⟩
  · exact fun bs hmem => List.mem_singleton.mp hmem
  · decide +kernel

end Proxy

end BuduWaf
