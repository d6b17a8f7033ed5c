import BuduWaf.Plain
import BuduWaf.Proxy.Handle

/-!
# `budu-proxy`: what enforcement guarantees

* **What each part writes**: the calls of `forward` and the logged panics, one lemma a part.
* **`forward_iff_admitted`**: with `enforcement = "block"` a request of a client that is not
  allowlisted is forwarded exactly if the early stages let it pass, the body gate did not refuse
  its body, and the late stages let it pass with the body that is forwarded.
* **`panic_denied`**: with `on_error = "closed"` and `enforcement = "block"` a panic in a stage
  is answered with the panic block, and the request is not forwarded. In detect mode the panic
  block is a block like any other (`panic_forwarded_in_detect_mode`).

The handler is a chain of parts, each of which answers or goes on to the next. What a request is
forwarded with is written down as a function of the early stages' result (`admittedCall`), and the
lemmas on the parts say that the handler forwards this and nothing else. A body that was buffered
is forwarded as the very bytes that were inspected; one that is streamed was not selected.
-/

namespace BuduWaf.Proxy

open Pipeline

variable {σ : Type}

/-! ## What each part writes -/

/-- `act_on` gives no answer iff the decision allows, or blocks in detect mode. -/
theorem actOn_eq_none_iff {d : WafDecision} {detect : Bool} {m : Metrics} :
    (actOn d detect m).1 = none ↔ d = .allow ∨ (detect = true ∧ d.isBlock = true) := by
  cases d with
  | allow => simp [actOn]
  | block ruleId status reason => cases detect <;> simp [actOn, WafDecision.isBlock]
  | rateLimited secs => simp [actOn, WafDecision.isBlock]

/-- In block mode only `Allow` lets the request go on. -/
theorem actOn_enforced_iff {d : WafDecision} {m : Metrics} :
    (actOn d false m).1 = none ↔ d = .allow := by
  rw [actOn_eq_none_iff]
  simp

/-- A phase of the pipeline makes no call to the upstream. -/
@[simp] theorem runPhase_forwards
    (evaluate : RequestCtx → σ → Evaluation (RequestCtx × σ)) (detect : Bool) (ctx : RequestCtx)
    (s : ProxyState σ) : (runPhase evaluate detect ctx s).2.2.forwards = s.forwards := rfl

/-- A phase adds the stages that panicked in it. -/
@[simp] theorem runPhase_panicked
    (evaluate : RequestCtx → σ → Evaluation (RequestCtx × σ)) (detect : Bool) (ctx : RequestCtx)
    (s : ProxyState σ) :
    (runPhase evaluate detect ctx s).2.2.panicked =
      s.panicked ++ (evaluate ctx s.shared).panicked := rfl

section frame

variable (X : Crates) (engine : Engine σ) (cfg : Config) (env : Env σ)

/-- `forward` adds its call to those that were made. -/
@[simp] theorem forward_forwards (call : ForwardCall) (s : ProxyState σ) :
    (forward X cfg env call s).2.forwards = s.forwards ++ [call] := rfl

/-- `forward` runs no stage, so it logs no panic. -/
@[simp] theorem forward_panicked (call : ForwardCall) (s : ProxyState σ) :
    (forward X cfg env call s).2.panicked = s.panicked := rfl

/-- Answering a failed call makes no further one. -/
@[simp] theorem onForwardError_forwards (e : ForwardError) (s : ProxyState σ) :
    (onForwardError e s).2.forwards = s.forwards := rfl

/-- Answering a failed call runs no stage, so it logs no panic. -/
@[simp] theorem onForwardError_panicked (e : ForwardError) (s : ProxyState σ) :
    (onForwardError e s).2.panicked = s.panicked := rfl

/-- The response phase neither forwards nor runs a stage. -/
theorem inspectResponse_frame (resp : Response) (client : ClientInfo) (detect : Bool) (path : Str)
    (s : ProxyState σ) :
    (inspectResponse engine cfg env resp client detect path s).2.forwards = s.forwards ∧
      (inspectResponse engine cfg env resp client detect path s).2.panicked = s.panicked := by
  unfold inspectResponse
  split
  · split <;> exact ⟨rfl, rfl⟩
  · exact ⟨rfl, rfl⟩

variable (id : Str) (req : Request) (client : ClientInfo)

/-- An admitted request is forwarded once, and no stage runs after that. -/
theorem forwardAndInspect_frame (body : RespBody) (len : Option Nat) (s : ProxyState σ) :
    (forwardAndInspect X engine cfg env id req client body len s).2.forwards =
        s.forwards ++ [⟨forwardParts cfg id req.parts, body, len⟩] ∧
      (forwardAndInspect X engine cfg env id req client body len s).2.panicked = s.panicked := by
  unfold forwardAndInspect
  dsimp only
  split
  · obtain ⟨hforwards, hpanicked⟩ := inspectResponse_frame engine cfg env _ client
      (cfg.server.enforcement = .detect) req.parts.uri.path
      (forward X cfg env ⟨forwardParts cfg id req.parts, body, len⟩
        { s with metrics := s.metrics.record .allow }).2
    rw [hforwards, hpanicked]
    simp
  · simp

/-- From the late stages on, the request is forwarded where they do not answer it. -/
theorem lateAndForward_forwards (ctx : RequestCtx) (body : RespBody) (len : Option Nat)
    (s : ProxyState σ) :
    (lateAndForward X engine cfg env id req client ctx body len s).2.forwards =
      if (runPhase engine.evaluateLate (cfg.server.enforcement = .detect) ctx s).1 = none then
        s.forwards ++ [⟨forwardParts cfg id req.parts, body, len⟩]
      else s.forwards := by
  unfold lateAndForward
  dsimp only
  cases (runPhase engine.evaluateLate (cfg.server.enforcement = .detect) ctx s).1 with
  | none => simp [(forwardAndInspect_frame X engine cfg env id req client body len _).1]
  | some resp => simp

end frame

/-! ## Inspect what is forwarded -/

section admitted

variable {X : Crates}

/-- Every stage of the standard early stack leaves the body and the rules alone. -/
theorem earlyStack_frame {geo : Option (Reputation.GeoStage X)} {cfg₀ : Config}
    {stage : Stage (World X)} (h : stage ∈ earlyStack geo cfg₀) (w : World X) :
    (stage.inspect w).2.1.body = w.1.body ∧ (stage.inspect w).2.2.rules = w.2.rules := by
  have hall : ∀ stage ∈ earlyStack geo cfg₀, ∀ w : World X,
      (stage.inspect w).2.1.body = w.1.body ∧ (stage.inspect w).2.2.rules = w.2.rules := by
    apply forall_mem_earlyStack
    · exact fun w => ⟨rfl, rfl⟩
    · exact fun g w => ⟨Reputation.GeoStage.inspect_body g w.1, rfl⟩
    · exact fun w => ⟨rfl, rfl⟩
    · exact fun w => ⟨rfl, rfl⟩
    · exact fun w => ⟨rfl, rfl⟩
  exact hall stage h w

/-- The early stages of the standard pipeline leave the body and the rules alone. -/
theorem standard_early_frame (geo : Option (Reputation.GeoStage X)) (cfg₀ : Config)
    (ctx : RequestCtx) (s : Shared X) :
    ((standard geo cfg₀).evaluateEarly ctx s).ctx.1.body = ctx.body ∧
      ((standard geo cfg₀).evaluateEarly ctx s).ctx.2.rules = s.rules :=
  runStages_preserves (I := fun w : World X => w.1.body = ctx.body ∧ w.2.rules = s.rules)
    (fun _ hstage w hw =>
      ⟨(earlyStack_frame hstage w).1.trans hw.1, (earlyStack_frame hstage w).2.trans hw.2⟩)
    ⟨rfl, rfl⟩

variable (engine : Engine σ) (cfg : Config) (env : Env σ) (id : Str) (req : Request)
  (client : ClientInfo) (s : σ)

/-- What the early stages make of a request. -/
def earlyResult : Evaluation (RequestCtx × σ) := engine.evaluateEarly (newCtx req.parts client) s

/-- What has to hold for a request to be forwarded by a given call: the early stages allow it,
and either its body was selected, declared and found to fit, and allowed by the late stages as
the buffered body that is forwarded; or its body was not selected, and the late stages allowed it
without one, and it is streamed. -/
structure Admitted (call : ForwardCall) : Prop where
  /-- The early stages allow the request. -/
  early : (earlyResult engine req client s).decision = .allow
  /-- The head is the request's, with its id. -/
  parts : call.parts = forwardParts cfg id req.parts
  /-- The body is what the late stages allowed. -/
  late :
    (∃ b lateCtx, shouldInspectBody req.parts cfg = true ∧
      declaredTooLarge req.parts cfg.limits.maxInspectBody.toNat = false ∧
      req.body.failure = none ∧ b = dataOf req.body.frames ∧
      b.length ≤ cfg.limits.maxInspectBody.toNat ∧
      lateCtx = { (earlyResult engine req client s).ctx.1 with body := .buffered b } ∧
      (engine.evaluateLate lateCtx
        (env.whileReading (earlyResult engine req client s).ctx.2)).decision = .allow ∧
      call.body = .full b ∧ call.bufferedLen = some b.length) ∨
    (∃ lateCtx, shouldInspectBody req.parts cfg = false ∧
      lateCtx = (earlyResult engine req client s).ctx.1 ∧ lateCtx.body = .notBuffered ∧
      (engine.evaluateLate lateCtx (earlyResult engine req client s).ctx.2).decision = .allow ∧
      call.body = .stream req.body ∧ call.bufferedLen = none)

end admitted

section enforced

variable (X : Crates) (engine : Engine σ) {cfg : Config} (env : Env σ) (id : Str) (req : Request)
  (client : ClientInfo)

/-- In block mode the late stages forward what they allow. -/
theorem lateAndForward_enforced (hblock : cfg.server.enforcement = .block) (ctx : RequestCtx)
    (body : RespBody) (len : Option Nat) (s : ProxyState σ) :
    (lateAndForward X engine cfg env id req client ctx body len s).2.forwards =
      if (engine.evaluateLate ctx s.shared).decision = .allow then
        s.forwards ++ [⟨forwardParts cfg id req.parts, body, len⟩]
      else s.forwards := by
  rw [lateAndForward_forwards]
  simp only [runPhase, hblock, reduceCtorEq, decide_false, actOn_enforced_iff]

/-- In block mode the early stages pass on what they allow. -/
theorem inspectAndForward_enforced (hblock : cfg.server.enforcement = .block)
    (s : ProxyState σ) :
    (inspectAndForward X engine cfg env id req client s).2.forwards =
      if (earlyResult engine req client s.shared).decision = .allow then
        (gateAndForward X engine cfg env id req client
          (earlyResult engine req client s.shared).ctx.1
          (runPhase engine.evaluateEarly false (newCtx req.parts client) s).2.2).2.forwards
      else s.forwards := by
  unfold inspectAndForward
  simp only [hblock, reduceCtorEq, decide_false]
  have hiff := actOn_enforced_iff (d := (earlyResult engine req client s.shared).decision)
    (m := s.metrics)
  cases hanswer : (runPhase engine.evaluateEarly false (newCtx req.parts client) s).1 with
  | none => rw [if_pos (hiff.mp hanswer)]; rfl
  | some resp =>
      rw [if_neg fun hallow => ?_]
      · rfl
      · have hnone := hiff.mpr hallow
        exact absurd (hanswer.symm.trans hnone) (by simp)

end enforced

section admitted

variable (engine : Engine σ) (cfg : Config) (env : Env σ) (id : Str) (req : Request)
  (client : ClientInfo) (s : σ)

/-- The call of `forward` that block mode makes, if any. -/
def admittedCall : Option ForwardCall :=
  let early := earlyResult engine req client s
  if early.decision = .allow then
    match bodyGate cfg req with
    | .tooLarge => none
    | .buffered b =>
      if (engine.evaluateLate { early.ctx.1 with body := .buffered b }
          (env.whileReading early.ctx.2)).decision = .allow then
        some ⟨forwardParts cfg id req.parts, .full b, some b.length⟩
      else none
    | .streamed =>
      if (engine.evaluateLate early.ctx.1 early.ctx.2).decision = .allow then
        some ⟨forwardParts cfg id req.parts, .stream req.body, none⟩
      else none
  else none

/-- A call is admitted iff it is the one the admission computes. -/
theorem admitted_iff
    (hbody : (earlyResult engine req client s).ctx.1.body = .notBuffered) {call : ForwardCall} :
    Admitted engine cfg env id req client s call ↔
      admittedCall engine cfg env id req client s = some call := by
  unfold admittedCall
  constructor
  · rintro ⟨hearly, hparts, ⟨b, lateCtx, hsel, hdecl, hfail, hb, hfit, rfl, hlate, hcall, hlen⟩ |
      ⟨lateCtx, hsel, rfl, hnot, hlate, hcall, hlen⟩⟩
    · have hgate := bodyGate_eq_buffered_iff.mpr ⟨hsel, hdecl, hfail, hb, hfit⟩
      simp only [if_pos hearly, hgate, if_pos hlate]
      rw [← hparts, ← hcall, ← hlen]
    · have hgate := bodyGate_eq_streamed_iff.mpr hsel
      simp only [if_pos hearly, hgate, if_pos hlate]
      rw [← hparts, ← hcall, ← hlen]
  · intro h
    by_cases hearly : (earlyResult engine req client s).decision = .allow
    case neg => simp [hearly] at h
    case pos =>
        rw [if_pos hearly] at h
        cases hgate : bodyGate cfg req with
        | tooLarge => simp [hgate] at h
        | buffered b =>
            obtain ⟨hsel, hdecl, hfail, hb, hfit⟩ := bodyGate_eq_buffered_iff.mp hgate
            simp only [hgate, Option.ite_none_right_eq_some, Option.some.injEq] at h
            obtain ⟨hlate, rfl⟩ := h
            exact ⟨hearly, rfl,
              .inl ⟨b, _, hsel, hdecl, hfail, hb, hfit, rfl, hlate, rfl, rfl⟩⟩
        | streamed =>
            have hsel := bodyGate_eq_streamed_iff.mp hgate
            simp only [hgate, Option.ite_none_right_eq_some, Option.some.injEq] at h
            obtain ⟨hlate, rfl⟩ := h
            exact ⟨hearly, rfl, .inr ⟨_, hsel, rfl, hbody, hlate, rfl, rfl⟩⟩

/-- In block mode the request is forwarded by the admitted call, if there is one. -/
theorem handleInner_forwards (X : Crates) (peerIp : IpAddr) (s : ProxyState σ)
    (hblock : cfg.server.enforcement = .block)
    (hclient : engine.isWhitelisted s.shared
      (resolveClient X cfg req.parts.headers peerIp).ip = false) :
    (handleInner X engine cfg env id req peerIp s).2.forwards =
      s.forwards ++ (admittedCall engine cfg env id req
        (resolveClient X cfg req.parts.headers peerIp) s.shared).toList := by
  unfold handleInner admittedCall
  simp only [hclient, Bool.false_eq_true, if_false]
  rw [inspectAndForward_enforced X engine env id req _ hblock]
  by_cases hearly : (earlyResult engine req (resolveClient X cfg req.parts.headers peerIp)
      s.shared).decision = .allow
  case neg => simp [hearly]
  case pos =>
      simp only [if_pos hearly]
      unfold gateAndForward
      cases bodyGate cfg req with
      | tooLarge => simp
      | buffered b =>
          simp only [lateAndForward_enforced X engine env id req _ hblock, runPhase_forwards]
          split <;> simp_all [earlyResult, runPhase]
      | streamed =>
          simp only [lateAndForward_enforced X engine env id req _ hblock, runPhase_forwards]
          split <;> simp_all [earlyResult, runPhase]

end admitted

/-- **What is forwarded was inspected.** With `enforcement = "block"`, a request of a client that
is not allowlisted is forwarded by a call exactly if that call is admitted, and otherwise the
backend is not contacted: for every configuration in force, every pipeline `from_config` builds,
every state, and whatever other tasks and the upstream do. -/
theorem forward_iff_admitted {X : Crates} (geo : Option (Reputation.GeoStage X))
    (cfg₀ cfg : Config) (env : Env (Shared X)) (id : Str) (req : Request) (peerIp : IpAddr)
    (s : ProxyState (Shared X)) (hblock : cfg.server.enforcement = .block)
    (hclient : Pipeline.isWhitelisted s.shared
      (resolveClient X cfg req.parts.headers peerIp).ip = false) :
    (∀ call,
      (handleInner X (standard geo cfg₀).engine cfg env id req peerIp s).2.forwards =
          s.forwards ++ [call] ↔
        Admitted (standard geo cfg₀).engine cfg env id req
          (resolveClient X cfg req.parts.headers peerIp) s.shared call) ∧
      ((∀ call, ¬ Admitted (standard geo cfg₀).engine cfg env id req
          (resolveClient X cfg req.parts.headers peerIp) s.shared call) →
        (handleInner X (standard geo cfg₀).engine cfg env id req peerIp s).2.forwards =
          s.forwards) := by
  have hbody : (earlyResult (standard geo cfg₀).engine req
      (resolveClient X cfg req.parts.headers peerIp) s.shared).ctx.1.body = .notBuffered :=
    (standard_early_frame geo cfg₀ _ _).1
  have hforwards := handleInner_forwards (standard geo cfg₀).engine cfg env id req X peerIp s
    hblock hclient
  simp only [admitted_iff _ _ _ _ _ _ _ hbody, hforwards]
  cases admittedCall (standard geo cfg₀).engine cfg env id req
      (resolveClient X cfg req.parts.headers peerIp) s.shared with
  | none => simp
  | some c => simp

/-! ## A form post -/

/-- A plain build without features, whose readers refuse every text. -/
def bareBuild : Crates := .plain .none .none

/-- A host on which no file can be read. -/
def bareFiles : FileSystem := ⟨fun _ => .error "no such file"⟩

/-- The minimal configuration with form bodies inspected. -/
def formConfig : Config :=
  { Config.minimal with inspect :=
      { Config.minimal.inspect with contentTypes := ["application/x-www-form-urlencoded"] } }

/-- The state a start with this configuration gives. -/
def bareState : ProxyState (Shared bareBuild) where
  shared := ((fromConfig bareBuild bareFiles ⟨0, 0⟩ formConfig).toOption.get (by decide)).2
  metrics := ⟨0, 0, 0, 0, 0, 0, 0⟩
  decisions := []
  panicked := []
  forwards := []

/-- A form post whose body comes in two frames. -/
def formPost : Request where
  parts := ⟨"POST", ⟨none, none, "/form", none⟩,
    ⟨[("content-type", Str.utf8 ("application/x-www-form-urlencoded" : Str))]⟩⟩
  body := ⟨[.data [0x61, 0x3D], .data [0x31]], none⟩

/-- The call that forwards it: with the id, and with the body as it was buffered. -/
def formCall : ForwardCall where
  parts := { formPost.parts with headers :=
    formPost.parts.headers.insert "X-Request-Id" (Str.utf8 ("id-1" : Str)) }
  body := .full [0x61, 0x3D, 0x31]
  bufferedLen := some 3

/-- An upstream that replies at once, and no other tasks. -/
def replyingEnv (σ : Type) : Env σ where
  upstream _ := .reply ⟨.ok, .empty, .full []⟩
  whileReading := id
  whileForwarding := id
  whileBuffering := id

/-- The peer 127.0.0.1, which is trusted. -/
def localPeer : IpAddr := .v4 0x7F000001#32

/-- The form post is forwarded, so it was admitted: with its body buffered and inspected. -/
theorem formPost_admitted :
    Admitted (standard none formConfig).engine formConfig (replyingEnv (Shared bareBuild)) "id-1"
      formPost (resolveClient bareBuild formConfig formPost.parts.headers localPeer)
      bareState.shared formCall :=
  ((forward_iff_admitted none formConfig formConfig (replyingEnv (Shared bareBuild)) "id-1"
    formPost localPeer bareState rfl (by decide)).1 formCall).mp (by decide +kernel)

/-! ## A panic is a refusal -/

section panic

variable {X : Crates} {p : Pipeline X} {cfg : Config}

/-- In block mode a phase in which a stage panicked is answered with the panic block. -/
theorem runPhase_of_panic {stages : List (Stage (World X))} (ctx : RequestCtx)
    (s : ProxyState (Shared X))
    (h : (runStages .closed stages (ctx, s.shared)).panicked ≠ []) :
    (runPhase (fun ctx s => runStages .closed stages (ctx, s)) false ctx s).1 =
      some (decisionResponse panicBlock) := by
  simp only [runPhase, run_closed_of_panic h]
  rfl

/-- If, closed and in block mode, a late stage panics, the request is answered with the panic block
and the upstream is not called. -/
theorem lateAndForward_of_panic (hclosed : p.onError = .closed)
    (hblock : cfg.server.enforcement = .block) {env : Env (Shared X)} {id : Str} {req : Request}
    {client : ClientInfo} {ctx : RequestCtx} {body : RespBody} {len : Option Nat}
    {s : ProxyState (Shared X)}
    (h : (lateAndForward X p.engine cfg env id req client ctx body len s).2.panicked ≠
      s.panicked) :
    (lateAndForward X p.engine cfg env id req client ctx body len s).1 =
        decisionResponse panicBlock ∧
      (lateAndForward X p.engine cfg env id req client ctx body len s).2.forwards =
        s.forwards := by
  have hlate : p.engine.evaluateLate = fun ctx s => runStages .closed p.late (ctx, s) := by
    rw [← hclosed]; rfl
  unfold lateAndForward at h ⊢
  simp only [hblock, reduceCtorEq, decide_false, hlate] at h ⊢
  by_cases hpanic : (runStages .closed p.late (ctx, s.shared)).panicked = []
  · -- without a panic the rest of the handling logs nothing
    refine absurd ?_ h
    split
    · simp [hpanic]
    · simp [(forwardAndInspect_frame X p.engine cfg env id req client body len _).2, hpanic]
  · rw [runPhase_of_panic ctx s hpanic]
    exact ⟨rfl, rfl⟩

/-- What the stages behind the body gate log, they answer. -/
theorem gateAndForward_of_panic (hclosed : p.onError = .closed)
    (hblock : cfg.server.enforcement = .block) {env : Env (Shared X)} {id : Str} {req : Request}
    {client : ClientInfo} {ctx : RequestCtx} {s : ProxyState (Shared X)}
    (h : (gateAndForward X p.engine cfg env id req client ctx s).2.panicked ≠ s.panicked) :
    (gateAndForward X p.engine cfg env id req client ctx s).1 = decisionResponse panicBlock ∧
      (gateAndForward X p.engine cfg env id req client ctx s).2.forwards = s.forwards := by
  unfold gateAndForward at h ⊢
  cases hgate : bodyGate cfg req with
  | tooLarge => simp [hgate] at h
  | buffered b =>
      simp only [hgate] at h ⊢
      exact lateAndForward_of_panic hclosed hblock h
  | streamed =>
      simp only [hgate] at h ⊢
      exact lateAndForward_of_panic hclosed hblock h

end panic

/-- **Fail-closed is a refusal in block mode.** With `on_error = "closed"` and
`enforcement = "block"`, whatever the stages are: if one that was run panics, the client is
answered with the panic block and the request is not forwarded. -/
theorem panic_denied {X : Crates} (p : Pipeline X) (cfg : Config) (env : Env (Shared X))
    (id : Str) (req : Request) (peerIp : IpAddr) (s : ProxyState (Shared X))
    (hclosed : p.onError = .closed) (hblock : cfg.server.enforcement = .block)
    (hclient : Pipeline.isWhitelisted s.shared
      (resolveClient X cfg req.parts.headers peerIp).ip = false)
    (hpanic : (handleInner X p.engine cfg env id req peerIp s).2.panicked ≠ s.panicked) :
    (handleInner X p.engine cfg env id req peerIp s).1 =
        errorResponse .internalServerError "inspection error" ∧
      (handleInner X p.engine cfg env id req peerIp s).2.forwards = s.forwards := by
  have hearly : p.engine.evaluateEarly = fun ctx s => runStages .closed p.early (ctx, s) := by
    rw [← hclosed]; rfl
  have hengine : p.engine.isWhitelisted s.shared
      (resolveClient X cfg req.parts.headers peerIp).ip = false := hclient
  unfold handleInner inspectAndForward at hpanic ⊢
  simp only [hengine, Bool.false_eq_true, if_false, hblock, reduceCtorEq, decide_false,
    hearly] at hpanic ⊢
  by_cases hlog : (runStages .closed p.early
      (newCtx req.parts (resolveClient X cfg req.parts.headers peerIp), s.shared)).panicked = []
  · revert hpanic
    split
    · intro hpanic
      simp [hlog] at hpanic
    · intro hpanic
      exact gateAndForward_of_panic hclosed hblock (by simpa [hlog] using hpanic)
  · rw [runPhase_of_panic _ { s with metrics := s.metrics.request } hlog]
    exact ⟨rfl, rfl⟩

/-- A stage that panics on every request and changes nothing. -/
def panicky : Stage (World bareBuild) where
  name := "panicky"
  inspect w := (.panic, w)

/-- The post is refused in block mode when an early stage panics. -/
theorem formPost_denied_on_panic :
    (handleInner bareBuild (Pipeline.mk [panicky] lateStack .closed).engine formConfig
        (replyingEnv _) "id-1" formPost localPeer bareState).1 =
        errorResponse .internalServerError "inspection error" ∧
      (handleInner bareBuild (Pipeline.mk [panicky] lateStack .closed).engine formConfig
        (replyingEnv _) "id-1" formPost localPeer bareState).2.forwards = [] :=
  panic_denied (Pipeline.mk [panicky] lateStack .closed) formConfig (replyingEnv _) "id-1" formPost
    localPeer bareState rfl rfl (by decide) (by decide +kernel)

/-- In detect mode the same panic is logged and the post is forwarded all the same. -/
theorem panic_forwarded_in_detect_mode :
    let cfg := { formConfig with server := { formConfig.server with enforcement := .detect } }
    let r := handleInner bareBuild (Pipeline.mk [panicky] lateStack .closed).engine cfg
      (replyingEnv _) "id-1" formPost localPeer bareState
    Pipeline.isWhitelisted bareState.shared
        (resolveClient bareBuild cfg formPost.parts.headers localPeer).ip = false ∧
      r.2.panicked = ["panicky"] ∧ r.1.status = .ok ∧ r.2.forwards = [formCall] := by
  decide +kernel

end BuduWaf.Proxy
