import BuduWaf.Proxy.Handle

/-!
# `budu-proxy`: handling a request twice

* **`Simulates`**: two engines, each on its own shared state, that answer alike and keep a
  relation between the states of the handler, as do the handler's own writes and the tasks
  that run in between.
* **`Simulates.handle`**: then the handler answers the request alike on related states and leaves
  related states. Each part of the handler has its lemma.

It is used with different relations: the pipeline against its allowing version, and a process after
reloads against one without. What has to be shown for a use is in the fields of `Simulates`, about
one phase and one decision each; the handler's own control flow is gone through here, once.
-/

namespace BuduWaf.Proxy

open Pipeline

variable {σ τ : Type}

/-- Two results with the same answer and related states. -/
def Agrees {α : Type} (R : ProxyState σ → ProxyState τ → Prop) (a : α × ProxyState σ)
    (b : α × ProxyState τ) : Prop :=
  a.1 = b.1 ∧ R a.2 b.2

/-- An update of the metrics that has nothing to do with the count of would-be blocks. -/
def OwnUpdate (f : Metrics → Metrics) : Prop :=
  ∀ m w, f { m with wouldBlockTotal := w } = { f m with wouldBlockTotal := w }

/-- Two engines and their surroundings, in one mode, under a relation of the handler's states. -/
structure Simulates (detect : Bool) (engine : Engine σ) (engine' : Engine τ) (env : Env σ)
    (env' : Env τ) (R : ProxyState σ → ProxyState τ → Prop) : Prop where
  /-- The upstream is the same. -/
  upstream : env.upstream = env'.upstream
  /-- The same clients are allowlisted. -/
  isWhitelisted : ∀ {s t}, R s t → ∀ ip,
    engine.isWhitelisted s.shared ip = engine'.isWhitelisted t.shared ip
  /-- Response bodies are wanted alike. -/
  needsResponseBody : ∀ {s t}, R s t →
    engine.needsResponseBody s.shared = engine'.needsResponseBody t.shared
  /-- The early phases agree, on the answer and on the context. -/
  early : ∀ {s t}, R s t → ∀ ctx,
    (runPhase engine.evaluateEarly detect ctx s).1 =
        (runPhase engine'.evaluateEarly detect ctx t).1 ∧
      Agrees R (runPhase engine.evaluateEarly detect ctx s).2
        (runPhase engine'.evaluateEarly detect ctx t).2
  /-- The late phases agree. -/
  late : ∀ {s t}, R s t → ∀ ctx,
    (runPhase engine.evaluateLate detect ctx s).1 =
        (runPhase engine'.evaluateLate detect ctx t).1 ∧
      Agrees R (runPhase engine.evaluateLate detect ctx s).2
        (runPhase engine'.evaluateLate detect ctx t).2
  /-- The response phases agree. -/
  response : ∀ {s t}, R s t → ∀ rctx,
    Agrees R (judgeResponse engine rctx detect s) (judgeResponse engine' rctx detect t)
  /-- The handler's own counts keep the relation. -/
  metrics : ∀ {s t}, R s t → ∀ f, OwnUpdate f →
    R { s with metrics := f s.metrics } { t with metrics := f t.metrics }
  /-- What happens while the request body is read keeps the relation. -/
  reading : ∀ {s t}, R s t →
    R { s with shared := env.whileReading s.shared } { t with shared := env'.whileReading t.shared }
  /-- A call of the upstream keeps the relation. -/
  forwarding : ∀ {s t}, R s t → ∀ call,
    R { s with shared := env.whileForwarding s.shared, forwards := s.forwards ++ [call] }
      { t with shared := env'.whileForwarding t.shared, forwards := t.forwards ++ [call] }
  /-- What happens while the response body is read keeps the relation. -/
  buffering : ∀ {s t}, R s t →
    R { s with shared := env.whileBuffering s.shared }
      { t with shared := env'.whileBuffering t.shared }

namespace Simulates

variable {X : Crates} {engine : Engine σ} {engine' : Engine τ} {env : Env σ} {env' : Env τ}
  {R : ProxyState σ → ProxyState τ → Prop} {s : ProxyState σ} {t : ProxyState τ}

section parts

variable {detect : Bool} (h : Simulates detect engine engine' env env' R)

include h

/-- A call comes to the same result on both sides, as the upstream is the same. -/
theorem forwardResult (cfg : Config) (call : ForwardCall) :
    forwardResult X cfg env call = Proxy.forwardResult X cfg env' call := by
  unfold Proxy.forwardResult
  rw [h.upstream]

/-- A failed call is answered alike, and the states stay related. -/
theorem onForwardError (e : ForwardError) (hR : R s t) :
    Agrees R (onForwardError e s) (Proxy.onForwardError e t) :=
  ⟨rfl, h.metrics hR Metrics.upstreamError fun _ _ => rfl⟩

/-- A reply that is refused while it is buffered is answered alike. -/
theorem refuseReply (msg : Str) (hR : R s t) :
    Agrees R (refuseReply msg s) (Proxy.refuseReply msg t) :=
  ⟨rfl, h.metrics hR Metrics.upstreamError fun _ _ => rfl⟩

/-- A reply is inspected alike, and the states stay related. -/
theorem inspectResponse (cfg : Config) (resp : Response) (client : ClientInfo) (path : Str)
    (hR : R s t) :
    Agrees R (inspectResponse engine cfg env resp client detect path s)
      (Proxy.inspectResponse engine' cfg env' resp client detect path t) := by
  have hbuffers :
      buffersReply engine cfg resp s.shared = buffersReply engine' cfg resp t.shared := by
    unfold buffersReply
    rw [h.needsResponseBody hR]
  unfold Proxy.inspectResponse
  rw [hbuffers]
  split
  · cases bufferFrames cfg.limits.maxInspectBody.toNat resp.body.toStream.failure []
        resp.body.toStream.frames with
    | tooLarge => exact h.refuseReply _ hR
    | readError => exact h.refuseReply _ hR
    | done bytes =>
        obtain ⟨hanswer, hstate⟩ := h.response (h.buffering hR)
          ⟨resp.status, resp.headers, client, path, .buffered bytes⟩
        exact ⟨by simp only [hanswer], hstate⟩
  · obtain ⟨hanswer, hstate⟩ := h.response hR
      ⟨resp.status, resp.headers, client, path, .notBuffered⟩
    exact ⟨by simp only [hanswer], hstate⟩

/-- A bypassing request is answered alike from related states, which stay related. -/
theorem bypass (cfg : Config) (id : Str) (req : Request) (hR : R s t) :
    Agrees R (bypass X cfg env id req s) (Proxy.bypass X cfg env' id req t) := by
  have hstate := h.forwarding (h.metrics hR (fun m => m.whitelisted.record .allow)
    fun _ _ => rfl) ⟨forwardParts cfg id req.parts, .stream req.body, none⟩
  unfold Proxy.bypass forward
  rw [h.forwardResult]
  cases Proxy.forwardResult X cfg env' ⟨forwardParts cfg id req.parts, .stream req.body, none⟩ with
  | ok resp => exact ⟨rfl, hstate⟩
  | error e => exact h.onForwardError e hstate

end parts

variable {cfg : Config} (h : Simulates (cfg.server.enforcement = .detect) engine engine' env env' R)
  (id : Str) (req : Request) (client : ClientInfo)

include h

/-- A request that is sent on is answered alike. -/
theorem forwardAndInspect (body : RespBody) (len : Option Nat) (hR : R s t) :
    Agrees R (forwardAndInspect X engine cfg env id req client body len s)
      (Proxy.forwardAndInspect X engine' cfg env' id req client body len t) := by
  have hstate := h.forwarding (h.metrics hR (fun m => m.record .allow) fun _ _ => rfl)
    ⟨forwardParts cfg id req.parts, body, len⟩
  unfold Proxy.forwardAndInspect forward
  rw [h.forwardResult]
  cases Proxy.forwardResult X cfg env' ⟨forwardParts cfg id req.parts, body, len⟩ with
  | ok resp => exact h.inspectResponse cfg resp client req.parts.uri.path hstate
  | error e => exact h.onForwardError e hstate

/-- A request is answered alike from the late phase on. -/
theorem lateAndForward (ctx : RequestCtx) (body : RespBody) (len : Option Nat) (hR : R s t) :
    Agrees R (lateAndForward X engine cfg env id req client ctx body len s)
      (Proxy.lateAndForward X engine' cfg env' id req client ctx body len t) := by
  obtain ⟨hanswer, -, hstate⟩ := h.late hR ctx
  unfold Proxy.lateAndForward
  dsimp only
  rw [hanswer]
  cases (runPhase engine'.evaluateLate (cfg.server.enforcement = .detect) ctx t).1 with
  | some resp => exact ⟨rfl, hstate⟩
  | none => exact h.forwardAndInspect id req client body len hstate

/-- A request is answered alike from the body gate on. -/
theorem gateAndForward (ctx : RequestCtx) (hR : R s t) :
    Agrees R (gateAndForward X engine cfg env id req client ctx s)
      (Proxy.gateAndForward X engine' cfg env' id req client ctx t) := by
  unfold Proxy.gateAndForward
  cases bodyGate cfg req with
  | tooLarge => exact ⟨rfl, h.metrics hR (fun m => (actOn bodyTooLarge false m).2) fun _ _ => rfl⟩
  | buffered bytes => exact h.lateAndForward id req client _ _ _ (h.reading hR)
  | streamed => exact h.lateAndForward id req client ctx _ _ hR

/-- An inspected request is answered alike. -/
theorem inspectAndForward (hR : R s t) :
    Agrees R (inspectAndForward X engine cfg env id req client s)
      (Proxy.inspectAndForward X engine' cfg env' id req client t) := by
  obtain ⟨hanswer, hctx, hstate⟩ := h.early hR (newCtx req.parts client)
  unfold Proxy.inspectAndForward
  dsimp only
  rw [hanswer, hctx]
  cases (runPhase engine'.evaluateEarly (cfg.server.enforcement = .detect)
      (newCtx req.parts client) t).1 with
  | some resp => exact ⟨rfl, hstate⟩
  | none => exact h.gateAndForward id req client _ hstate

/-- **Related handlers agree**: on the response, and on states that are related again. -/
theorem handleInner (peerIp : IpAddr) (hR : R s t) :
    Agrees R (handleInner X engine cfg env id req peerIp s)
      (Proxy.handleInner X engine' cfg env' id req peerIp t) := by
  have hstart := h.metrics hR Metrics.request fun _ _ => rfl
  unfold Proxy.handleInner
  simp only [h.isWhitelisted hstart]
  split
  · exact h.bypass cfg id req hstart
  · exact h.inspectAndForward id req _ hstart

/-- **Every request is handled alike** on related states: the same answer with the same id, and
states that are related again. -/
theorem handle (generated : Str) (peerIp : IpAddr) (hR : R s t) :
    Agrees R (handle X engine cfg env generated req peerIp s)
      (Proxy.handle X engine' cfg env' generated req peerIp t) := by
  obtain ⟨hanswer, hstate⟩ := h.handleInner
    (resolveId req.parts.headers cfg.server.requestIdHeader generated) req peerIp hR (X := X)
  exact ⟨by simp only [Proxy.handle, hanswer], hstate⟩

end Simulates

end BuduWaf.Proxy
