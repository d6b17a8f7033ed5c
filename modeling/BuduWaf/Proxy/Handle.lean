import BuduWaf.Pipeline.Standard
import BuduWaf.Proxy.Http

/-!
# `budu-proxy`: handling one request

* **`Engine`**: the pipeline as the proxy calls it, over any shared state `σ`;
  `Pipeline.engine` is the pipeline of this repository.
* **`Env`**: what the request meets outside: the upstream's behaviour, and what other tasks do to
  the shared state while the handler waits.
* **`ProxyState`**: the shared state and the metrics, with the observations the results are
  about: the decisions the pipeline handed back, the panics it logged, and the calls of
  `forward`.
* **`handleInner`**: whitelist, early stages, body gate, late stages, forward, response phase.

The handler is written as a chain of functions, one for each stretch between two places where it may
answer, so that a result about the whole can be put together from lemmas on the parts. Other tasks
act where the handler waits: `Env` says what they do then. That they may act between any two steps
is modelled in `Traffic/Flights`, which refines this. The lines that are logged are not part of the
state here (`Traffic/Trail` has them).
-/

namespace BuduWaf

open Pipeline

namespace Proxy

/-! ## What the handler works with -/

/-- The pipeline as the proxy calls it. -/
structure Engine (σ : Type) where
  /-- `Pipeline::is_whitelisted`. -/
  isWhitelisted : σ → IpAddr → Bool
  /-- `Pipeline::evaluate_early`. -/
  evaluateEarly : RequestCtx → σ → Evaluation (RequestCtx × σ)
  /-- `Pipeline::evaluate_late`. -/
  evaluateLate : RequestCtx → σ → Evaluation (RequestCtx × σ)
  /-- `Pipeline::needs_response_body`. -/
  needsResponseBody : σ → Bool
  /-- `Pipeline::evaluate_response`. -/
  evaluateResponse : ResponseCtx → σ → WafDecision × σ

/-- How the upstream answers a request: with a reply, with an error, or not in time. -/
inductive UpstreamResult where
  | timeout
  | error (msg : Str)
  | reply (resp : Response)

/-- What a request meets outside the handler. -/
structure Env (σ : Type) where
  /-- The upstream. -/
  upstream : OutRequest → UpstreamResult
  /-- What other tasks do to the shared state while the request body is read. -/
  whileReading : σ → σ
  /-- The same while the upstream is waited for. -/
  whileForwarding : σ → σ
  /-- The same while the response body is read. -/
  whileBuffering : σ → σ

/-- One call of `forward`: what is sent, before it is sanitized. -/
structure ForwardCall where
  /-- The head. -/
  parts : Parts
  /-- The body. -/
  body : RespBody
  /-- The length of a buffered body. -/
  bufferedLen : Option Nat
deriving DecidableEq

/-- What handling a request reads and writes. -/
structure ProxyState (σ : Type) where
  /-- The state shared with the supervisor and other requests. -/
  shared : σ
  /-- The counters. -/
  metrics : Metrics
  /-- The decisions of the pipeline so far. -/
  decisions : List WafDecision
  /-- The panics logged so far. -/
  panicked : List Str
  /-- The calls of `forward` so far. -/
  forwards : List ForwardCall

variable {σ : Type}

/-! ## Decisions -/

/-- Act on a decision: a response to answer with, or `none` to go on. In detect mode a `Block` is
only counted.
Source: `budu-proxy/src/lib.rs` `Proxy::act_on` -/
def actOn (decision : WafDecision) (detect : Bool) (m : Metrics) : Option Response × Metrics :=
  match decision with
  | .allow => (none, m)
  | .block _ _ _ =>
    if detect then (none, m.wouldBlock) else (some (decisionResponse decision), m.record decision)
  | .rateLimited _ => (some (decisionResponse decision), m.record decision)

/-- Run one phase of the pipeline on the request and act on its decision. -/
def runPhase (evaluate : RequestCtx → σ → Evaluation (RequestCtx × σ)) (detect : Bool)
    (ctx : RequestCtx) (s : ProxyState σ) : Option Response × RequestCtx × ProxyState σ :=
  let v := evaluate ctx s.shared
  ((actOn v.decision detect s.metrics).1, v.ctx.1,
    { s with
      shared := v.ctx.2
      metrics := (actOn v.decision detect s.metrics).2
      decisions := s.decisions ++ [v.decision]
      panicked := s.panicked ++ v.panicked })

/-- Run the response phase and act on its decision. -/
def judgeResponse (engine : Engine σ) (rctx : ResponseCtx) (detect : Bool) (s : ProxyState σ) :
    Option Response × ProxyState σ :=
  let v := engine.evaluateResponse rctx s.shared
  ((actOn v.1 detect s.metrics).1,
    { s with
      shared := v.2
      metrics := (actOn v.1 detect s.metrics).2
      decisions := s.decisions ++ [v.1] })

/-! ## Forwarding -/

/-- Why a forward attempt failed.
Source: `budu-proxy/src/lib.rs` `ForwardError` -/
inductive ForwardError where
  | timeout
  | upstream (msg : Str)

variable (X : Crates)

/-- How forwarding ends: the target is rewritten, the headers are stripped, and the upstream is
asked under a timeout.
Source: `budu-proxy/src/lib.rs` `Proxy::forward` -/
def forwardResult (cfg : Config) (env : Env σ) (call : ForwardCall) :
    Except ForwardError Response :=
  match rewriteUri X cfg.server.upstream call.parts.uri with
  | .error e => .error (.upstream e)
  | .ok uri =>
    let headers := sanitizeForwardHeaders call.parts.headers call.bufferedLen
    match env.upstream ⟨⟨call.parts.method, uri, headers⟩, call.body⟩ with
    | .timeout => .error .timeout
    | .error e => .error (.upstream (("upstream request: " : Str) ++ e))
    | .reply resp => .ok resp

/-- Forward a request.
Source: `budu-proxy/src/lib.rs` `Proxy::forward` -/
def forward (cfg : Config) (env : Env σ) (call : ForwardCall) (s : ProxyState σ) :
    Except ForwardError Response × ProxyState σ :=
  (forwardResult X cfg env call,
    { s with shared := env.whileForwarding s.shared, forwards := s.forwards ++ [call] })

/-- The response to a failure towards the upstream.
Source: `budu-proxy/src/lib.rs` `Proxy::on_forward_error` -/
def ForwardError.response : ForwardError → Response
  | .timeout => errorResponse .gatewayTimeout "upstream timeout"
  | .upstream _ => errorResponse .badGateway "upstream unavailable"

/-- Answer a failure towards the upstream.
Source: `budu-proxy/src/lib.rs` `Proxy::on_forward_error` -/
def onForwardError (e : ForwardError) (s : ProxyState σ) : Response × ProxyState σ :=
  (e.response, { s with metrics := s.metrics.upstreamError })

/-! ## The response phase -/

/-- How buffering a response body ends: with its bytes, or at the limit, or with a read error. -/
inductive BufferResult where
  | done (bytes : Bytes)
  | tooLarge
  | readError

/-- Buffer a response body under the limit, frame by frame.
Source: `budu-proxy/src/lib.rs` `Proxy::inspect_response` (the loop) -/
def bufferFrames (max : Nat) (failure : Option Str) : Bytes → List Frame → BufferResult
  | buf, [] => if failure.isNone then .done buf else .readError
  | buf, .data chunk :: frames =>
    if max < buf.length + chunk.length then .tooLarge
    else bufferFrames max failure (buf ++ chunk) frames
  | buf, .trailers _ :: frames => bufferFrames max failure buf frames

/-- Buffering ends with the whole body, or past the limit, or with the stream's error. -/
theorem bufferFrames_spec (max : Nat) (failure : Option Str) (frames : List Frame) (buf : Bytes) :
    match bufferFrames max failure buf frames with
    | .done bytes => failure = none ∧ bytes = buf ++ dataOf frames
    | .tooLarge => max < (buf ++ dataOf frames).length
    | .readError => failure ≠ none := by
  induction frames generalizing buf with
  | nil => cases failure <;> simp [bufferFrames, dataOf]
  | cons frame frames ih =>
      cases frame with
      | trailers h => exact ih buf
      | data chunk =>
          have hdata : buf ++ dataOf (.data chunk :: frames) = (buf ++ chunk) ++ dataOf frames := by
            simp [dataOf, Frame.bytes]
          rw [bufferFrames, hdata]
          split
          · rename_i heq
            split at heq
            · cases heq
            · have := ih (buf ++ chunk)
              rw [heq] at this
              exact this
          · rename_i heq
            split at heq
            · simp only [List.length_append] at *
              omega
            · have := ih (buf ++ chunk)
              rw [heq] at this
              exact this
          · rename_i heq
            split at heq
            · cases heq
            · have := ih (buf ++ chunk)
              rw [heq] at this
              exact this

/-- The buffered reply, its length pinned.
Source: `budu-proxy/src/lib.rs` `Proxy::inspect_response` (the end) -/
def reemit (resp : Response) (bytes : Bytes) : Response where
  status := resp.status
  headers := ((resp.headers.remove "transfer-encoding").remove "content-length").insert
    "content-length" (lengthValue bytes.length)
  body := .full bytes

/-- A failure of the response body.
Source: `budu-proxy/src/lib.rs` `Proxy::inspect_response` (the loop's exits) -/
def refuseReply (msg : Str) (s : ProxyState σ) : Response × ProxyState σ :=
  (errorResponse .badGateway msg, { s with metrics := s.metrics.upstreamError })

/-- Whether the body of a reply is buffered for inspection.
Source: `budu-proxy/src/lib.rs` `Proxy::inspect_response` (`let buffer`) -/
def buffersReply (engine : Engine σ) (cfg : Config) (resp : Response) (shared : σ) : Bool :=
  engine.needsResponseBody shared && responseBodyInspectable resp.headers cfg &&
    !declaredLenOver resp.headers cfg.limits.maxInspectBody.toNat

/-- Run the response phase and make the client's response.
Source: `budu-proxy/src/lib.rs` `Proxy::inspect_response` -/
def inspectResponse (engine : Engine σ) (cfg : Config) (env : Env σ) (resp : Response)
    (client : ClientInfo) (detect : Bool) (path : Str) (s : ProxyState σ) :
    Response × ProxyState σ :=
  if buffersReply engine cfg resp s.shared then
    match bufferFrames cfg.limits.maxInspectBody.toNat resp.body.toStream.failure []
        resp.body.toStream.frames with
    | .tooLarge => refuseReply "response too large to inspect" s
    | .readError => refuseReply "upstream read error" s
    | .done bytes =>
      let r := judgeResponse engine
        ⟨resp.status, resp.headers, client, path, .buffered bytes⟩ detect
        { s with shared := env.whileBuffering s.shared }
      (r.1.getD (reemit resp bytes), r.2)
  else
    let r := judgeResponse engine
      ⟨resp.status, resp.headers, client, path, .notBuffered⟩ detect s
    (r.1.getD resp, r.2)

/-! ## One request -/

/-- The context the stages start from.
Source: `budu-proxy/src/lib.rs` `Proxy::handle_inner` -/
def newCtx (parts : Parts) (client : ClientInfo) : RequestCtx where
  method := parts.method
  path := parts.uri.path
  query := parts.uri.query
  headers := parts.headers
  client := client
  body := .notBuffered
  normalized := .default

/-- The head that is forwarded: with the request id.
Source: `budu-proxy/src/lib.rs` `Proxy::handle_inner` -/
def forwardParts (cfg : Config) (id : Str) (parts : Parts) : Parts :=
  { parts with headers := setRequestId parts.headers cfg.server.requestIdHeader id }

section handle

variable (engine : Engine σ) (cfg : Config) (env : Env σ) (id : Str) (req : Request)

/-- Forward without any inspection.
Source: `budu-proxy/src/lib.rs` `Proxy::handle_inner` (the allowlist branch) -/
def bypass (s : ProxyState σ) : Response × ProxyState σ :=
  let r := forward X cfg env ⟨forwardParts cfg id req.parts, .stream req.body, none⟩
    { s with metrics := (s.metrics.whitelisted).record .allow }
  match r.1 with
  | .ok resp => (resp, r.2)
  | .error e => onForwardError e r.2

/-- An admitted request: the upstream and the response phase.
Source: `budu-proxy/src/lib.rs` `Proxy::handle_inner` (after the late stages) -/
def forwardAndInspect (client : ClientInfo) (body : RespBody) (bufferedLen : Option Nat)
    (s : ProxyState σ) : Response × ProxyState σ :=
  let r := forward X cfg env ⟨forwardParts cfg id req.parts, body, bufferedLen⟩
    { s with metrics := s.metrics.record .allow }
  match r.1 with
  | .ok resp =>
    inspectResponse engine cfg env resp client (cfg.server.enforcement = .detect)
      req.parts.uri.path r.2
  | .error e => onForwardError e r.2

/-- The late stages on a context, and what follows.
Source: `budu-proxy/src/lib.rs` `Proxy::handle_inner` (the late stages) -/
def lateAndForward (client : ClientInfo) (ctx : RequestCtx) (body : RespBody)
    (bufferedLen : Option Nat) (s : ProxyState σ) : Response × ProxyState σ :=
  let r := runPhase engine.evaluateLate (cfg.server.enforcement = .detect) ctx s
  match r.1 with
  | some resp => (resp, r.2.2)
  | none => forwardAndInspect X engine cfg env id req client body bufferedLen r.2.2

/-- The body gate, and what follows. The gate's own block is enforced in both modes.
Source: `budu-proxy/src/lib.rs` `Proxy::handle_inner` (the body gate) -/
def gateAndForward (client : ClientInfo) (ctx : RequestCtx) (s : ProxyState σ) :
    Response × ProxyState σ :=
  match bodyGate cfg req with
  | .tooLarge =>
    ((actOn bodyTooLarge false s.metrics).1.get rfl,
      { s with metrics := (actOn bodyTooLarge false s.metrics).2 })
  | .buffered bytes =>
    lateAndForward X engine cfg env id req client { ctx with body := .buffered bytes } (.full bytes)
      (some bytes.length) { s with shared := env.whileReading s.shared }
  | .streamed => lateAndForward X engine cfg env id req client ctx (.stream req.body) none s

/-- The early stages, and what follows.
Source: `budu-proxy/src/lib.rs` `Proxy::handle_inner` (the early stages) -/
def inspectAndForward (client : ClientInfo) (s : ProxyState σ) : Response × ProxyState σ :=
  let r := runPhase engine.evaluateEarly (cfg.server.enforcement = .detect)
    (newCtx req.parts client) s
  match r.1 with
  | some resp => (resp, r.2.2)
  | none => gateAndForward X engine cfg env id req client r.2.1 r.2.2

/-- Handle one request.
Source: `budu-proxy/src/lib.rs` `Proxy::handle_inner` -/
def handleInner (peerIp : IpAddr) (s : ProxyState σ) : Response × ProxyState σ :=
  let s := { s with metrics := s.metrics.request }
  let client := resolveClient X cfg req.parts.headers peerIp
  if engine.isWhitelisted s.shared client.ip then bypass X cfg env id req s
  else inspectAndForward X engine cfg env id req client s

end handle

/-! ## Request ids -/

/-- An inbound request id that is a short, safe token.
Source: `budu-proxy/src/reqid.rs` `sanitize` -/
def sanitizeId (s : Str) : Option Str :=
  let s := Str.trim s
  if s.isEmpty || 128 < Str.byteLen s then none
  else if s.all fun c => c.isAlphanum || List.elem c ("-_.:" : Str) then some s
  else none

/-- The request id: the inbound one if it is well-formed, else a generated one.
Source: `budu-proxy/src/reqid.rs` `resolve` -/
def resolveId (headers : HeaderMap) (headerName generated : Str) : Str :=
  if headerName.isEmpty then generated
  else (((headers.get headerName).bind headerToStr).bind sanitizeId).getD generated

/-- Handle one request and echo its id.
Source: `budu-proxy/src/lib.rs` `Proxy::handle` -/
def handle (engine : Engine σ) (cfg : Config) (env : Env σ) (generated : Str) (req : Request)
    (peerIp : IpAddr) (s : ProxyState σ) : Response × ProxyState σ :=
  let id := resolveId req.parts.headers cfg.server.requestIdHeader generated
  let r := handleInner X engine cfg env id req peerIp s
  ({ r.1 with headers := setRequestId r.1.headers cfg.server.requestIdHeader id }, r.2)

end Proxy

/-- The pipeline of this repository as the proxy calls it. -/
def Pipeline.engine {X : Crates} (p : Pipeline X) : Proxy.Engine (Shared X) where
  isWhitelisted := Pipeline.isWhitelisted
  evaluateEarly := p.evaluateEarly
  evaluateLate := p.evaluateLate
  needsResponseBody s := s.rules.needsResponseBody
  evaluateResponse := Pipeline.inspectResponse

end BuduWaf
