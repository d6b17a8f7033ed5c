import BuduWaf.Crates

/-!
# `budu-proxy`: messages, bodies and the gate

* **Bodies** are streams of frames that end or fail, or bytes already in memory. Reading a body
  under a limit (`collectLimited`, `Stream.collect`) gives its data exactly if the stream does not
  fail and the data fit.
* **Requests and responses**, the predicates of the body gate, the headers and the URI of a
  forwarded request, and the responses the proxy makes itself.

Collecting a body under a limit fails for one reason or another, and the code does not tell these
apart: an overrun and a read error are both answered as a body that is too large. The gate is
described by what it lets through (`bodyGate_eq_buffered_iff`, `bodyGate_eq_streamed_iff`), and
later modules use these and not its definition.
-/

namespace BuduWaf.Proxy

/-! ## Bodies -/

/-- `http_body::Frame`: a piece of data, or the trailers. -/
inductive Frame where
  | data (bytes : Bytes)
  | trailers (headers : HeaderMap)
deriving DecidableEq

/-- A body still to be read: its frames, and the error after them, if any. -/
structure Stream where
  /-- The frames, in order. -/
  frames : List Frame
  /-- The error that ends the stream. -/
  failure : Option Str
deriving DecidableEq

/-- The bytes of a frame; trailers have none. -/
def Frame.bytes : Frame → Bytes
  | .data b => b
  | .trailers _ => []

/-- The data of a list of frames, one after the other. -/
def dataOf (frames : List Frame) : Bytes := frames.flatMap Frame.bytes

/-- What is sent as a body: bytes in memory, or a stream passed on.
Source: `budu-proxy/src/lib.rs` `RespBody`, `full_body`, `stream_body` -/
inductive RespBody where
  | full (bytes : Bytes)
  | stream (s : Stream)
deriving DecidableEq

/-- A body as a stream of frames; one in memory is a single frame that cannot fail. -/
def RespBody.toStream : RespBody → Stream
  | .full b => ⟨[.data b], none⟩
  | .stream s => s

/-- The bytes of a body that arrives in full. -/
def RespBody.data? : RespBody → Option Bytes
  | .full b => some b
  | .stream s => if s.failure.isNone then some (dataOf s.frames) else none

/-- Frame by frame under a limit: `none` once a data frame does not fit in what is left. -/
def collectLimited : (remaining : Nat) → List Frame → Option Bytes
  | _, [] => some []
  | remaining, .data b :: frames =>
    if remaining < b.length then none
    else (collectLimited (remaining - b.length) frames).map (b ++ ·)
  | remaining, .trailers _ :: frames => collectLimited remaining frames

/-- `Limited::new(incoming, max).collect()` and `to_bytes`: `none` on an overrun or a read
error. -/
def Stream.collect (s : Stream) (max : Nat) : Option Bytes :=
  match collectLimited max s.frames, s.failure with
  | some b, none => some b
  | _, _ => none

/-- The frames fit in the limit exactly if all their data do. -/
theorem collectLimited_eq (frames : List Frame) (remaining : Nat) :
    collectLimited remaining frames =
      if (dataOf frames).length ≤ remaining then some (dataOf frames) else none := by
  induction frames generalizing remaining with
  | nil => simp [collectLimited, dataOf]
  | cons frame frames ih =>
      cases frame with
      | trailers h => exact ih remaining
      | data b =>
          have hdata : dataOf (.data b :: frames) = b ++ dataOf frames := rfl
          rw [collectLimited, hdata, List.length_append]
          by_cases hfit : remaining < b.length
          · rw [if_pos hfit, if_neg (by omega)]
          · rw [if_neg hfit, ih]
            by_cases hrest : (dataOf frames).length ≤ remaining - b.length
            · rw [if_pos hrest, if_pos (by omega)]; rfl
            · rw [if_neg hrest, if_neg (by omega)]; rfl

/-- **A body is collected** exactly if it is read without error and fits. -/
theorem collect_eq_some_iff {s : Stream} {max : Nat} {b : Bytes} :
    s.collect max = some b ↔
      s.failure = none ∧ (dataOf s.frames).length ≤ max ∧ b = dataOf s.frames := by
  unfold Stream.collect
  rw [collectLimited_eq]
  cases s.failure with
  | some e =>
      generalize (if (dataOf s.frames).length ≤ max then some (dataOf s.frames) else none) = o
      cases o <;> simp
  | none =>
      by_cases hfit : (dataOf s.frames).length ≤ max
      · simp [hfit, eq_comm]
      · simp [hfit]

/-- A body whose stream does not fail has all its data. -/
theorem data?_of_ended {body : RespBody} (h : body.toStream.failure = none) :
    body.data? = some (dataOf body.toStream.frames) := by
  cases body with
  | full b => simp [RespBody.data?, RespBody.toStream, dataOf, Frame.bytes]
  | stream s => simpa [RespBody.data?, RespBody.toStream] using h

/-! ## Messages -/

/-- The head of a request.
Source: `http::request::Parts` -/
structure Parts where
  /-- The method. -/
  method : Str
  /-- The request target. -/
  uri : Uri
  /-- The header lines. -/
  headers : HeaderMap
deriving DecidableEq

/-- A request with a body still to be read. -/
structure Request where
  /-- The head. -/
  parts : Parts
  /-- The body. -/
  body : Stream
deriving DecidableEq

/-- A response: status, headers and body. -/
structure Response where
  /-- The status. -/
  status : StatusCode
  /-- The header lines. -/
  headers : HeaderMap
  /-- The body. -/
  body : RespBody
deriving DecidableEq

/-- A request as it is sent to the upstream. -/
structure OutRequest where
  /-- The head. -/
  parts : Parts
  /-- The body. -/
  body : RespBody
deriving DecidableEq

/-- The value of a `HeaderValue::from(u64)`. -/
def lengthValue (n : Nat) : Bytes := Str.utf8 (Str.ofNat n)

/-! ## The gate's predicates -/

/-- The text of a header, in lower case.
Source: `budu-proxy/src/lib.rs` `should_inspect_body`, `response_body_inspectable` (`ct`) -/
def contentType (headers : HeaderMap) : Option Str :=
  ((headers.get "content-type").bind headerToStr).map Str.toAsciiLowercase

/-- The content type starts with one of some media types. -/
def hasMediaType (headers : HeaderMap) (types : List Str) : Bool :=
  (contentType headers).any fun ct => types.any fun t => (Str.toAsciiLowercase t).isPrefixOf ct

/-- Whether the body of a request is buffered for inspection.
Source: `budu-proxy/src/lib.rs` `should_inspect_body` -/
def shouldInspectBody (parts : Parts) (cfg : Config) : Bool :=
  [("POST" : Str), "PUT", "PATCH"].contains parts.method &&
    hasMediaType parts.headers cfg.inspect.contentTypes

/-- Whether `Content-Length` declares more than `max` bytes.
Source: `budu-proxy/src/lib.rs` `declared_len_over` -/
def declaredLenOver (headers : HeaderMap) (max : Nat) : Bool :=
  (((headers.get "content-length").bind headerToStr).bind fun s =>
    Str.parseUInt 64 (Str.trim s)).any (max < ·)

/-- The same of a request.
Source: `budu-proxy/src/lib.rs` `declared_too_large` -/
def declaredTooLarge (parts : Parts) (max : Nat) : Bool := declaredLenOver parts.headers max

/-- Whether the body of a response is of an inspectable type.
Source: `budu-proxy/src/lib.rs` `response_body_inspectable` -/
def responseBodyInspectable (headers : HeaderMap) (cfg : Config) : Bool :=
  hasMediaType headers cfg.inspect.responseContentTypes

/-- The decision of the body gate.
Source: `budu-proxy/src/lib.rs` `body_too_large` -/
def bodyTooLarge : WafDecision :=
  .block "bodygate.too_large" .payloadTooLarge "request body exceeds inspection limit"

/-- What the gate does with the body of a request: refuse it, hold it in memory, or let it
stream. -/
inductive Gate where
  | tooLarge
  | buffered (bytes : Bytes)
  | streamed
deriving DecidableEq

/-- The gate: too large by its declaration, or an overrun or a read error while buffering; else
buffered; or not selected and streamed.
Source: `budu-proxy/src/lib.rs` `Proxy::handle_inner` (the body gate) -/
def bodyGate (cfg : Config) (req : Request) : Gate :=
  if shouldInspectBody req.parts cfg then
    if declaredTooLarge req.parts cfg.limits.maxInspectBody.toNat then .tooLarge
    else
      match req.body.collect cfg.limits.maxInspectBody.toNat with
      | some bytes => .buffered bytes
      | none => .tooLarge
  else .streamed

/-- What the gate buffers: the whole body of a selected request, read without error, within the
limit, and not declared larger. -/
theorem bodyGate_eq_buffered_iff {cfg : Config} {req : Request} {b : Bytes} :
    bodyGate cfg req = .buffered b ↔
      shouldInspectBody req.parts cfg = true ∧
        declaredTooLarge req.parts cfg.limits.maxInspectBody.toNat = false ∧
        req.body.failure = none ∧ b = dataOf req.body.frames ∧
        b.length ≤ cfg.limits.maxInspectBody.toNat := by
  unfold bodyGate
  cases shouldInspectBody req.parts cfg with
  | false => simp
  | true =>
      cases declaredTooLarge req.parts cfg.limits.maxInspectBody.toNat with
      | true => simp
      | false =>
          simp only [if_true, Bool.false_eq_true, if_false, true_and]
          cases hcollect : req.body.collect cfg.limits.maxInspectBody.toNat with
          | some bytes =>
              obtain ⟨hfailure, hfit, rfl⟩ := collect_eq_some_iff.mp hcollect
              simp only [Gate.buffered.injEq, hfailure, true_and]
              constructor
              · rintro rfl; exact ⟨rfl, hfit⟩
              · rintro ⟨rfl, -⟩; rfl
          | none =>
              simp only [reduceCtorEq, false_iff]
              rintro ⟨hfailure, rfl, hfit⟩
              have := collect_eq_some_iff.mpr ⟨hfailure, hfit, rfl⟩
              rw [hcollect] at this
              cases this

/-- The gate streams exactly what it does not select. -/
theorem bodyGate_eq_streamed_iff {cfg : Config} {req : Request} :
    bodyGate cfg req = .streamed ↔ shouldInspectBody req.parts cfg = false := by
  unfold bodyGate
  cases shouldInspectBody req.parts cfg with
  | false => simp
  | true =>
      cases declaredTooLarge req.parts cfg.limits.maxInspectBody.toNat with
      | true => simp
      | false => cases req.body.collect cfg.limits.maxInspectBody.toNat <;> simp

/-! ## The client -/

variable (X : Crates)

/-- The client of a request: the configured header is believed from the trusted peer only.
Source: `budu-proxy/src/lib.rs` `resolve_client` -/
def resolveClient (cfg : Config) (headers : HeaderMap) (peerIp : IpAddr) : ClientInfo :=
  let ip :=
    if cfg.server.trustedPeer.contains peerIp then
      ((((headers.get cfg.server.clientIpHeader).bind headerToStr).bind fun s =>
        (s.splitOn ',').head?).bind fun s => X.parseIp (Str.trim s)).getD peerIp
    else peerIp
  ⟨ip, none⟩

/-! ## Forwarding -/

/-- Headers a proxy does not forward.
Source: `budu-proxy/src/lib.rs` `HOP_BY_HOP` -/
def hopByHop : List Str :=
  ["connection", "keep-alive", "proxy-authenticate", "proxy-authorization", "te", "trailer",
    "transfer-encoding", "upgrade"]

/-- The headers named in `Connection`.
Source: `budu-proxy/src/lib.rs` `sanitize_forward_headers` (`listed`) -/
def listedHeaders (headers : HeaderMap) : List Str :=
  match (headers.get "connection").bind headerToStr with
  | none => []
  | some v =>
    ((v.splitOn ',').map fun s => Str.toAsciiLowercase (Str.trim s)).filter fun s => !s.isEmpty

/-- Drop the hop-by-hop headers, and pin the length of a buffered body.
Source: `budu-proxy/src/lib.rs` `sanitize_forward_headers` -/
def sanitizeForwardHeaders (headers : HeaderMap) (bufferedLen : Option Nat) : HeaderMap :=
  let stripped := (listedHeaders headers ++ hopByHop).foldl HeaderMap.remove headers
  match bufferedLen with
  | some len => (stripped.remove "content-length").insert "content-length" (lengthValue len)
  | none => stripped

/-- The upstream's scheme and authority with the request's path and query.
Source: `budu-proxy/src/lib.rs` `rewrite_uri` -/
def rewriteUri (upstream orig : Uri) : Except Str Uri :=
  match upstream.authority with
  | none => .error "upstream has no authority"
  | some authority =>
    let pq := if orig.pathAndQuery.isEmpty then ("/" : Str) else orig.pathAndQuery
    (X.uriBuild upstream.scheme authority pq).mapError (("building upstream uri: " : Str) ++ ·)

/-! ## Responses of the proxy -/

/-- A locally made response.
Source: `budu-proxy/src/lib.rs` `error_response` -/
def errorResponse (status : StatusCode) (msg : Str) : Response where
  status := status
  headers := HeaderMap.empty.insert "content-type" (Str.utf8 ("text/plain; charset=utf-8" : Str))
  body := .full (Str.utf8 (msg ++ ['\n']))

/-- The response to a decision.
Source: `budu-proxy/src/lib.rs` `decision_response` -/
def decisionResponse : WafDecision → Response
  | .block _ status reason => errorResponse status reason
  | .rateLimited retryAfterSecs =>
    let resp := errorResponse .tooManyRequests "rate limit exceeded"
    { resp with headers :=
        resp.headers.insert "retry-after" (Str.utf8 (Str.ofNat retryAfterSecs.toNat)) }
  | .allow => errorResponse .internalServerError "internal error"

/-- `HeaderName::from_bytes` accepts the text. -/
def headerNameOk (name : Str) : Bool :=
  !name.isEmpty && name.all fun c =>
    c.isAlphanum || List.elem c ("!#$%&'*+-.^_|~" : Str) || c == Char.ofNat 0x60

/-- `HeaderValue::from_str` accepts the text. -/
def headerValueOk (value : Str) : Bool :=
  value.all fun c => (0x20 ≤ c.toNat && c.toNat < 0x7F) || c.toNat == 0x09

/-- Set the request id, where the header is configured and name and value are valid.
Source: `budu-proxy/src/lib.rs` `set_request_id` -/
def setRequestId (headers : HeaderMap) (headerName id : Str) : HeaderMap :=
  if !headerName.isEmpty && headerNameOk headerName && headerValueOk id then
    headers.insert headerName (Str.utf8 id)
  else headers

end BuduWaf.Proxy
