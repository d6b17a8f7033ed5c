import BuduWaf.Lib.Split
import BuduWaf.Proxy.Bodies
import BuduWaf.Proxy.Enforcement
import BuduWaf.Proxy.RequestId

/-!
# What crosses the proxy

* **Hop-by-hop headers** (`hops_stripped_iff`): the fixed set and the names on the first
  `Connection` line are dropped, everything else is kept. A name that stands on another line only,
  or beside a byte that is no text, crosses.
* **Framing** (`framing_unambiguous`): wherever a body is sent on from memory, the head has its
  length once and no transfer coding, also with the request id that the client's answer gets.
* **The request id** (`id_reaches_upstream_iff`): it is written before the headers are stripped,
  so it is lost exactly if the client lists its header in `Connection`.

All three results are about what `sanitize_forward_headers` does to one header
(`valuesOf_sanitize`): it is dropped, or pinned, or kept as it is. Which headers a message declares
to be hop-by-hop is defined over all its `Connection` lines and over bytes, while the proxy reads
the first line and only if it is text; the condition of the first theorem is the difference.
-/

namespace BuduWaf.Proxy

open BuduWaf.Parser BuduWaf.Pipeline

variable {σ : Type}

/-! ## Connection lines -/

/-- Optional white space of a header value: space and tab. -/
def isBlank (c : Char) : Bool := c == ' ' || c == '\t'

/-- A list element without the white space around it. -/
def trimBlanks (s : Str) : Str := (s.dropWhile isBlank).rdropWhile isBlank

/-- The elements of a comma-separated header value, in lower case. The bytes around a name need
not be text. -/
def lineTokens (v : Bytes) : List Str :=
  (((asciiText v).splitOn ',').map fun s => Str.toAsciiLowercase (trimBlanks s)).filter
    fun s => !s.isEmpty

/-- The names a message declares to be hop-by-hop, on any of its `Connection` lines. -/
def connectionTokens (headers : HeaderMap) : List Str :=
  (valuesOf headers "connection").flatMap lineTokens

/-- The names on the first `Connection` line, if it is text. -/
def firstLineTokens (headers : HeaderMap) : List Str :=
  match headers.get "connection" with
  | some v => if (headerToStr v).isSome then lineTokens v else []
  | none => []

/-- On a line of text the only white space is blanks and tabs. -/
theorem isWhitespace_eq_isBlank {b : UInt8}
    (h : ((0x20 ≤ b.toNat && b.toNat < 0x7F) || b.toNat == 0x09) = true) :
    Str.isWhitespace (Char.ofNat b.toNat) = isBlank (Char.ofNat b.toNat) := by
  have hall : ∀ n : Fin 256, ((0x20 ≤ n.val && n.val < 0x7F) || n.val == 0x09) = true →
      Str.isWhitespace (Char.ofNat n.val) = isBlank (Char.ofNat n.val) := by decide +kernel
  exact hall ⟨b.toNat, b.toNat_lt⟩ h

/-- The proxy reads the elements of a line that is text. -/
theorem listedHeaders_eq (headers : HeaderMap) :
    listedHeaders headers = firstLineTokens headers := by
  unfold listedHeaders firstLineTokens
  cases hget : headers.get "connection" with
  | none => rfl
  | some v =>
      rw [Option.bind_some]
      unfold headerToStr
      by_cases htext :
          (v.all fun b => (0x20 ≤ b.toNat && b.toNat < 0x7F) || b.toNat == 0x09) = true
      · simp only [if_pos htext, Option.isSome_some, if_true]
        have hchar : ∀ c ∈ asciiText v, Str.isWhitespace c = isBlank c := by
          intro c hc
          obtain ⟨b, hb, rfl⟩ := List.mem_map.mp hc
          exact isWhitespace_eq_isBlank (List.all_eq_true.mp htext b hb)
        unfold lineTokens
        congr 1
        apply List.map_congr_left
        intro piece hpiece
        have htrim : Str.trim piece = trimBlanks piece := by
          apply Str.rdropWhile_dropWhile_congr
          intro c hc
          exact hchar c (Str.mem_of_mem_splitOn hpiece hc)
        rw [htrim]
      · simp only [if_neg htext, Option.isSome_none, Bool.false_eq_true, if_false]

/-- The lower case of a character is in lower case. -/
theorem toLower_toLower (c : Char) : c.toLower.toLower = c.toLower := by
  unfold Char.toLower
  split
  · rename_i hupper
    rw [dif_neg]
    intro hagain
    have hle := hagain.2
    have hge := hupper.1
    have hbound := hupper.2
    simp only [ge_iff_le, UInt32.le_iff_toNat_le, UInt32.toNat_add] at hle hge hbound
    simp at hle hge hbound
    omega
  · rfl

/-- The lower case of a text is in lower case. -/
theorem lower_idem (s : Str) :
    Str.toAsciiLowercase (Str.toAsciiLowercase s) = Str.toAsciiLowercase s := by
  unfold Str.toAsciiLowercase
  rw [List.map_map]
  apply List.map_congr_left
  intro c _
  exact toLower_toLower c

/-- Tokens are in lower case, as header names are. -/
theorem lower_of_mem_lineTokens {v : Bytes} {name : Str} (h : name ∈ lineTokens v) :
    Str.toAsciiLowercase name = name := by
  have hmem := (List.mem_filter.mp h).1
  obtain ⟨piece, -, rfl⟩ := List.mem_map.mp hmem
  exact lower_idem _

/-- What the first `Connection` line lists is among what all of them list. -/
theorem mem_connectionTokens_of_mem_firstLine {headers : HeaderMap} {name : Str}
    (h : name ∈ firstLineTokens headers) : name ∈ connectionTokens headers := by
  unfold firstLineTokens at h
  cases hget : headers.get "connection" with
  | none =>
      rw [hget] at h
      cases h
  | some v =>
      rw [hget] at h
      have htokens : name ∈ lineTokens v := by
        by_cases htext : (headerToStr v).isSome
        · simpa only [htext, if_true] using h
        · simp only [htext] at h
          cases h
      have hline : v ∈ valuesOf headers "connection" := by
        obtain ⟨e, hfind, rfl⟩ := Option.map_eq_some_iff.mp hget
        have hname := List.find?_some hfind
        refine List.mem_map.mpr ⟨e, ?_, rfl⟩
        exact List.mem_filter.mpr ⟨List.mem_of_find?_eq_some hfind, hname⟩
      exact List.mem_flatMap.mpr ⟨v, hline, htokens⟩

/-! ## Stripping -/

/-- Removing names empties them and leaves the others. -/
theorem valuesOf_removeAll {names : List Str} (hlower : ∀ n ∈ names, Str.toAsciiLowercase n = n)
    (headers : HeaderMap) (name : Str) :
    valuesOf (names.foldl HeaderMap.remove headers) name =
      if name ∈ names then [] else valuesOf headers name := by
  induction names generalizing headers with
  | nil => simp
  | cons first names ih =>
      have hfirst := hlower first List.mem_cons_self
      have hstep := ih (fun n hn => hlower n (List.mem_cons_of_mem first hn)) (headers.remove first)
      rw [List.foldl_cons, hstep]
      by_cases heq : name = first
      · subst heq
        simp [valuesOf_remove_self headers hfirst]
      · rw [valuesOf_remove_of_ne headers hfirst heq]
        simp [heq]

/-- The hop-by-hop names are in lower case. -/
theorem lower_of_mem_hopByHop {name : Str} (h : name ∈ hopByHop) :
    Str.toAsciiLowercase name = name := by
  have hall : (hopByHop.all fun n => Str.toAsciiLowercase n == n) = true := by decide
  exact eq_of_beq (List.all_eq_true.mp hall name h)

/-- What the proxy drops: the names on the first `Connection` line, and the fixed set. -/
def dropped (headers : HeaderMap) : List Str := firstLineTokens headers ++ hopByHop

/-- All names that are dropped are in lower case. -/
theorem lower_of_mem_dropped {headers : HeaderMap} {name : Str} (h : name ∈ dropped headers) :
    Str.toAsciiLowercase name = name := by
  rcases List.mem_append.mp h with hlisted | hfixed
  · unfold firstLineTokens at hlisted
    cases hget : headers.get "connection" with
    | none =>
        rw [hget] at hlisted
        cases hlisted
    | some v =>
        rw [hget] at hlisted
        by_cases htext : (headerToStr v).isSome
        · simp only [htext, if_true] at hlisted
          exact lower_of_mem_lineTokens hlisted
        · simp only [htext] at hlisted
          cases hlisted
  · exact lower_of_mem_hopByHop hfixed

/-- **What `sanitize_forward_headers` does to one header**: it is the length of the buffered body,
or is dropped, or is kept as it is. -/
theorem valuesOf_sanitize (headers : HeaderMap) (bufferedLen : Option Nat) (name : Str) :
    valuesOf (sanitizeForwardHeaders headers bufferedLen) name =
      match bufferedLen with
      | some len =>
        if name = "content-length" then [lengthValue len]
        else if name ∈ dropped headers then [] else valuesOf headers name
      | none => if name ∈ dropped headers then [] else valuesOf headers name := by
  have hlower : ∀ n ∈ dropped headers, Str.toAsciiLowercase n = n :=
    fun n hn => lower_of_mem_dropped hn
  have hstripped := valuesOf_removeAll hlower headers name
  unfold sanitizeForwardHeaders
  rw [listedHeaders_eq]
  cases bufferedLen with
  | none => exact hstripped
  | some len =>
      by_cases hlength : name = "content-length"
      · subst hlength
        simp only [if_true]
        exact valuesOf_insert_self _ lower_contentLength _
      · simp only [if_neg hlength]
        rw [valuesOf_insert_of_ne _ lower_contentLength _ hlength,
          valuesOf_remove_of_ne _ lower_contentLength hlength]
        exact hstripped

/-- A header that is no length the proxy wrote is dropped, if its name is among those to drop, or
kept. -/
theorem valuesOf_sanitize_of_ne {headers : HeaderMap} {bufferedLen : Option Nat} {name : Str}
    (h : ¬ (name = "content-length" ∧ bufferedLen.isSome)) :
    valuesOf (sanitizeForwardHeaders headers bufferedLen) name =
      if name ∈ dropped headers then [] else valuesOf headers name := by
  rw [valuesOf_sanitize]
  cases bufferedLen with
  | none => rfl
  | some len => exact if_neg fun heq => h ⟨heq, rfl⟩

/-- No hop-by-hop header is left but a length the proxy wrote, and every other header is as it
was. -/
structure HopsStripped (headers : HeaderMap) (bufferedLen : Option Nat) (out : HeaderMap) :
    Prop where
  /-- The fixed set and the declared names are gone. -/
  stripped : ∀ name : Str, name ∈ hopByHop ∨ name ∈ connectionTokens headers →
    ¬ (name = "content-length" ∧ bufferedLen.isSome) → valuesOf out name = []
  /-- The length of a buffered body is pinned. -/
  pinned : ∀ len, bufferedLen = some len → valuesOf out "content-length" = [lengthValue len]
  /-- The others keep their values. -/
  kept : ∀ name : Str, name ∉ hopByHop → name ∉ connectionTokens headers →
    ¬ (name = "content-length" ∧ bufferedLen.isSome) → valuesOf out name = valuesOf headers name

/-- **Hop-by-hop headers** are all stripped exactly if every declared name that the message has a
header for is in the fixed set, or stands on the first `Connection` line and that line is text
(or is the length of a buffered body). -/
theorem hops_stripped_iff (headers : HeaderMap) (bufferedLen : Option Nat) :
    HopsStripped headers bufferedLen (sanitizeForwardHeaders headers bufferedLen) ↔
      ∀ name ∈ connectionTokens headers, valuesOf headers name = [] ∨ name ∈ hopByHop ∨
        name ∈ firstLineTokens headers ∨ (name = "content-length" ∧ bufferedLen.isSome) := by
  constructor
  · intro h name hname
    by_cases hlength : name = "content-length" ∧ bufferedLen.isSome
    · exact .inr (.inr (.inr hlength))
    · have hgone := h.stripped name (.inr hname) hlength
      rw [valuesOf_sanitize_of_ne hlength] at hgone
      by_cases hdropped : name ∈ dropped headers
      · rcases List.mem_append.mp hdropped with hlisted | hfixed
        · exact .inr (.inr (.inl hlisted))
        · exact .inr (.inl hfixed)
      · rw [if_neg hdropped] at hgone
        exact .inl hgone
  · intro h
    refine ⟨?_, ?_, ?_⟩
    · intro name hhop hlength
      rw [valuesOf_sanitize_of_ne hlength]
      by_cases hdropped : name ∈ dropped headers
      · exact if_pos hdropped
      · rw [if_neg hdropped]
        have hfixed : name ∉ hopByHop := fun hmem => hdropped (List.mem_append_right _ hmem)
        have hlisted : name ∉ firstLineTokens headers :=
          fun hmem => hdropped (List.mem_append_left _ hmem)
        have hdeclared : name ∈ connectionTokens headers := hhop.resolve_left hfixed
        rcases h name hdeclared with habsent | hmem | hmem | hmem
        · exact habsent
        · exact absurd hmem hfixed
        · exact absurd hmem hlisted
        · exact absurd hmem hlength
    · rintro len rfl
      rw [valuesOf_sanitize]
      exact if_pos rfl
    · intro name hfixed hdeclared hlength
      rw [valuesOf_sanitize_of_ne hlength, if_neg]
      intro hdropped
      rcases List.mem_append.mp hdropped with hlisted | hmem
      · exact hdeclared (mem_connectionTokens_of_mem_firstLine hlisted)
      · exact hfixed hmem

/-- A message with two `Connection` lines, the second of which declares `x-session`. -/
def twoConnectionLines : HeaderMap where
  entries := [("connection", Str.utf8 "keep-alive"), ("connection", Str.utf8 "X-Session"),
    ("x-session", Str.utf8 "1")]

/-- The second `Connection` line is not read, so the header it declares crosses. -/
theorem second_line_crosses :
    ("x-session" : Str) ∈ connectionTokens twoConnectionLines ∧
      valuesOf (sanitizeForwardHeaders twoConnectionLines none) "x-session" = [Str.utf8 "1"] ∧
      ¬ HopsStripped twoConnectionLines none (sanitizeForwardHeaders twoConnectionLines none) := by
  have hcrosses : valuesOf (sanitizeForwardHeaders twoConnectionLines none) "x-session" =
      [Str.utf8 "1"] := by decide +kernel
  have hdeclared : ("x-session" : Str) ∈ connectionTokens twoConnectionLines := by decide +kernel
  refine ⟨hdeclared, hcrosses, ?_⟩
  intro h
  have hgone := h.stripped "x-session" (.inr hdeclared)
    (fun hlength => absurd hlength.2 (by decide))
  rw [hcrosses] at hgone
  cases hgone

/-! ## What is sent on -/

section calls

variable (X : Crates) (engine : Engine σ) (cfg : Config) (env : Env σ) (id : Str) (req : Request)

/-- The request that a call of `forward` asks the upstream with, where the target can be
rewritten.
Source: `budu-proxy/src/lib.rs` `Proxy::forward` (`out`) -/
def outRequest (call : ForwardCall) : Option OutRequest :=
  (rewriteUri X cfg.server.upstream call.parts.uri).toOption.map fun uri =>
    ⟨⟨call.parts.method, uri, sanitizeForwardHeaders call.parts.headers call.bufferedLen⟩,
      call.body⟩

/-- Of the upstream, forwarding sees the answer to that request alone. -/
theorem forwardResult_congr {env env' : Env σ} {call : ForwardCall}
    (h : ∀ out, outRequest X cfg call = some out → env.upstream out = env'.upstream out) :
    forwardResult X cfg env call = forwardResult X cfg env' call := by
  unfold outRequest at h
  unfold forwardResult
  cases huri : rewriteUri X cfg.server.upstream call.parts.uri with
  | error e => rfl
  | ok uri =>
      rw [huri] at h
      have hasked := h _ rfl
      simp only [hasked]

/-- A call of `forward` as the handler makes it: the body as it comes in, or a copy of it in
memory with its length. -/
inductive IsCall : ForwardCall → Prop
  | streamed : IsCall ⟨forwardParts cfg id req.parts, .stream req.body, none⟩
  | buffered (bytes : Bytes) :
      IsCall ⟨forwardParts cfg id req.parts, .full bytes, some bytes.length⟩

/-- From one state to another, some calls of `forward` were made. -/
def Calls (s t : ProxyState σ) : Prop :=
  ∃ calls, t.forwards = s.forwards ++ calls ∧ ∀ call ∈ calls, IsCall cfg id req call

variable {cfg id req}

/-- Where no call was added, all added ones are of the request. -/
theorem Calls.of_eq {s t : ProxyState σ} (h : t.forwards = s.forwards) : Calls cfg id req s t :=
  ⟨[], by rw [h, List.append_nil], fun _ hcall => absurd hcall List.not_mem_nil⟩

/-- Where one call was added, and it is of the request, all added ones are. -/
theorem Calls.of_snoc {s t : ProxyState σ} {call : ForwardCall} (hcall : IsCall cfg id req call)
    (h : t.forwards = s.forwards ++ [call]) : Calls cfg id req s t := by
  refine ⟨[call], h, ?_⟩
  intro other hother
  rwa [List.mem_singleton.mp hother]

variable (cfg id req)

/-- The late phase makes at most one call, with the body it was given. -/
theorem lateAndForward_calls (client : ClientInfo) (ctx : RequestCtx) {body : RespBody}
    {len : Option Nat} (hcall : IsCall cfg id req ⟨forwardParts cfg id req.parts, body, len⟩)
    (s : ProxyState σ) :
    Calls cfg id req s (lateAndForward X engine cfg env id req client ctx body len s).2 := by
  have hforwards := lateAndForward_forwards X engine cfg env id req client ctx body len s
  split at hforwards
  · exact .of_snoc hcall hforwards
  · exact .of_eq hforwards

/-- The body gate makes at most one, with the buffered or the streamed body. -/
theorem gateAndForward_calls (client : ClientInfo) (ctx : RequestCtx) (s : ProxyState σ) :
    Calls cfg id req s (gateAndForward X engine cfg env id req client ctx s).2 := by
  unfold gateAndForward
  cases bodyGate cfg req with
  | tooLarge => exact .of_eq rfl
  | buffered bytes =>
      exact lateAndForward_calls X engine cfg env id req client _ (.buffered bytes)
        { s with shared := env.whileReading s.shared }
  | streamed => exact lateAndForward_calls X engine cfg env id req client ctx .streamed s

/-- A bypass makes one, with the streamed body. -/
theorem bypass_calls (s : ProxyState σ) : Calls cfg id req s (bypass X cfg env id req s).2 := by
  unfold bypass
  dsimp only
  split
  · exact .of_snoc .streamed rfl
  · exact .of_snoc .streamed rfl

/-- **What the handler forwards** is the request with its id, its body streamed or in memory. -/
theorem handleInner_calls (peerIp : IpAddr) (s : ProxyState σ) :
    Calls cfg id req s (handleInner X engine cfg env id req peerIp s).2 := by
  unfold handleInner
  dsimp only
  split
  · exact bypass_calls X cfg env id req { s with metrics := s.metrics.request }
  · unfold inspectAndForward
    dsimp only
    split
    · exact .of_eq rfl
    · exact gateAndForward_calls X engine cfg env id req _ _ _

end calls

/-- A call that is among those a request made is one of that request. -/
theorem Calls.isCall {cfg : Config} {id : Str} {req : Request} {s t : ProxyState σ}
    (h : Calls cfg id req s t) {calls : List ForwardCall}
    (hcalls : t.forwards = s.forwards ++ calls) {call : ForwardCall} (hcall : call ∈ calls) :
    IsCall cfg id req call := by
  obtain ⟨made, hmade, hall⟩ := h
  rw [hcalls] at hmade
  rw [List.append_cancel_left hmade] at hcall
  exact hall call hcall

/-! ### Framing -/

/-- A head that frames a body of so many bytes, and in one way only. -/
structure Framed (headers : HeaderMap) (len : Nat) : Prop where
  /-- The length, once. -/
  contentLength : valuesOf headers "content-length" = [lengthValue len]
  /-- No transfer coding. -/
  transferEncoding : valuesOf headers "transfer-encoding" = []

/-- `sanitize_forward_headers` with a length frames a body of that length, whatever the head was. -/
theorem framed_sanitize (headers : HeaderMap) (len : Nat) :
    Framed (sanitizeForwardHeaders headers (some len)) len := by
  constructor
  · rw [valuesOf_sanitize]
    exact if_pos rfl
  · have hfixed : ("transfer-encoding" : Str) ∈ dropped headers :=
      List.mem_append_right _ (by decide)
    rw [valuesOf_sanitize]
    dsimp only
    rw [if_neg transferEncoding_ne, if_pos hfixed]

/-- A reply that is emitted again is framed by its bytes. -/
theorem framed_reemit (resp : Response) (bytes : Bytes) :
    Framed (reemit resp bytes).headers bytes.length :=
  ⟨valuesOf_reemit_contentLength resp bytes, valuesOf_reemit_transferEncoding resp bytes⟩

/-- `insert` writes the name in lower case, so it may as well be given so. -/
theorem insert_lower (headers : HeaderMap) (name : Str) (v : Bytes) :
    headers.insert name v = headers.insert (Str.toAsciiLowercase name) v := by
  unfold HeaderMap.insert HeaderMap.remove
  rw [lower_idem]

/-- `set_request_id` leaves the framing of a head alone, unless its header is a framing one. -/
theorem Framed.setRequestId {headers : HeaderMap} {len : Nat} (h : Framed headers len)
    {headerName : Str} (id : Str)
    (hlength : ("content-length" : Str) ≠ Str.toAsciiLowercase headerName)
    (hcoding : ("transfer-encoding" : Str) ≠ Str.toAsciiLowercase headerName) :
    Framed (Proxy.setRequestId headers headerName id) len := by
  unfold Proxy.setRequestId
  split
  · rw [insert_lower]
    constructor
    · rw [valuesOf_insert_of_ne headers (lower_idem headerName) _ hlength]
      exact h.contentLength
    · rw [valuesOf_insert_of_ne headers (lower_idem headerName) _ hcoding]
      exact h.transferEncoding
  · exact h

/-- **Framing is unambiguous after buffering**, whatever head came in: of every request that is
forwarded from memory, and of every reply that is re-emitted from memory, also with the request id
that is set on it last, unless that goes by the name of a framing header. -/
theorem framing_unambiguous :
    (∀ (headers : HeaderMap) (len : Nat),
      Framed (sanitizeForwardHeaders headers (some len)) len) ∧
    (∀ (X : Crates) (engine : Engine σ) (cfg : Config) (env : Env σ) (id : Str) (req : Request)
      (peerIp : IpAddr) (s : ProxyState σ) (calls : List ForwardCall),
      (handleInner X engine cfg env id req peerIp s).2.forwards = s.forwards ++ calls →
      ∀ call ∈ calls, ∀ bytes out, call.body = .full bytes → outRequest X cfg call = some out →
        out.body = .full bytes ∧ Framed out.parts.headers bytes.length) ∧
    (∀ (engine : Engine σ) (cfg : Config) (env : Env σ) (resp : Response) (client : ClientInfo)
      (detect : Bool) (path : Str) (s : ProxyState σ) (bytes : Bytes),
      buffersReply engine cfg resp s.shared = true →
      bufferFrames cfg.limits.maxInspectBody.toNat resp.body.toStream.failure []
        resp.body.toStream.frames = .done bytes →
      (judgeResponse engine ⟨resp.status, resp.headers, client, path, .buffered bytes⟩ detect
        { s with shared := env.whileBuffering s.shared }).1 = none →
      (inspectResponse engine cfg env resp client detect path s).1.body = .full bytes ∧
        Framed (inspectResponse engine cfg env resp client detect path s).1.headers
          bytes.length) ∧
    ∀ (X : Crates) (engine : Engine σ) (cfg : Config) (env : Env σ) (generated : Str)
      (req : Request) (peerIp : IpAddr) (s : ProxyState σ) (len : Nat),
      ("content-length" : Str) ≠ Str.toAsciiLowercase cfg.server.requestIdHeader →
      ("transfer-encoding" : Str) ≠ Str.toAsciiLowercase cfg.server.requestIdHeader →
      Framed (handleInner X engine cfg env
        (resolveId req.parts.headers cfg.server.requestIdHeader generated) req peerIp s).1.headers
          len →
      Framed (handle X engine cfg env generated req peerIp s).1.headers len := by
  refine ⟨framed_sanitize, ?_, ?_, ?_⟩
  · intro X engine cfg env id req peerIp s calls hcalls call hcall bytes out hbody hout
    have hmade := (handleInner_calls X engine cfg env id req peerIp s).isCall hcalls hcall
    obtain ⟨uri, -, rfl⟩ := Option.map_eq_some_iff.mp hout
    cases hmade with
    | streamed => cases hbody
    | buffered content =>
        obtain rfl := RespBody.full.inj hbody
        exact ⟨rfl, framed_sanitize _ _⟩
  · intro engine cfg env resp client detect path s bytes hbuffers hdone hallowed
    have hout : (inspectResponse engine cfg env resp client detect path s).1 =
        reemit resp bytes := by
      unfold inspectResponse
      rw [if_pos hbuffers, hdone]
      simp only [hallowed, Option.getD_none]
    rw [hout]
    exact ⟨rfl, framed_reemit resp bytes⟩
  · intro X engine cfg env generated req peerIp s len hlength hcoding hframed
    exact hframed.setRequestId _ hlength hcoding

/-- A post with two lengths and a transfer coding, the length declared hop-by-hop. -/
def smuggledPost : Request where
  parts :=
    ⟨"POST", ⟨none, none, "/form", none⟩,
      ⟨[("content-type", Str.utf8 "application/x-www-form-urlencoded"),
        ("content-length", Str.utf8 "0"), ("connection", Str.utf8 "Content-Length"),
        ("transfer-encoding", Str.utf8 "chunked"), ("content-length", Str.utf8 "9")]⟩⟩
  body := ⟨[.data [0x61, 0x3D], .data [0x31]], none⟩

/-- The call that forwards it: its head with the id, before it is sanitized, and the body as it was
buffered. -/
def smuggledCall : ForwardCall where
  parts := forwardParts formConfig "id-1" smuggledPost.parts
  body := .full [0x61, 0x3D, 0x31]
  bufferedLen := some 3

/-- The request that the upstream is asked with. -/
def smuggledOut : OutRequest :=
  (outRequest bareBuild formConfig smuggledCall).get (by decide +kernel)

/-- The post with two lengths goes on with one, that of its body. -/
theorem smuggled_post_framed :
    smuggledOut.body = .full [0x61, 0x3D, 0x31] ∧ Framed smuggledOut.parts.headers 3 :=
  framing_unambiguous.2.1 bareBuild (standard none formConfig).engine formConfig
    (replyingEnv (Shared bareBuild)) "id-1" smuggledPost localPeer bareState [smuggledCall]
    (by decide +kernel) smuggledCall List.mem_cons_self _ smuggledOut rfl
    (Option.some_get _).symm

/-! ### The request id -/

section setRequestId

variable (headers : HeaderMap) {headerName id : Str}

/-- `get` reads the first value of the name in lower case. -/
theorem get_eq_head? (name : Str) :
    headers.get name = (valuesOf headers (Str.toAsciiLowercase name)).head? := by
  unfold HeaderMap.get valuesOf
  rw [List.head?_map, List.head?_filter]

/-- A safe token is a legal header value, so the id can be set. -/
theorem SafeId.headerValueOk (h : SafeId id) : headerValueOk id = true := by
  unfold Proxy.headerValueOk
  rw [List.all_eq_true]
  intro c hc
  have hvisible := visible_of_idChar (h.safe c hc)
  simp only [Bool.or_eq_true, Bool.and_eq_true, decide_eq_true_eq]
  omega

/-- A safe id is inserted under a valid header name. -/
theorem setRequestId_eq (hname : headerNameOk headerName = true) (hid : SafeId id) :
    setRequestId headers headerName id =
      headers.insert (Str.toAsciiLowercase headerName) (Str.utf8 id) := by
  have hnonempty : (!headerName.isEmpty) = true := (Bool.and_eq_true_iff.mp hname).1
  unfold setRequestId
  rw [hname, hid.headerValueOk, hnonempty]
  exact insert_lower headers headerName _

/-- The header then has that id for its only value. -/
theorem valuesOf_setRequestId (hname : headerNameOk headerName = true) (hid : SafeId id) :
    valuesOf (setRequestId headers headerName id) (Str.toAsciiLowercase headerName) =
      [Str.utf8 id] := by
  rw [setRequestId_eq headers hname hid]
  exact valuesOf_insert_self headers (lower_idem headerName) _

/-- The id leaves the `Connection` lines alone. -/
theorem firstLineTokens_setRequestId (hname : headerNameOk headerName = true) (hid : SafeId id)
    (hother : Str.toAsciiLowercase headerName ∉ hopByHop) :
    firstLineTokens (setRequestId headers headerName id) = firstLineTokens headers := by
  have hne : ("connection" : Str) ≠ Str.toAsciiLowercase headerName := by
    intro heq
    rw [← heq] at hother
    exact hother List.mem_cons_self
  have hvalues := valuesOf_insert_of_ne headers (lower_idem headerName) (Str.utf8 id) hne
  have hlower : Str.toAsciiLowercase "connection" = ("connection" : Str) := by decide
  unfold firstLineTokens
  rw [get_eq_head?, get_eq_head?, hlower, setRequestId_eq headers hname hid, hvalues]

end setRequestId

/-- **What the upstream gets of the id**: all of it, or nothing where the client lists its header
on the first `Connection` line. -/
theorem valuesOf_forwarded_id {cfg : Config} {call : ForwardCall} {out : OutRequest}
    {parts : Parts} {id : Str} (hid : SafeId id)
    (hname : headerNameOk cfg.server.requestIdHeader = true)
    (hhop : Str.toAsciiLowercase cfg.server.requestIdHeader ∉ hopByHop)
    (hlength : Str.toAsciiLowercase cfg.server.requestIdHeader ≠ "content-length")
    (hparts : call.parts = forwardParts cfg id parts) (hout : outRequest X cfg call = some out) :
    valuesOf out.parts.headers (Str.toAsciiLowercase cfg.server.requestIdHeader) =
      if Str.toAsciiLowercase cfg.server.requestIdHeader ∈ firstLineTokens parts.headers then []
      else [Str.utf8 id] := by
  obtain ⟨uri, -, rfl⟩ := Option.map_eq_some_iff.mp hout
  have hdropped : Str.toAsciiLowercase cfg.server.requestIdHeader ∈ dropped call.parts.headers ↔
      Str.toAsciiLowercase cfg.server.requestIdHeader ∈ firstLineTokens parts.headers := by
    rw [hparts, dropped, List.mem_append, forwardParts,
      firstLineTokens_setRequestId parts.headers hname hid hhop]
    exact or_iff_left hhop
  have hheaders : valuesOf call.parts.headers
      (Str.toAsciiLowercase cfg.server.requestIdHeader) = [Str.utf8 id] := by
    rw [hparts]
    exact valuesOf_setRequestId parts.headers hname hid
  rw [valuesOf_sanitize_of_ne fun h => hlength h.1, hheaders]
  simp only [hdropped]

/-- The upstream and the client get the same id, once. -/
structure SameId (name : Str) (id : Str) (resp : Response) (out : OutRequest) : Prop where
  /-- Upstream. -/
  upstream : valuesOf out.parts.headers name = [Str.utf8 id]
  /-- The client. -/
  client : valuesOf resp.headers name = [Str.utf8 id]

/-- **The request id reaches the upstream** of a request that is forwarded, on the allowlist or
after inspection, exactly if the client does not list its header on the first `Connection`
line. -/
theorem id_reaches_upstream_iff (X : Crates) (engine : Engine σ) (cfg : Config) (env : Env σ)
    (seed counter : UInt64) (req : Request) (peerIp : IpAddr) (s : ProxyState σ)
    (calls : List ForwardCall) (call : ForwardCall) (out : OutRequest)
    (hname : headerNameOk cfg.server.requestIdHeader = true)
    (hhop : Str.toAsciiLowercase cfg.server.requestIdHeader ∉ hopByHop)
    (hlength : Str.toAsciiLowercase cfg.server.requestIdHeader ≠ "content-length")
    (hcalls : (handle X engine cfg env (generate seed counter).1 req peerIp s).2.forwards =
      s.forwards ++ calls)
    (hcall : call ∈ calls) (hout : outRequest X cfg call = some out) :
    SameId (Str.toAsciiLowercase cfg.server.requestIdHeader)
        (resolve seed req.parts.headers cfg.server.requestIdHeader counter).1
        (handle X engine cfg env (generate seed counter).1 req peerIp s).1 out ↔
      Str.toAsciiLowercase cfg.server.requestIdHeader ∉ firstLineTokens req.parts.headers := by
  have hsafe := safeId_resolve seed counter req.parts.headers cfg.server.requestIdHeader
  have hid := resolve_eq seed req.parts.headers cfg.server.requestIdHeader counter
  generalize (resolve seed req.parts.headers cfg.server.requestIdHeader counter).1 = id at hsafe hid
  -- the client's response gets the id last
  have hclient : valuesOf (handle X engine cfg env (generate seed counter).1 req peerIp s).1.headers
      (Str.toAsciiLowercase cfg.server.requestIdHeader) = [Str.utf8 id] := by
    unfold handle
    rw [← hid]
    exact valuesOf_setRequestId _ hname hsafe
  -- the head that is stripped has the id and the client's `Connection` lines
  have hmade := (handleInner_calls X engine cfg env id req peerIp s).isCall
    (by rw [hid]; exact hcalls) hcall
  have hparts : call.parts = forwardParts cfg id req.parts := by
    cases hmade with
    | streamed => rfl
    | buffered bytes => rfl
  have hupstream := valuesOf_forwarded_id hsafe hname hhop hlength hparts hout
  constructor
  · intro h hlisted
    have hgone := h.upstream
    rw [hupstream, if_pos hlisted] at hgone
    cases hgone
  · intro hlisted
    refine ⟨?_, hclient⟩
    rw [hupstream, if_neg hlisted]

/-- A form post with some `Connection` line. -/
def connectionPost (connection : Str) : Request where
  parts :=
    { formPost.parts with
      headers := formPost.parts.headers.insert "connection" (Str.utf8 connection) }
  body := formPost.body

/-- The form configuration with the loopback network on the allowlist. -/
def allowedConfig : Config :=
  { formConfig with reputation :=
      { formConfig.reputation with allowlist := [.v4 0x7F000001#32 32] } }

/-- A host starts with the minimal configuration. -/
theorem formConfig_starts :
    (fromConfig bareBuild bareFiles ⟨0, 0⟩ formConfig).toOption.isSome := by
  decide +kernel

/-- The post with such a line, handled right after a start with a configuration. -/
def connectionRun (cfg : Config) (connection : Str)
    (h : (fromConfig bareBuild bareFiles ⟨0, 0⟩ cfg).toOption.isSome) :
    Response × ProxyState (Shared bareBuild) :=
  handle bareBuild (standard none cfg).engine cfg (replyingEnv (Shared bareBuild))
    (generate 7 0).1 (connectionPost connection) localPeer
    { bareState with shared := ((fromConfig bareBuild bareFiles ⟨0, 0⟩ cfg).toOption.get h).2 }

/-- The call that forwards such a post, inspected or not. -/
def connectionCall (connection : Str) (inspected : Bool) : ForwardCall where
  parts := forwardParts formConfig (generate 7 0).1 (connectionPost connection).parts
  body := if inspected then .full [0x61, 0x3D, 0x31] else .stream formPost.body
  bufferedLen := if inspected then some 3 else none

/-- The request that the upstream is asked with. -/
def connectionOut (connection : Str) (inspected : Bool) : Option OutRequest :=
  outRequest bareBuild formConfig (connectionCall connection inspected)

/-- A `Connection` line that does not name the id's header lets the id through. -/
theorem kept_alive_id_arrives :
    SameId "x-request-id" (generate 7 0).1
        (connectionRun formConfig "keep-alive" formConfig_starts).1
        ((connectionOut "keep-alive" true).get (by decide +kernel)) ↔
      ("x-request-id" : Str) ∉ firstLineTokens (connectionPost "keep-alive").parts.headers :=
  id_reaches_upstream_iff bareBuild (standard none formConfig).engine formConfig
    (replyingEnv (Shared bareBuild)) 7 0 (connectionPost "keep-alive") localPeer _
    [connectionCall "keep-alive" true] (connectionCall "keep-alive" true) _ (by decide +kernel)
    (by decide +kernel) (by decide +kernel) (by decide +kernel) List.mem_cons_self
    (Option.some_get _).symm

/-- A client that lists the id's header in `Connection` gets an id which the upstream does not,
inspected or on the allowlist. -/
theorem listed_id_lost :
    (connectionRun formConfig "X-Request-Id" formConfig_starts).2.forwards =
        [connectionCall "X-Request-Id" true] ∧
      (connectionRun allowedConfig "X-Request-Id" (by decide +kernel)).2.forwards =
        [connectionCall "X-Request-Id" false] ∧
      ¬ SameId "x-request-id" (generate 7 0).1
        (connectionRun formConfig "X-Request-Id" formConfig_starts).1
        ((connectionOut "X-Request-Id" true).get (by decide +kernel)) ∧
      ¬ SameId "x-request-id" (generate 7 0).1
        (connectionRun allowedConfig "X-Request-Id" (by decide +kernel)).1
        ((connectionOut "X-Request-Id" false).get (by decide +kernel)) := by
  have hlost : ∀ inspected, (connectionOut "X-Request-Id" inspected).map
      (fun out => valuesOf out.parts.headers "x-request-id") = some [] := by decide +kernel
  have hnot : ∀ inspected resp (h : (connectionOut "X-Request-Id" inspected).isSome),
      ¬ SameId "x-request-id" (generate 7 0).1 resp
        ((connectionOut "X-Request-Id" inspected).get h) := by
    intro inspected resp h hsame
    have hgone := hlost inspected
    rw [← Option.some_get h, Option.map_some, hsame.upstream] at hgone
    cases hgone
  exact ⟨by decide +kernel, by decide +kernel, hnot true _ _, hnot false _ _⟩

end BuduWaf.Proxy
