import BuduWaf.Encodings
import BuduWaf.Proxy.Handle

/-!
# Which bodies are inspected, and how inspected replies come out

* **The body gate** (`body_inspected_iff`): a request whose `Content-Type` begins with a
  configured media type is inspected exactly if the header is all ASCII, since the test reads the
  header as text first.
* **Buffered replies** (`reply_transparent_iff`): what is buffered never exceeds the limit, and a
  reply the rules let through comes out as the upstream sent it exactly if its length header is
  the one the proxy writes.

A configured media type is compared with the beginning of the header in lower case, and a header
that is not visible ASCII has no text to compare. For replies, transparency is stated field by field
(status, body, each header): the length header is written anew, and transfer codings are dropped, so
what has to agree is what these said before. The bound on what is held is an invariant of reading
frame by frame, at every moment and not only at the end.
-/

namespace BuduWaf.Proxy

open BuduWaf.Parser

variable {σ : Type}

/-! ## The gate -/

/-- The bytes of a header value: visible ASCII, space, tab, and the upper half.
Source: `http::HeaderValue::from_bytes` -/
def headerByteOk (b : UInt8) : Bool := (0x20 ≤ b.toNat && b.toNat != 0x7F) || b.toNat == 0x09

/-- `u8::to_ascii_lowercase`: other bytes than ASCII letters stay as they are. -/
def lowerByte (b : UInt8) : UInt8 := if 0x41 ≤ b.toNat ∧ b.toNat ≤ 0x5A then b + 0x20 else b

/-- A header value begins with a media type, whatever the case of ASCII letters. -/
def BeginsWith (v : Bytes) (mediaType : Str) : Prop :=
  Str.utf8 (Str.toAsciiLowercase mediaType) <+: v.map lowerByte

instance (v : Bytes) (mediaType : Str) : Decidable (BeginsWith v mediaType) :=
  inferInstanceAs (Decidable (_ <+: _))

/-- A legal header value reads as text exactly if it is ASCII. -/
theorem headerToStr_eq {v : Bytes} (hlegal : v.all headerByteOk = true) :
    headerToStr v = if IsAscii v then some (asciiText v) else none := by
  have hall : (v.all fun b => (0x20 ≤ b.toNat && b.toNat < 0x7F) || b.toNat == 0x09) = true ↔
      IsAscii v := by
    rw [List.all_eq_true] at hlegal ⊢
    constructor
    · intro h b hb
      have hbyte := h b hb
      simp only [Bool.or_eq_true, Bool.and_eq_true, decide_eq_true_eq, beq_iff_eq] at hbyte
      omega
    · intro h b hb
      have hbyte := hlegal b hb
      have hascii := h b hb
      simp only [headerByteOk, Bool.or_eq_true, Bool.and_eq_true, decide_eq_true_eq, bne_iff_ne,
        beq_iff_eq, ne_eq] at hbyte ⊢
      omega
  unfold headerToStr
  by_cases hascii : IsAscii v
  · rw [if_pos hascii, if_pos (hall.mpr hascii)]
    rfl
  · rw [if_neg hascii, if_neg (fun h => hascii (hall.mp h))]

/-- The lower case of a byte is that of its character. -/
theorem toLower_ofNat (b : UInt8) :
    Char.ofNat (lowerByte b).toNat = (Char.ofNat b.toNat).toLower := by
  have hall : ∀ n : Fin 256, Char.ofNat (lowerByte (UInt8.ofNat n.val)).toNat =
      (Char.ofNat (UInt8.ofNat n.val).toNat).toLower := by decide +kernel
  have hb := hall ⟨b.toNat, b.toNat_lt⟩
  rwa [UInt8.ofNat_toNat] at hb

/-- Folding the case of the bytes folds that of the text. -/
theorem asciiText_lower (v : Bytes) :
    asciiText (v.map lowerByte) = Str.toAsciiLowercase (asciiText v) := by
  unfold asciiText Str.toAsciiLowercase
  rw [List.map_map, List.map_map]
  apply List.map_congr_left
  intro b _
  exact toLower_ofNat b

/-- The lower case of ASCII bytes is ASCII. -/
theorem isAscii_lower {v : Bytes} (h : IsAscii v) : IsAscii (v.map lowerByte) := by
  intro b hb
  obtain ⟨c, hc, rfl⟩ := List.mem_map.mp hb
  have hascii := h c hc
  unfold lowerByte
  split
  · have hadd := UInt8.toNat_add c 0x20
    have hconst : (0x20 : UInt8).toNat = 32 := rfl
    omega
  · exact hascii

/-- An ASCII header value that begins with the bytes of a media type begins with its text. -/
theorem isPrefixOf_of_beginsWith {v : Bytes} {mediaType : Str} (hascii : IsAscii v)
    (h : BeginsWith v mediaType) :
    (Str.toAsciiLowercase mediaType).isPrefixOf (Str.toAsciiLowercase (asciiText v)) = true := by
  obtain ⟨rest, hrest⟩ := h
  have hread : Str.fromUtf8Lossy (v.map lowerByte) = Str.toAsciiLowercase (asciiText v) := by
    rw [← asciiText_lower, ← Str.fromUtf8Lossy_utf8 (asciiText (v.map lowerByte)),
      utf8_asciiText (isAscii_lower hascii)]
  rw [← hrest, Str.fromUtf8Lossy_utf8_append] at hread
  rw [← hread, List.isPrefixOf_iff_prefix]
  exact List.prefix_append _ _

/-- The gate's view of the header: no type at all where a byte is not ASCII. -/
theorem contentType_eq {headers : HeaderMap} {v : Bytes} (hlegal : v.all headerByteOk = true)
    (hct : headers.get "content-type" = some v) :
    contentType headers =
      if IsAscii v then some (Str.toAsciiLowercase (asciiText v)) else none := by
  unfold contentType
  rw [hct, Option.bind_some, headerToStr_eq hlegal]
  split <;> rfl

/-- A request whose body does not get past the gate unseen: it is selected, and is buffered for
the late stages or refused. -/
structure BodyInspected (cfg : Config) (req : Request) : Prop where
  /-- The request is selected. -/
  selected : shouldInspectBody req.parts cfg = true
  /-- The handler goes on with the body in memory, or answers 413. -/
  gated : ∀ {σ : Type} (X : Crates) (engine : Engine σ) (env : Env σ) (id : Str)
    (client : ClientInfo) (ctx : RequestCtx) (s : ProxyState σ),
    (∃ bytes, gateAndForward X engine cfg env id req client ctx s =
      lateAndForward X engine cfg env id req client { ctx with body := .buffered bytes }
        (.full bytes) (some bytes.length) { s with shared := env.whileReading s.shared }) ∨
    (gateAndForward X engine cfg env id req client ctx s).1.status = .payloadTooLarge

/-- A body that is selected for inspection is not streamed past it. -/
theorem bodyInspected_of_selected {cfg : Config} {req : Request}
    (h : shouldInspectBody req.parts cfg = true) : BodyInspected cfg req := by
  refine ⟨h, ?_⟩
  intro σ X engine env id client ctx s
  unfold gateAndForward
  cases hgate : bodyGate cfg req with
  | tooLarge => exact .inr rfl
  | buffered bytes => exact .inl ⟨bytes, rfl⟩
  | streamed =>
      rw [bodyGate_eq_streamed_iff, h] at hgate
      cases hgate

/-- **The body gate.** A request with a body whose `Content-Type` begins with a configured media
type is inspected exactly if no byte of the header, in the parameters after the type either, is
outside ASCII. -/
theorem body_inspected_iff (cfg : Config) (req : Request) (v : Bytes) (mediaType : Str)
    (hmethod : req.parts.method ∈ [("POST" : Str), "PUT", "PATCH"])
    (hct : req.parts.headers.get "content-type" = some v) (hlegal : v.all headerByteOk = true)
    (hconfigured : mediaType ∈ cfg.inspect.contentTypes) (hbegins : BeginsWith v mediaType) :
    BodyInspected cfg req ↔ IsAscii v := by
  have hselected : shouldInspectBody req.parts cfg =
      hasMediaType req.parts.headers cfg.inspect.contentTypes := by
    unfold shouldInspectBody
    rw [List.contains_iff_mem.mpr hmethod, Bool.true_and]
  have hread := contentType_eq hlegal hct
  constructor
  · intro h
    have hsome := h.selected
    rw [hselected, hasMediaType, hread] at hsome
    by_contra hascii
    rw [if_neg hascii] at hsome
    cases hsome
  · intro hascii
    apply bodyInspected_of_selected
    rw [hselected, hasMediaType, hread, if_pos hascii]
    refine List.any_eq_true.mpr ⟨mediaType, hconfigured, ?_⟩
    exact isPrefixOf_of_beginsWith hascii hbegins

/-! ### A parameter outside ASCII -/

/-- The minimal configuration, with JSON as the one content type that is inspected. -/
def jsonConfig : Config :=
  { Config.minimal with inspect :=
      { Config.minimal.inspect with contentTypes := [("application/json" : Str)] } }

/-- A JSON post with some parameter after the media type. -/
def jsonPost (parameter : Bytes) : Request where
  parts :=
    ⟨("POST" : Str), ⟨none, none, ("/" : Str), none⟩,
      ⟨[("content-type", Str.utf8 "Application/JSON; x=" ++ parameter)]⟩⟩
  body := ⟨[.data (Str.utf8 "\x7b\x7d")], none⟩

/-- The post of the example is inspected as its type is ASCII. -/
theorem json_post_inspected :
    BodyInspected jsonConfig (jsonPost [0x61]) ↔
      IsAscii (Str.utf8 "Application/JSON; x=" ++ [0x61]) :=
  body_inspected_iff jsonConfig (jsonPost [0x61]) _ "application/json" (by decide) rfl
    (by decide +kernel) (by decide) (by decide +kernel)

/-- A byte outside ASCII in a parameter makes the gate stream the body. -/
theorem json_post_not_inspected :
    (jsonPost [0xFF]).parts.headers.get "content-type" =
        some (Str.utf8 "Application/JSON; x=" ++ [0xFF]) ∧
      (Str.utf8 "Application/JSON; x=" ++ [0xFF]).all headerByteOk = true ∧
      BeginsWith (Str.utf8 "Application/JSON; x=" ++ [0xFF]) "application/json" ∧
      ¬ BodyInspected jsonConfig (jsonPost [0xFF]) ∧
      bodyGate jsonConfig (jsonPost [0xFF]) = .streamed := by
  refine ⟨rfl, by decide +kernel, by decide +kernel, ?_, by decide +kernel⟩
  intro h
  have hunselected : shouldInspectBody (jsonPost [0xFF]).parts jsonConfig = false := by
    decide +kernel
  exact Bool.false_ne_true (hunselected.symm.trans h.selected)

/-! ## Buffered replies -/

/-- The values of the lines of a header, in order. -/
def valuesOf (headers : HeaderMap) (name : Str) : List Bytes :=
  (headers.entries.filter fun e => e.1 == name).map Prod.snd

/-- The lines of all headers but the two that frame the body. -/
def unframed (headers : HeaderMap) : List (Str × Bytes) :=
  headers.entries.filter fun e => e.1 != "content-length" && e.1 != "transfer-encoding"

/-- A reply that has no body by its kind: to `HEAD`, or with one of the two statuses. -/
def Bodiless (method : Str) (status : StatusCode) : Prop :=
  method = ("HEAD" : Str) ∨ status.code = 204 ∨ status.code = 304

instance (method : Str) (status : StatusCode) : Decidable (Bodiless method status) :=
  inferInstanceAs (Decidable (_ ∨ _))

/-- Chunking is the only transfer coding a message declares. -/
def OnlyChunked (headers : HeaderMap) : Prop :=
  ∀ v ∈ valuesOf headers "transfer-encoding", v.map lowerByte = Str.utf8 "chunked"

instance (headers : HeaderMap) : Decidable (OnlyChunked headers) :=
  inferInstanceAs (Decidable (∀ _ ∈ _, _))

/-- The data of a reply: the bytes of its frames, without trailers. -/
def Response.data (resp : Response) : Bytes := dataOf resp.body.toStream.frames

/-- `out` is the reply as it would have been streamed, in one piece: a declared length is kept,
and chunks, in which a body of undeclared length is delivered, give way to the length. -/
structure Delivered (method : Str) (resp out : Response) : Prop where
  /-- The status. -/
  status : out.status = resp.status
  /-- The data. -/
  data : out.body.data? = some resp.data
  /-- The headers that do not frame the body. -/
  others : unframed out.headers = unframed resp.headers
  /-- The length. -/
  contentLength : valuesOf out.headers "content-length" =
    if valuesOf resp.headers "content-length" = [] ∧ ¬ Bodiless method resp.status then
      [lengthValue resp.data.length]
    else valuesOf resp.headers "content-length"
  /-- The transfer codings: all but chunking are kept. -/
  transferEncoding : valuesOf out.headers "transfer-encoding" =
    (valuesOf resp.headers "transfer-encoding").filter
      fun v => v.map lowerByte != Str.utf8 "chunked"

/-- The length header is the one the proxy would write, or is absent where it may write one. -/
def LengthAgrees (method : Str) (resp : Response) : Prop :=
  valuesOf resp.headers "content-length" = [lengthValue resp.data.length] ∨
    (valuesOf resp.headers "content-length" = [] ∧ ¬ Bodiless method resp.status)

/-- What the buffer holds on the way, from some content on.
Source: `budu-proxy/src/lib.rs` `Proxy::inspect_response` (`buf`) -/
def buffersHeld (max : Nat) : Bytes → List Frame → List Bytes
  | buf, [] => [buf]
  | buf, .data chunk :: frames =>
    if max < buf.length + chunk.length then [buf]
    else buf :: buffersHeld max (buf ++ chunk) frames
  | buf, .trailers _ :: frames => buf :: buffersHeld max buf frames

/-- What was buffered in the end was held at some time. -/
theorem mem_buffersHeld_of_done {max : Nat} {failure : Option Str} {frames : List Frame}
    {buf bytes : Bytes} (h : bufferFrames max failure buf frames = .done bytes) :
    bytes ∈ buffersHeld max buf frames := by
  induction frames generalizing buf with
  | nil =>
      cases failure with
      | none => cases h; exact List.mem_singleton_self _
      | some e => cases h
  | cons frame frames ih =>
      cases frame with
      | trailers headers => exact List.mem_cons_of_mem _ (ih h)
      | data chunk =>
          rw [bufferFrames] at h
          rw [buffersHeld]
          split at h
          · cases h
          · rename_i hfit
            rw [if_neg hfit]
            exact List.mem_cons_of_mem _ (ih h)

/-- **The buffer never outgrows the limit.** -/
theorem buffersHeld_le {max : Nat} {frames : List Frame} {buf : Bytes} (h : buf.length ≤ max) :
    ∀ held ∈ buffersHeld max buf frames, held.length ≤ max := by
  induction frames generalizing buf with
  | nil =>
      intro held hmem
      rwa [List.mem_singleton.mp hmem]
  | cons frame frames ih =>
      intro held hmem
      cases frame with
      | trailers headers =>
          rcases List.mem_cons.mp hmem with rfl | hmem
          · exact h
          · exact ih h held hmem
      | data chunk =>
          rw [buffersHeld] at hmem
          split at hmem
          · rwa [List.mem_singleton.mp hmem]
          · rename_i hfit
            rcases List.mem_cons.mp hmem with rfl | hmem
            · exact h
            · exact ih (by rw [List.length_append]; omega) held hmem

/-- Without a read error, buffering ends with all the data if they fit, and else past the
limit. -/
theorem bufferFrames_eq {max : Nat} (frames : List Frame) {buf : Bytes} (h : buf.length ≤ max) :
    bufferFrames max none buf frames =
      if (buf ++ dataOf frames).length ≤ max then .done (buf ++ dataOf frames)
      else .tooLarge := by
  induction frames generalizing buf with
  | nil =>
      have hdata : buf ++ dataOf [] = buf := List.append_nil buf
      rw [hdata, if_pos h]
      rfl
  | cons frame frames ih =>
      cases frame with
      | trailers headers => exact ih h
      | data chunk =>
          have hdata : buf ++ dataOf (.data chunk :: frames) = (buf ++ chunk) ++ dataOf frames := by
            simp [dataOf, Frame.bytes]
          have hlen : (buf ++ chunk).length = buf.length + chunk.length := List.length_append
          rw [bufferFrames, hdata]
          by_cases hover : max < buf.length + chunk.length
          · rw [if_pos hover, if_neg (by rw [List.length_append]; omega)]
          · rw [if_neg hover]
            exact ih (by omega)

/-! ### The headers of a buffered reply -/

section headers

variable (headers : HeaderMap) {name other : Str} (hname : Str.toAsciiLowercase name = name)

include hname

/-- A header that was removed has no value. -/
theorem valuesOf_remove_self : valuesOf (headers.remove name) name = [] := by
  unfold valuesOf HeaderMap.remove
  rw [hname, List.filter_filter]
  simp

/-- Another name keeps its values where one is removed. -/
theorem valuesOf_remove_of_ne (h : other ≠ name) :
    valuesOf (headers.remove name) other = valuesOf headers other := by
  unfold valuesOf HeaderMap.remove
  rw [hname, List.filter_filter]
  congr 2
  funext e
  by_cases he : e.1 = other
  · simp [he, h]
  · simp [he]

/-- A name that was inserted has that value only. -/
theorem valuesOf_insert_self (v : Bytes) : valuesOf (headers.insert name v) name = [v] := by
  have hremoved := valuesOf_remove_self headers hname
  unfold valuesOf at hremoved ⊢
  unfold HeaderMap.insert
  rw [hname, List.filter_append, List.map_append, hremoved]
  simp

/-- Another name keeps its values where one is inserted. -/
theorem valuesOf_insert_of_ne (v : Bytes) (h : other ≠ name) :
    valuesOf (headers.insert name v) other = valuesOf headers other := by
  have hremoved := valuesOf_remove_of_ne headers hname h
  unfold valuesOf at hremoved ⊢
  unfold HeaderMap.insert
  rw [hname, List.filter_append, List.map_append, hremoved]
  simp [Ne.symm h]

/-- Removing a framing header leaves the other lines. -/
theorem unframed_remove (h : name = "content-length" ∨ name = "transfer-encoding") :
    unframed (headers.remove name) = unframed headers := by
  unfold unframed HeaderMap.remove
  rw [hname, List.filter_filter]
  congr 1
  funext e
  rcases h with rfl | rfl
  · cases he : e.1 != ("content-length" : Str) <;> simp
  · cases he : e.1 != ("transfer-encoding" : Str) <;> simp

/-- Inserting a framing header leaves the other lines. -/
theorem unframed_insert (v : Bytes) (h : name = "content-length" ∨ name = "transfer-encoding") :
    unframed (headers.insert name v) = unframed headers := by
  have hremoved := unframed_remove headers hname h
  unfold unframed at hremoved ⊢
  unfold HeaderMap.insert
  rw [hname, List.filter_append, hremoved]
  rcases h with rfl | rfl <;> simp

end headers

/-- `content-length` is written in lower case, as a header map holds its names. -/
theorem lower_contentLength :
    Str.toAsciiLowercase "content-length" = ("content-length" : Str) := by decide

/-- `transfer-encoding` is written in lower case, as a header map holds its names. -/
theorem lower_transferEncoding :
    Str.toAsciiLowercase "transfer-encoding" = ("transfer-encoding" : Str) := by decide

/-- The two framing headers are not the same. -/
theorem transferEncoding_ne : ("transfer-encoding" : Str) ≠ "content-length" := by decide

section reemit

variable (resp : Response) (bytes : Bytes)

/-- A reply that is emitted again declares its bytes, once. -/
theorem valuesOf_reemit_contentLength :
    valuesOf (reemit resp bytes).headers "content-length" = [lengthValue bytes.length] :=
  valuesOf_insert_self _ lower_contentLength _

/-- A reply that is emitted again declares no transfer coding. -/
theorem valuesOf_reemit_transferEncoding :
    valuesOf (reemit resp bytes).headers "transfer-encoding" = [] := by
  unfold reemit
  rw [valuesOf_insert_of_ne _ lower_contentLength _ transferEncoding_ne,
    valuesOf_remove_of_ne _ lower_contentLength transferEncoding_ne,
    valuesOf_remove_self _ lower_transferEncoding]

/-- The other lines of a reply that is emitted again are those of the reply. -/
theorem unframed_reemit : unframed (reemit resp bytes).headers = unframed resp.headers := by
  unfold reemit
  rw [unframed_insert _ lower_contentLength _ (.inl rfl),
    unframed_remove _ lower_contentLength (.inl rfl),
    unframed_remove _ lower_transferEncoding (.inr rfl)]

end reemit

/-- A reply goes out as it came exactly if its length agrees and it is not coded otherwise. -/
theorem delivered_reemit_iff (method : Str) (resp : Response) :
    Delivered method resp (reemit resp resp.data) ↔
      LengthAgrees method resp ∧ OnlyChunked resp.headers := by
  have hlength := valuesOf_reemit_contentLength resp resp.data
  have htransfer := valuesOf_reemit_transferEncoding resp resp.data
  constructor
  · intro h
    constructor
    · have hkept := h.contentLength
      rw [hlength] at hkept
      unfold LengthAgrees
      split at hkept
      · rename_i habsent
        exact .inr habsent
      · exact .inl hkept.symm
    · have hcodings := h.transferEncoding
      rw [htransfer] at hcodings
      intro v hv
      have hchunked := List.filter_eq_nil_iff.mp hcodings.symm v hv
      simpa using hchunked
  · rintro ⟨hagrees, hchunked⟩
    refine ⟨rfl, rfl, unframed_reemit resp _, ?_, ?_⟩
    · rw [hlength]
      rcases hagrees with hsame | habsent
      · rw [if_neg (by rw [hsame]; simp), hsame]
      · rw [if_pos habsent]
    · rw [htransfer, eq_comm, List.filter_eq_nil_iff]
      intro v hv
      simpa using hchunked v hv

/-! ### The response phase -/

/-- What the client is promised of a buffered reply: it is delivered, or it is refused with 502
where it is too large, and the buffer stays within the limit. -/
structure ReplyTransparent (max : Nat) (method : Str) (resp out : Response) : Prop where
  /-- A reply that fits. -/
  fits : resp.data.length ≤ max → Delivered method resp out
  /-- A reply that does not. -/
  overruns : max < resp.data.length →
    out = errorResponse .badGateway "response too large to inspect"
  /-- What is buffered in the end was held. -/
  held : ∀ bytes, bufferFrames max resp.body.toStream.failure [] resp.body.toStream.frames =
    .done bytes → bytes ∈ buffersHeld max [] resp.body.toStream.frames
  /-- No more is ever held. -/
  bounded : ∀ held ∈ buffersHeld max [] resp.body.toStream.frames, held.length ≤ max

/-- **The response phase is transparent** for a reply it buffers and does not block exactly if
the reply is too large, or its length header is the one the proxy writes anyway (or is absent and
the reply has a body by its kind) and chunking is its only coding. -/
theorem reply_transparent_iff (engine : Engine σ) (cfg : Config) (env : Env σ) (resp : Response)
    (client : ClientInfo) (detect : Bool) (method path : Str) (s : ProxyState σ)
    (hbuffers : buffersReply engine cfg resp s.shared = true)
    (hread : resp.body.toStream.failure = none)
    (hallowed : resp.data.length ≤ cfg.limits.maxInspectBody.toNat →
      (judgeResponse engine ⟨resp.status, resp.headers, client, path, .buffered resp.data⟩ detect
        { s with shared := env.whileBuffering s.shared }).1 = none) :
    ReplyTransparent cfg.limits.maxInspectBody.toNat method resp
        (inspectResponse engine cfg env resp client detect path s).1 ↔
      (resp.data.length ≤ cfg.limits.maxInspectBody.toNat →
        LengthAgrees method resp ∧ OnlyChunked resp.headers) := by
  have hbounded : ∀ held ∈ buffersHeld cfg.limits.maxInspectBody.toNat []
      resp.body.toStream.frames, held.length ≤ cfg.limits.maxInspectBody.toNat :=
    buffersHeld_le (Nat.zero_le _)
  have hframes : bufferFrames cfg.limits.maxInspectBody.toNat none []
      resp.body.toStream.frames =
      if ([] ++ dataOf resp.body.toStream.frames).length ≤ cfg.limits.maxInspectBody.toNat then
        .done ([] ++ dataOf resp.body.toStream.frames)
      else .tooLarge :=
    bufferFrames_eq _ (Nat.zero_le _)
  have hout : (inspectResponse engine cfg env resp client detect path s).1 =
      if resp.data.length ≤ cfg.limits.maxInspectBody.toNat then reemit resp resp.data
      else errorResponse .badGateway "response too large to inspect" := by
    unfold inspectResponse
    rw [if_pos hbuffers, hread, hframes]
    by_cases hfit : resp.data.length ≤ cfg.limits.maxInspectBody.toNat
    · have hnone := hallowed hfit
      have hdata : ([] ++ dataOf resp.body.toStream.frames : Bytes) = resp.data := rfl
      rw [hdata, if_pos hfit, if_pos hfit]
      simp only [hnone, Option.getD_none]
    · rw [if_neg hfit, if_neg (show ¬ ([] ++ dataOf resp.body.toStream.frames : Bytes).length ≤ _
        from hfit)]
      rfl
  rw [hout]
  constructor
  · intro h hfit
    have hdelivered := h.fits hfit
    rw [if_pos hfit] at hdelivered
    exact (delivered_reemit_iff method resp).mp hdelivered
  · intro h
    refine ⟨?_, ?_, fun _ => mem_buffersHeld_of_done, hbounded⟩
    · intro hfit
      rw [if_pos hfit]
      exact (delivered_reemit_iff method resp).mpr (h hfit)
    · intro hover
      rw [if_neg (by omega)]

/-! ### A reply to `HEAD` -/

/-- A rule that blocks replies whose body contains `secret`. -/
def leakRule : Rules.RuleDef where
  id := "leak"
  phase := .response
  when := [{ field := "resp_body", op := "contains", value := "secret" }]

/-- The build whose rule file has this rule alone. -/
def leakBuild : Crates :=
  .plain .none
    { Readers.none with rules := fun _ => .ok [leakRule] }

/-- The files of a host with this rule: its rule file, whose text the reader does not look at. -/
def leakFiles : FileSystem where
  read path := if path = ("rules.toml" : Str) then .ok [] else .error "no such file"

/-- The minimal configuration, with the rule file. -/
def leakConfig : Config := { Config.minimal with paths := ⟨"rules.toml", ""⟩ }

/-- The pipeline and the shared state of a proxy that starts with them. -/
def leakStarted : Pipeline leakBuild × Shared leakBuild :=
  (Pipeline.fromConfig leakBuild leakFiles ⟨0, 0⟩ leakConfig).toOption.get (by decide +kernel)

/-- A page of so many bytes, or the head of one. -/
def pageReply (declared : Nat) (frames : List Frame) : Response where
  status := .ok
  headers := ⟨[("content-type", Str.utf8 "text/html"), ("content-length", lengthValue declared)]⟩
  body := .stream ⟨frames, none⟩

/-- The response phase on a reply in the starting state. -/
def leakReply (resp : Response) : Response :=
  (inspectResponse leakStarted.1.engine leakConfig
    ⟨fun _ => .timeout, id, id, id⟩ resp ⟨.v4 0x7F000001#32, none⟩ false "/"
    ⟨leakStarted.2, ⟨0, 0, 0, 0, 0, 0, 0⟩, [], [], []⟩).1

/-- The page of the example is delivered as it came. -/
theorem page_reply_delivered :
    ReplyTransparent leakConfig.limits.maxInspectBody.toNat "GET"
        (pageReply 2 [.data (Str.utf8 "ok")]) (leakReply (pageReply 2 [.data (Str.utf8 "ok")])) ↔
      ((pageReply 2 [.data (Str.utf8 "ok")]).data.length ≤
          leakConfig.limits.maxInspectBody.toNat →
        LengthAgrees "GET" (pageReply 2 [.data (Str.utf8 "ok")]) ∧
          OnlyChunked (pageReply 2 [.data (Str.utf8 "ok")]).headers) :=
  reply_transparent_iff leakStarted.1.engine leakConfig ⟨fun _ => .timeout, id, id, id⟩ _ _ false
    "GET" "/" ⟨leakStarted.2, ⟨0, 0, 0, 0, 0, 0, 0⟩, [], [], []⟩ (by decide +kernel) rfl
    (fun _ => by decide +kernel)

/-- The reply to a `HEAD` for a page of 42 bytes is buffered and let through, and the client is
told that the page has none. -/
theorem head_reply_not_delivered :
    buffersReply leakStarted.1.engine leakConfig (pageReply 42 []) leakStarted.2 = true ∧
      (leakReply (pageReply 42 [])).status = .ok ∧
      valuesOf (leakReply (pageReply 42 [])).headers "content-length" = [lengthValue 0] ∧
      ¬ ReplyTransparent leakConfig.limits.maxInspectBody.toNat "HEAD" (pageReply 42 [])
        (leakReply (pageReply 42 [])) := by
  have hzero : valuesOf (leakReply (pageReply 42 [])).headers "content-length" =
      [lengthValue 0] := by decide +kernel
  refine ⟨by decide +kernel, by decide +kernel, hzero, ?_⟩
  intro h
  have hkept := (h.fits (by decide +kernel)).contentLength
  rw [hzero] at hkept
  exact absurd hkept (by decide +kernel)

end BuduWaf.Proxy
