import BuduWaf.Lib.Runs
import BuduWaf.Supervisor.Throttling

/-!
# `budu`: requests in flight

`Proxy.handleInner` handles one request from its arrival to its answer, and other tasks act where
it waits. The runtime has many threads, so they also act between any two of its steps.

* **`Flight`**: a request and the point its handling has reached. A move asks the allowlist, runs
  one stage, opens the body gate, sends the request on, takes the reply, or judges it.
* **`Point.size`**: what is left to do of a flight; every move lowers it.
* **`flight_alone`**: a flight that nobody comes in between of ends as `handle` does.

The handler's chain of functions is cut into moves, and each move is written once, for whoever comes
in between. `flight_alone` ties the two descriptions together, part by part and backwards from the
answer (`ends_of_judging`, `ends_of_replied`, up to `ends_of_arrived`), so that what is shown of
interleaved moves is about the same handler as the results in `Proxy`. A stage is one move: it
loads the handles it reads and finishes with them.
-/

namespace BuduWaf.Traffic

open Rules RateLimit Reputation Pipeline Proxy Supervisor

/-! ## One flight -/

section definitions

variable (X : Crates)

/-- Where the handling of a request stands. -/
inductive Point where
  | arrived
  | early (ctx : RequestCtx) (rest : List (Stage (World X)))
  | gate (ctx : RequestCtx)
  | late (ctx : RequestCtx) (body : RespBody) (len : Option Nat) (rest : List (Stage (World X)))
  | admitted (inspected : Bool) (body : RespBody) (len : Option Nat)
  | waiting (inspected : Bool) (call : ForwardCall)
  | replied (resp : Response)
  | judging (resp : Response) (held : Option Bytes)
  | answered (resp : Response)

/-- A request in flight: the configuration it was taken in under, and how far it is. -/
structure Flight where
  /-- The configuration in force at its arrival. -/
  cfg : Config
  /-- Its id. -/
  id : Str
  /-- The request. -/
  req : Request
  /-- Where it came from. -/
  peerIp : IpAddr
  /-- How far its handling is. -/
  point : Point X

/-- What one move leaves: the next point, the shared state, the metrics, and what was seen. -/
structure Moved (Note : Type) where
  /-- How far the flight is now. -/
  point : Point X
  /-- The shared state. -/
  shared : Shared X
  /-- The metrics. -/
  metrics : Metrics
  /-- What can be seen of the move. -/
  notes : List Note

end definitions

/-- What can be seen of a flight, from its allowlist check to its answer. -/
inductive Note where
  | allowlisted (listed : Bool)
  | inspected (stage : Str) (ctx : RequestCtx) (result : StageResult)
  | sent (call : ForwardCall)
  | judged (decision : WafDecision)
  | answered (resp : Response)
deriving DecidableEq

variable {X : Crates}

namespace Flight

/-- The client.
Source: `budu-proxy/src/lib.rs` `Proxy::handle_inner` (`let client`) -/
def client (f : Flight X) : ClientInfo := resolveClient X f.cfg f.req.parts.headers f.peerIp

/-- Whether blocks are only counted.
Source: `budu-proxy/src/lib.rs` `Proxy::handle_inner` (`let detect`) -/
def detect (f : Flight X) : Bool := f.cfg.server.enforcement = .detect

/-- The call of `forward` that a flight makes with a body. -/
def callWith (f : Flight X) (body : RespBody) (len : Option Nat) : ForwardCall :=
  ⟨forwardParts f.cfg f.id f.req.parts, body, len⟩

/-- The response with the id echoed.
Source: `budu-proxy/src/lib.rs` `Proxy::handle` -/
def echo (f : Flight X) (resp : Response) : Response :=
  { resp with headers := setRequestId resp.headers f.cfg.server.requestIdHeader f.id }

/-- Run one stage: go on with the rest of the stack, or act on its decision.
Source: `budu-pipeline/src/lib.rs` `Pipeline::run` (the loop body), `budu-proxy/src/lib.rs`
`Proxy::act_on` -/
def runStage (f : Flight X) (onError : OnError) (stage : Stage (World X)) (ctx : RequestCtx)
    (more done : RequestCtx → Point X) (s : Shared X) (m : Metrics) : Moved X Note :=
  let r := stageStep onError stage ((ctx, s), [])
  let notes := [Note.inspected stage.name ctx (stage.inspect (ctx, s)).1]
  match r.1 with
  | none => ⟨more r.2.1.1, r.2.1.2, m, notes⟩
  | some d =>
    ⟨(actOn d f.detect m).1.elim (done r.2.1.1) .answered, r.2.1.2, (actOn d f.detect m).2, notes⟩

/-- The response phase.
Source: `budu-proxy/src/lib.rs` `Proxy::inspect_response` -/
def judge (f : Flight X) (resp : Response) (held : Option Bytes) (s : Shared X) (m : Metrics) :
    Moved X Note :=
  let r := Pipeline.inspectResponse
    ⟨resp.status, resp.headers, f.client, f.req.parts.uri.path,
      held.elim .notBuffered .buffered⟩ s
  ⟨.answered ((actOn r.1 f.detect m).1.getD (held.elim resp (reemit resp))), r.2,
    (actOn r.1 f.detect m).2, [.judged r.1]⟩

/-- One move of a flight; the upstream is asked where the request waits for it.
Source: `budu-proxy/src/lib.rs` `Proxy::handle_inner`, `Proxy::inspect_response` -/
def move (p : Pipeline X) (upstream : OutRequest → UpstreamResult) (f : Flight X) (s : Shared X)
    (m : Metrics) : Moved X Note :=
  match f.point with
  | .arrived =>
    if isWhitelisted s f.client.ip then
      ⟨.admitted false (.stream f.req.body) none, s, m.request.whitelisted, [.allowlisted true]⟩
    else ⟨.early (newCtx f.req.parts f.client) p.early, s, m.request, [.allowlisted false]⟩
  | .early ctx [] => ⟨.gate ctx, s, m, []⟩
  | .early ctx (stage :: rest) =>
    f.runStage p.onError stage ctx (fun ctx => .early ctx rest) .gate s m
  | .gate ctx =>
    match bodyGate f.cfg f.req with
    | .tooLarge =>
      ⟨.answered ((actOn bodyTooLarge false m).1.get rfl), s, (actOn bodyTooLarge false m).2, []⟩
    | .buffered bytes =>
      ⟨.late { ctx with body := .buffered bytes } (.full bytes) (some bytes.length) p.late, s, m,
        []⟩
    | .streamed => ⟨.late ctx (.stream f.req.body) none p.late, s, m, []⟩
  | .late _ body len [] => ⟨.admitted true body len, s, m, []⟩
  | .late ctx body len (stage :: rest) =>
    f.runStage p.onError stage ctx (fun ctx => .late ctx body len rest)
      (fun _ => .admitted true body len) s m
  | .admitted inspected body len =>
    ⟨.waiting inspected (f.callWith body len), s, m.record .allow, [.sent (f.callWith body len)]⟩
  | .waiting inspected call =>
    match forwardResult X f.cfg (quietEnv (X := X) upstream) call with
    | .error e => ⟨.answered e.response, s, m.upstreamError, []⟩
    | .ok resp => ⟨if inspected then .replied resp else .answered resp, s, m, []⟩
  | .replied resp =>
    if buffersReply p.engine f.cfg resp s then
      match bufferFrames f.cfg.limits.maxInspectBody.toNat resp.body.toStream.failure []
          resp.body.toStream.frames with
      | .tooLarge =>
        ⟨.answered (errorResponse .badGateway "response too large to inspect"), s,
          m.upstreamError, []⟩
      | .readError =>
        ⟨.answered (errorResponse .badGateway "upstream read error"), s, m.upstreamError, []⟩
      | .done bytes => ⟨.judging resp (some bytes), s, m, []⟩
    else ⟨.judging resp none, s, m, []⟩
  | .judging resp held => f.judge resp held s m
  | .answered resp => ⟨.answered resp, s, m, []⟩

end Flight

/-- The answer of a flight that has come to its end. -/
def Point.answer? : Point X → Option Response
  | .answered resp => some resp
  | _ => none

/-- What can be seen of a move, with the answer where the move ends the flight. -/
def Flight.seen (f : Flight X) (r : Moved X Note) : List Note :=
  if f.point.answer?.isSome then []
  else r.notes ++ (r.point.answer?.map fun resp => .answered (f.echo resp)).toList

/-- A request just taken in.
Source: `budu-proxy/src/lib.rs` `Proxy::handle` -/
def Flight.start (cfg : Config) (generated : Str) (req : Request) (peerIp : IpAddr) :
    Flight X where
  cfg := cfg
  id := resolveId req.parts.headers cfg.server.requestIdHeader generated
  req := req
  peerIp := peerIp
  point := .arrived

/-! ## One stage -/

/-- Asking a stage leaves what the stage leaves. -/
theorem stageStep_ctx {ω : Type} (onError : OnError) (stage : Stage ω) (w : ω) (log : List Str) :
    (stageStep onError stage (w, log)).2.1 = (stage.inspect w).2 := by
  unfold stageStep
  rcases stage.inspect w with ⟨_ | _ | _, _⟩
  · rfl
  · rfl
  · cases onError <;> rfl

/-- What a stage decides is in its result: stages with the same one decide alike. -/
theorem stageStep_congr {ω : Type} {onError : OnError} {stage : Stage ω} {w w' : ω}
    (h : (stage.inspect w).1 = (stage.inspect w').1) (log log' : List Str) :
    (stageStep onError stage (w, log)).1 = (stageStep onError stage (w', log')).1 := by
  unfold stageStep
  rcases hw : stage.inspect w with ⟨result, _⟩
  rcases hw' : stage.inspect w' with ⟨result', _⟩
  rw [hw, hw'] at h
  obtain rfl : result = result' := h
  cases result with
  | panic => cases onError <;> rfl
  | _ => rfl

/-- The counters do not decide anything. -/
theorem actOn_congr (d : WafDecision) (detect : Bool) (m m' : Metrics) :
    (actOn d detect m).1 = (actOn d detect m').1 := by
  cases d with
  | block => cases detect <;> rfl
  | _ => rfl

section runStage

variable (f : Flight X) (onError : OnError) (stage : Stage (World X)) (ctx : RequestCtx)
  (more done : RequestCtx → Point X) (s : Shared X) (m : Metrics)

/-- A stage that decides ends the request or its phase, as `act_on` says, and another one goes on.
-/
theorem Flight.runStage_point :
    (f.runStage onError stage ctx more done s m).point =
      (stageStep onError stage ((ctx, s), [])).1.elim (more (stage.inspect (ctx, s)).2.1) fun d =>
        (actOn d f.detect m).1.elim (done (stage.inspect (ctx, s)).2.1) .answered := by
  rw [← stageStep_ctx onError stage (ctx, s) []]
  unfold Flight.runStage
  rcases stageStep onError stage ((ctx, s), []) with ⟨_ | d, w, log⟩ <;> rfl

/-- A stage leaves the shared state that its inspection leaves. -/
theorem Flight.runStage_shared :
    (f.runStage onError stage ctx more done s m).shared = (stage.inspect (ctx, s)).2.2 := by
  rw [← stageStep_ctx onError stage (ctx, s) []]
  unfold Flight.runStage
  rcases stageStep onError stage ((ctx, s), []) with ⟨_ | d, w, log⟩ <;> rfl

/-- A stage is noted with what it was asked and what it said. -/
theorem Flight.runStage_notes :
    (f.runStage onError stage ctx more done s m).notes =
      [.inspected stage.name ctx (stage.inspect (ctx, s)).1] := by
  unfold Flight.runStage
  rcases stageStep onError stage ((ctx, s), []) with ⟨_ | d, w, log⟩ <;> rfl

end runStage

/-! ## Whose request it is -/

/-- The context of a flight is about such an address, and the stages to come are those of the
pipeline. -/
def Point.About (p : Pipeline X) (P : IpAddr → Prop) : Point X → Prop
  | .early ctx rest => P ctx.client.ip ∧ ∀ stage ∈ rest, stage ∈ p.early
  | .gate ctx => P ctx.client.ip
  | .late ctx _ _ rest => P ctx.client.ip ∧ ∀ stage ∈ rest, stage ∈ p.late
  | _ => True

/-- A stage that keeps what is said of the address. -/
theorem Flight.about_runStage {p : Pipeline X} {P : IpAddr → Prop} {f : Flight X}
    {stage : Stage (World X)} {ctx : RequestCtx} {more done : RequestCtx → Point X}
    {s : Shared X} {m : Metrics}
    (hstage : ∀ w, P w.1.client.ip → P (stage.inspect w).2.1.client.ip) (hctx : P ctx.client.ip)
    (hmore : ∀ ctx, P ctx.client.ip → (more ctx).About p P)
    (hdone : ∀ ctx, P ctx.client.ip → (done ctx).About p P) :
    (f.runStage p.onError stage ctx more done s m).point.About p P := by
  have hip := hstage (ctx, s) hctx
  rw [runStage_point]
  rcases (stageStep p.onError stage ((ctx, s), [])).1 with _ | d
  · exact hmore _ hip
  · rw [Option.elim_some]
    rcases (actOn d f.detect m).1 with _ | resp
    · exact hdone _ hip
    · trivial

/-- What is said of the address stays so, if the stages keep it. -/
theorem Flight.about_move {p : Pipeline X} {P : IpAddr → Prop} {f : Flight X}
    {upstream : OutRequest → UpstreamResult} {s : Shared X} {m : Metrics}
    (hstages : ∀ stage ∈ p.early ++ p.late, ∀ w, P w.1.client.ip →
      P (stage.inspect w).2.1.client.ip)
    (hip : P f.client.ip) (h : f.point.About p P) : (f.move p upstream s m).point.About p P := by
  cases hpoint : f.point with
  | arrived =>
      cases hlisted : isWhitelisted s f.client.ip with
      | true =>
          simp only [move, hpoint, hlisted, if_true]
          trivial
      | false =>
          simp only [move, hpoint, hlisted, Bool.false_eq_true, if_false]
          exact ⟨hip, fun _ hstage => hstage⟩
  | early ctx rest =>
      rw [hpoint] at h
      obtain ⟨hctx, hrest⟩ := h
      cases rest with
      | nil =>
          simp only [move, hpoint]
          exact hctx
      | cons stage rest =>
          obtain ⟨hstage, hrest⟩ := List.forall_mem_cons.1 hrest
          simp only [move, hpoint]
          exact about_runStage (hstages stage (List.mem_append_left _ hstage)) hctx
            (fun _ hctx => ⟨hctx, hrest⟩) fun _ hctx => hctx
  | gate ctx =>
      rw [hpoint] at h
      have hctx : P ctx.client.ip := h
      simp only [move, hpoint]
      cases bodyGate f.cfg f.req with
      | tooLarge => trivial
      | buffered bytes => exact ⟨hctx, fun _ hstage => hstage⟩
      | streamed => exact ⟨hctx, fun _ hstage => hstage⟩
  | late ctx body len rest =>
      rw [hpoint] at h
      obtain ⟨hctx, hrest⟩ := h
      cases rest with
      | nil =>
          simp only [move, hpoint]
          trivial
      | cons stage rest =>
          obtain ⟨hstage, hrest⟩ := List.forall_mem_cons.1 hrest
          simp only [move, hpoint]
          exact about_runStage (hstages stage (List.mem_append_right _ hstage)) hctx
            (fun _ hctx => ⟨hctx, hrest⟩) fun _ _ => trivial
  | admitted inspected body len =>
      simp only [move, hpoint]
      trivial
  | waiting inspected call =>
      simp only [move, hpoint]
      cases forwardResult X f.cfg (quietEnv (X := X) upstream) call with
      | error e => trivial
      | ok resp => cases inspected <;> trivial
  | replied resp =>
      simp only [move, hpoint]
      cases buffersReply p.engine f.cfg resp s with
      | false => trivial
      | true =>
          simp only [if_true]
          cases bufferFrames f.cfg.limits.maxInspectBody.toNat resp.body.toStream.failure []
              resp.body.toStream.frames <;> trivial
  | judging resp held =>
      simp only [move, hpoint]
      trivial
  | answered resp =>
      simp only [move, hpoint]
      trivial

/-! ## What is left to do -/

/-- How many moves a flight still makes at most. -/
def Point.size (p : Pipeline X) : Point X → Nat
  | .arrived => p.early.length + p.late.length + 8
  | .early _ rest => rest.length + p.late.length + 7
  | .gate _ => p.late.length + 6
  | .late _ _ _ rest => rest.length + 5
  | .admitted _ _ _ => 4
  | .waiting _ _ => 3
  | .replied _ => 2
  | .judging _ _ => 1
  | .answered _ => 0

/-- A flight has no moves left iff it is answered. -/
theorem Point.size_eq_zero_iff {p : Pipeline X} {point : Point X} :
    point.size p = 0 ↔ point.answer?.isSome = true := by
  cases point <;> simp [Point.size, Point.answer?]

namespace Flight

variable {p : Pipeline X} {upstream : OutRequest → UpstreamResult} {f : Flight X} {s : Shared X}
  {m : Metrics}

/-- A stage is passed, or ends the phase, or ends the flight. -/
theorem size_runStage (stage : Stage (World X)) (ctx : RequestCtx)
    {more done : RequestCtx → Point X} {n : Nat} (hmore : ∀ ctx, (more ctx).size p < n)
    (hdone : ∀ ctx, (done ctx).size p < n) :
    ((f.runStage p.onError stage ctx more done s m).point).size p < n := by
  have hpos : 0 < n := Nat.lt_of_le_of_lt (Nat.zero_le _) (hmore ctx)
  rw [runStage_point]
  rcases (stageStep p.onError stage ((ctx, s), [])).1 with _ | d
  · exact hmore _
  · rw [Option.elim_some]
    rcases (actOn d f.detect m).1 with _ | resp
    · exact hdone _
    · exact hpos

/-- **Every move gets further**, until the request is answered. -/
theorem size_move (h : f.point.answer? = none) :
    (f.move p upstream s m).point.size p < f.point.size p := by
  unfold move
  split
  · split <;> simp [Point.size, *]
  · simp [Point.size, *]
  · rename_i ctx stage rest hpoint
    rw [hpoint]
    apply size_runStage
    · intro ctx; simp [Point.size]
    · intro ctx; simp only [Point.size]; omega
  · split <;> simp [Point.size, *]
  · simp [Point.size, *]
  · rename_i ctx body len stage rest hpoint
    rw [hpoint]
    apply size_runStage
    · intro ctx; simp [Point.size]
    · intro ctx; simp [Point.size]
  · simp [Point.size, *]
  · rename_i inspected call hpoint
    split
    · simp [Point.size, *]
    · cases inspected <;> simp [Point.size, *]
  · split
    · split <;> simp [Point.size, *]
    · simp [Point.size, *]
  · simp [judge, Point.size, *]
  · rename_i resp hpoint
    rw [hpoint] at h
    cases h

/-- A flight that is answered does not move. -/
theorem move_of_answer {resp : Response} (h : f.point.answer? = some resp) :
    f.move p upstream s m = ⟨f.point, s, m, []⟩ := by
  cases hpoint : f.point <;> rw [hpoint] at h <;> try cases h
  simp only [move, hpoint]

end Flight

/-! ## A flight alone -/

/-- A stack whose first stage lets the request pass. -/
theorem outcome_cons_of_none {ω : Type} {onError : OnError} {stage : Stage ω} {w w' : ω}
    {log : List Str} (stages : List (Stage ω))
    (h : stageStep onError stage (w, []) = (none, w', log)) :
    outcome onError (stage :: stages) w = outcome onError stages w' := by
  obtain ⟨hdecision, hctx⟩ := scan_log onError stages w' log []
  unfold outcome runStages
  rw [scan_cons_of_none _ h]
  rcases h1 : scan (stageStep onError) stages (w', log) with ⟨_ | _, _, _⟩ <;>
    rcases h2 : scan (stageStep onError) stages (w', []) with ⟨_ | _, _, _⟩ <;>
      simp_all

/-- The outcome of a stack is what its first stage decides, if that decides. -/
theorem outcome_cons_of_some {ω : Type} {onError : OnError} {stage : Stage ω} {w w' : ω}
    {log : List Str} {d : WafDecision} (stages : List (Stage ω))
    (h : stageStep onError stage (w, []) = (some d, w', log)) :
    outcome onError (stage :: stages) w = (d, w') := by
  unfold outcome runStages
  rw [scan_cons_of_some _ h]

variable (X) in
/-- A flight that moves on its own, with what it reads and writes, and what was seen of it. -/
structure Solo where
  /-- The flight. -/
  flight : Flight X
  /-- The shared state. -/
  shared : Shared X
  /-- The metrics. -/
  metrics : Metrics
  /-- What was seen. -/
  notes : List Note

/-- The calls of `forward` among what was seen. -/
def sentCalls (notes : List Note) : List ForwardCall :=
  notes.filterMap fun note => match note with
    | .sent call => some call
    | _ => none

namespace Solo

variable (p : Pipeline X) (upstream : OutRequest → UpstreamResult)

/-- The flight makes its next move, and nobody comes in between. -/
def next (a : Solo X) : Solo X :=
  let r := a.flight.move p upstream a.shared a.metrics
  ⟨{ a.flight with point := r.point }, r.shared, r.metrics, a.notes ++ r.notes⟩

/-- It gets from one configuration to another by moving alone. -/
def Leads (a b : Solo X) : Prop := ∃ n, (next p upstream)^[n] a = b

/-- It holds what the handler's state holds. -/
structure Mirrors (s : ProxyState (Shared X)) (a : Solo X) : Prop where
  /-- The shared state. -/
  shared : a.shared = s.shared
  /-- The metrics. -/
  metrics : a.metrics = s.metrics
  /-- The calls of `forward`. -/
  forwards : sentCalls a.notes = s.forwards

/-- Moving alone, it ends with a response, and with the handler's state. -/
def Ends (a : Solo X) (r : Response × ProxyState (Shared X)) : Prop :=
  ∃ b, Leads p upstream a b ∧ b.flight = { a.flight with point := .answered r.1 } ∧ Mirrors r.2 b

variable {p upstream} {a b : Solo X} {r : Response × ProxyState (Shared X)}

/-- A flight leads to itself by no move. -/
theorem Leads.refl (a : Solo X) : Leads p upstream a a := ⟨0, rfl⟩

/-- What the next move leads to, the flight leads to. -/
theorem Leads.head (h : Leads p upstream (a.next p upstream) b) : Leads p upstream a b := by
  obtain ⟨n, hn⟩ := h
  exact ⟨n + 1, hn⟩

/-- A flight that ends after its next move ends. -/
theorem Ends.head (h : Ends p upstream (a.next p upstream) r) : Ends p upstream a r := by
  obtain ⟨b, hleads, hflight, hmirrors⟩ := h
  exact ⟨b, hleads.head, hflight, hmirrors⟩

/-- A flight ends if it does so from the outcome of its next move. -/
theorem Ends.of_move (moved : Moved X Note)
    (hmove : a.flight.move p upstream a.shared a.metrics = moved)
    (h : Ends p upstream ⟨{ a.flight with point := moved.point }, moved.shared, moved.metrics,
      a.notes ++ moved.notes⟩ r) : Ends p upstream a r := by
  apply Ends.head
  unfold next
  rw [hmove]
  exact h

/-- A flight that is answered has ended with that answer. -/
theorem Ends.of_answered {resp : Response} (hpoint : a.flight.point = .answered resp)
    {s : ProxyState (Shared X)} (h : Mirrors s a) : Ends p upstream a (resp, s) := by
  refine ⟨a, .refl a, ?_, h⟩
  rw [← hpoint]

/-- The calls in two logs in a row are those of the first, then those of the second. -/
theorem sentCalls_append (xs ys : List Note) :
    sentCalls (xs ++ ys) = sentCalls xs ++ sentCalls ys := List.filterMap_append

/-- A flight that moves on its own, at a point of its way. -/
def at_ (f : Flight X) (point : Point X) (s : Shared X) (m : Metrics) (notes : List Note) :
    Solo X :=
  ⟨{ f with point := point }, s, m, notes⟩

section stages

variable (f : Flight X) (more : RequestCtx → List (Stage (World X)) → Point X)
  (done : RequestCtx → Point X)

/-- **A stack of stages**, stage by stage, is a pass over the stack. -/
theorem ends_of_stages
    (hend : ∀ ctx s m, ({ f with point := more ctx [] } : Flight X).move p upstream s m =
      ⟨done ctx, s, m, []⟩)
    (hstage : ∀ stage rest ctx s m,
      ({ f with point := more ctx (stage :: rest) } : Flight X).move p upstream s m =
        f.runStage p.onError stage ctx (fun ctx => more ctx rest) done s m)
    (stages : List (Stage (World X))) (ctx : RequestCtx) (s : Shared X) (m : Metrics)
    (notes : List Note)
    (h : ∀ notes', sentCalls notes' = sentCalls notes →
      let o := outcome p.onError stages (ctx, s)
      Ends p upstream (at_ f ((actOn o.1 f.detect m).1.elim (done o.2.1) .answered) o.2.2
        (actOn o.1 f.detect m).2 notes') r) :
    Ends p upstream (at_ f (more ctx stages) s m notes) r := by
  induction stages generalizing ctx s notes with
  | nil => exact .of_move _ (hend ctx s m) (h (notes ++ []) (by rw [List.append_nil]))
  | cons stage rest ih =>
      refine .of_move _ (hstage stage rest ctx s m) ?_
      have hsent : ∀ result, sentCalls (notes ++ [.inspected stage.name ctx result]) =
          sentCalls notes := by
        intro result
        simp [sentCalls]
      unfold Flight.runStage
      rcases hstep : stageStep p.onError stage ((ctx, s), []) with ⟨_ | d, ⟨ctx', s'⟩, log⟩
      · rw [outcome_cons_of_none rest hstep] at h
        apply ih
        intro notes' hnotes
        exact h notes' (hnotes.trans (hsent _))
      · rw [outcome_cons_of_some rest hstep] at h
        exact h _ (hsent _)

end stages

variable (f : Flight X) {s : Shared X} {m : Metrics} {notes : List Note}

/-- From the judgement of a reply on, a flight ends as the handler does. -/
theorem ends_of_judging (resp : Response) (held : Option Bytes) {st : ProxyState (Shared X)}
    (h : Mirrors st (at_ f (.judging resp held) s m notes)) :
    let r := judgeResponse p.engine ⟨resp.status, resp.headers, f.client, f.req.parts.uri.path,
      held.elim .notBuffered .buffered⟩ f.detect st
    Ends p upstream (at_ f (.judging resp held) s m notes)
      (r.1.getD (held.elim resp (reemit resp)), r.2) := by
  obtain ⟨hshared, hmetrics, hforwards⟩ := h
  obtain rfl : s = st.shared := hshared
  obtain rfl : m = st.metrics := hmetrics
  refine .of_move _ rfl (.of_answered rfl ⟨rfl, rfl, ?_⟩)
  exact (sentCalls_append _ _).trans ((List.append_nil _).trans hforwards)

/-- From the reply on, a flight ends as the handler does. -/
theorem ends_of_replied (resp : Response) {st : ProxyState (Shared X)}
    (h : Mirrors st (at_ f (.replied resp) s m notes)) :
    Ends p upstream (at_ f (.replied resp) s m notes)
      (Proxy.inspectResponse p.engine f.cfg (quietEnv upstream) resp f.client f.detect
        f.req.parts.uri.path st) := by
  obtain ⟨hshared, hmetrics, hforwards⟩ := h
  obtain rfl : s = st.shared := hshared
  obtain rfl : m = st.metrics := hmetrics
  have hnotes : sentCalls (notes ++ []) = st.forwards := by rwa [List.append_nil]
  unfold Proxy.inspectResponse
  cases hbuffers : buffersReply p.engine f.cfg resp st.shared with
  | false =>
      refine .of_move (⟨.judging resp none, st.shared, st.metrics, []⟩) ?_ ?_
      · simp [at_, Flight.move, hbuffers]
      · exact ends_of_judging f resp none ⟨rfl, rfl, hnotes⟩
  | true =>
      rw [if_pos rfl]
      cases hframes : bufferFrames f.cfg.limits.maxInspectBody.toNat resp.body.toStream.failure []
          resp.body.toStream.frames with
      | tooLarge =>
          refine .of_move (⟨.answered (errorResponse .badGateway
            "response too large to inspect"), st.shared, st.metrics.upstreamError, []⟩) ?_ ?_
          · simp [at_, Flight.move, hbuffers, hframes]
          · exact .of_answered rfl ⟨rfl, rfl, hnotes⟩
      | readError =>
          refine .of_move (⟨.answered (errorResponse .badGateway
            "upstream read error"), st.shared, st.metrics.upstreamError, []⟩) ?_ ?_
          · simp [at_, Flight.move, hbuffers, hframes]
          · exact .of_answered rfl ⟨rfl, rfl, hnotes⟩
      | done bytes =>
          refine .of_move (⟨.judging resp (some bytes), st.shared, st.metrics, []⟩) ?_ ?_
          · simp [at_, Flight.move, hbuffers, hframes]
          · exact ends_of_judging f resp (some bytes) ⟨rfl, rfl, hnotes⟩

/-- The call of `forward`, and the failures of it. -/
theorem ends_of_call (inspected : Bool) (body : RespBody) (len : Option Nat)
    {st : ProxyState (Shared X)} (after : Response → ProxyState (Shared X) →
      Response × ProxyState (Shared X))
    (h : Mirrors st (at_ f (.admitted inspected body len) s m notes))
    (hafter : ∀ resp s m notes st, Mirrors st
        (at_ f (if inspected then .replied resp else .answered resp) s m notes) →
      Ends p upstream (at_ f (if inspected then .replied resp else .answered resp) s m notes)
        (after resp st)) :
    let r := forward X f.cfg (quietEnv upstream) (f.callWith body len)
      { st with metrics := st.metrics.record .allow }
    Ends p upstream (at_ f (.admitted inspected body len) s m notes)
      (match r.1 with
        | .ok resp => after resp r.2
        | .error e => onForwardError e r.2) := by
  obtain ⟨hshared, hmetrics, hforwards⟩ := h
  obtain rfl : s = st.shared := hshared
  obtain rfl : m = st.metrics := hmetrics
  have hforwards' : sentCalls notes = st.forwards := hforwards
  have hnotes : sentCalls ((notes ++ [.sent (f.callWith body len)]) ++ []) =
      st.forwards ++ [f.callWith body len] := by
    rw [List.append_nil, sentCalls_append, hforwards']
    rfl
  refine .of_move _ rfl ?_
  show Ends p upstream (at_ f (.waiting inspected (f.callWith body len)) st.shared
    (st.metrics.record .allow) (notes ++ [.sent (f.callWith body len)])) _
  unfold forward
  dsimp only
  cases hresult : forwardResult X f.cfg (quietEnv (X := X) upstream) (f.callWith body len) with
  | error e =>
      refine .of_move (⟨.answered e.response, st.shared,
        (st.metrics.record .allow).upstreamError, []⟩) ?_ (.of_answered rfl ⟨rfl, rfl, hnotes⟩)
      simp [at_, Flight.move, hresult]
  | ok resp =>
      refine .of_move (⟨if inspected then .replied resp else .answered resp, st.shared,
        st.metrics.record .allow, []⟩) ?_ (hafter resp _ _ _ _ ⟨rfl, rfl, hnotes⟩)
      simp [at_, Flight.move, hresult]

/-- From the call of `forward` on, for an inspected request. -/
theorem ends_of_admitted (body : RespBody) (len : Option Nat) {st : ProxyState (Shared X)}
    (h : Mirrors st (at_ f (.admitted true body len) s m notes)) :
    Ends p upstream (at_ f (.admitted true body len) s m notes)
      (forwardAndInspect X p.engine f.cfg (quietEnv upstream) f.id f.req f.client body len st) :=
  ends_of_call f true body len _ h fun resp _ _ _ _ hst => ends_of_replied f resp hst

/-- From the late stages on, a flight ends as the handler does. -/
theorem ends_of_late (ctx : RequestCtx) (body : RespBody) (len : Option Nat)
    {st : ProxyState (Shared X)} (h : Mirrors st (at_ f (.late ctx body len p.late) s m notes)) :
    Ends p upstream (at_ f (.late ctx body len p.late) s m notes)
      (lateAndForward X p.engine f.cfg (quietEnv upstream) f.id f.req f.client ctx body len
        st) := by
  obtain ⟨hshared, hmetrics, hforwards⟩ := h
  obtain rfl : s = st.shared := hshared
  obtain rfl : m = st.metrics := hmetrics
  refine ends_of_stages f (fun ctx rest => .late ctx body len rest)
    (fun _ => .admitted true body len) (fun _ _ _ => rfl) (fun _ _ _ _ _ => rfl)
    p.late ctx st.shared st.metrics notes ?_
  intro notes' hnotes
  dsimp only
  unfold lateAndForward
  have hphase : (runPhase p.engine.evaluateLate (decide (f.cfg.server.enforcement = .detect)) ctx
      st).1 = (actOn (outcome p.onError p.late (ctx, st.shared)).1 f.detect st.metrics).1 := rfl
  dsimp only
  rw [hphase]
  rcases (actOn (outcome p.onError p.late (ctx, st.shared)).1 f.detect st.metrics).1 with _ | resp
  · exact ends_of_admitted f body len ⟨rfl, rfl, hnotes.trans hforwards⟩
  · exact .of_answered rfl ⟨rfl, rfl, hnotes.trans hforwards⟩

/-- From the body gate on, a flight ends as the handler does. -/
theorem ends_of_gate (ctx : RequestCtx) {st : ProxyState (Shared X)}
    (h : Mirrors st (at_ f (.gate ctx) s m notes)) :
    Ends p upstream (at_ f (.gate ctx) s m notes)
      (gateAndForward X p.engine f.cfg (quietEnv upstream) f.id f.req f.client ctx st) := by
  obtain ⟨hshared, hmetrics, hforwards⟩ := h
  obtain rfl : s = st.shared := hshared
  obtain rfl : m = st.metrics := hmetrics
  have hnotes : sentCalls (notes ++ []) = st.forwards := by
    rw [List.append_nil]
    exact hforwards
  unfold gateAndForward
  cases hgate : bodyGate f.cfg f.req with
  | tooLarge =>
      refine .of_move (⟨.answered ((actOn bodyTooLarge false st.metrics).1.get rfl),
        st.shared, (actOn bodyTooLarge false st.metrics).2, []⟩) ?_
        (.of_answered rfl ⟨rfl, rfl, hnotes⟩)
      simp [at_, Flight.move, hgate]
  | buffered bytes =>
      refine .of_move (⟨.late { ctx with body := .buffered bytes } (.full bytes)
        (some bytes.length) p.late, st.shared, st.metrics, []⟩) ?_
        (ends_of_late f _ _ _ ⟨rfl, rfl, hnotes⟩)
      simp [at_, Flight.move, hgate]
  | streamed =>
      refine .of_move (⟨.late ctx (.stream f.req.body) none p.late, st.shared,
        st.metrics, []⟩) ?_ (ends_of_late f _ _ _ ⟨rfl, rfl, hnotes⟩)
      simp [at_, Flight.move, hgate]

/-- From its arrival on, a flight ends as the handler does. -/
theorem ends_of_arrived {st : ProxyState (Shared X)}
    (h : Mirrors st (at_ f .arrived s m notes)) :
    Ends p upstream (at_ f .arrived s m notes)
      (handleInner X p.engine f.cfg (quietEnv upstream) f.id f.req f.peerIp st) := by
  obtain ⟨hshared, hmetrics, hforwards⟩ := h
  obtain rfl : s = st.shared := hshared
  obtain rfl : m = st.metrics := hmetrics
  have hforwards' : sentCalls notes = st.forwards := hforwards
  have hnotes : ∀ listed, sentCalls (notes ++ [.allowlisted listed]) = st.forwards := by
    intro listed
    rw [sentCalls_append, hforwards']
    exact List.append_nil _
  unfold handleInner
  have hclient : resolveClient X f.cfg f.req.parts.headers f.peerIp = f.client := rfl
  have hengine : ∀ t ip, p.engine.isWhitelisted t ip = isWhitelisted t ip := fun _ _ => rfl
  simp only [hclient, hengine]
  cases hlisted : isWhitelisted st.shared f.client.ip with
  | true =>
      refine .of_move (⟨.admitted false (.stream f.req.body) none, st.shared,
        st.metrics.request.whitelisted, [.allowlisted true]⟩) ?_ ?_
      · have : Flight.client { f with point := .arrived } = f.client := rfl
        simp [at_, Flight.move, this, hlisted]
      · have hcall : Mirrors { st with metrics := st.metrics.request.whitelisted }
            (at_ f (.admitted false (.stream f.req.body) none) st.shared
              st.metrics.request.whitelisted (notes ++ [.allowlisted true])) :=
          ⟨rfl, rfl, hnotes true⟩
        exact ends_of_call f false (.stream f.req.body) none (fun resp st => (resp, st)) hcall
          fun resp _ _ _ _ hst => .of_answered rfl hst
  | false =>
      refine .of_move (⟨.early (newCtx f.req.parts f.client) p.early, st.shared,
        st.metrics.request, [.allowlisted false]⟩) ?_ ?_
      · have : Flight.client { f with point := .arrived } = f.client := rfl
        simp [at_, Flight.move, this, hlisted]
      · refine ends_of_stages f (fun ctx rest => .early ctx rest) .gate
          (fun _ _ _ => rfl) (fun _ _ _ _ _ => rfl) p.early _ st.shared st.metrics.request _ ?_
        intro notes' hnotes'
        dsimp only
        simp only [Bool.false_eq_true, if_false]
        unfold inspectAndForward
        have hphase : ∀ st' : ProxyState (Shared X), (runPhase p.engine.evaluateEarly
            (decide (f.cfg.server.enforcement = .detect)) (newCtx f.req.parts f.client) st').1 =
            (actOn (outcome p.onError p.early (newCtx f.req.parts f.client, st'.shared)).1 f.detect
              st'.metrics).1 := fun _ => rfl
        dsimp only
        rw [hphase]
        dsimp only
        rcases (actOn (outcome p.onError p.early (newCtx f.req.parts f.client, st.shared)).1
            f.detect st.metrics.request).1 with _ | resp
        · exact ends_of_gate f _ ⟨rfl, rfl, hnotes'.trans (hnotes false)⟩
        · exact .of_answered rfl ⟨rfl, rfl, hnotes'.trans (hnotes false)⟩

end Solo

/-! ## The handler is one way of moving -/

namespace Solo

variable {p : Pipeline X} {upstream : OutRequest → UpstreamResult}

/-- An answered flight alone does not move. -/
theorem next_of_answered {a : Solo X} (h : a.flight.point.answer?.isSome = true) :
    a.next p upstream = a := by
  obtain ⟨resp, hresp⟩ := Option.isSome_iff_exists.1 h
  unfold next
  rw [Flight.move_of_answer hresp]
  exact congrArg (Solo.mk a.flight a.shared a.metrics) (List.append_nil a.notes)

/-- As many moves as there are left to make end a flight. -/
theorem iterate_size {a b : Solo X} (h : Leads p upstream a b)
    (hb : b.flight.point.answer?.isSome = true) :
    (next p upstream)^[a.flight.point.size p] a = b := by
  obtain ⟨n, hn⟩ := h
  induction n generalizing a with
  | zero =>
      obtain rfl : a = b := hn
      rw [Point.size_eq_zero_iff.2 hb]
      rfl
  | succ n ih =>
      have hnext : (next p upstream)^[(a.next p upstream).flight.point.size p]
          (a.next p upstream) = b := ih hn
      cases ha : a.flight.point.answer? with
      | some resp =>
          rw [next_of_answered (by rw [ha]; rfl)] at hnext
          exact hnext
      | none =>
          have hsize : (a.next p upstream).flight.point.size p < a.flight.point.size p :=
            Flight.size_move ha
          obtain ⟨k, hk⟩ : ∃ k, a.flight.point.size p =
              k + (a.next p upstream).flight.point.size p + 1 :=
            ⟨a.flight.point.size p - (a.next p upstream).flight.point.size p - 1, by omega⟩
          rw [hk, Function.iterate_succ_apply, Function.iterate_add_apply, hnext]
          exact Function.iterate_fixed (next_of_answered hb) k

end Solo

/-- **A flight alone ends as the handler does**: with its response and its shared state, its
metrics and its call of `forward`, after at most so many moves as there are stages and eight
more. -/
theorem flight_alone (p : Pipeline X) (upstream : OutRequest → UpstreamResult) (cfg : Config)
    (generated : Str) (req : Request) (peerIp : IpAddr) (st : ProxyState (Shared X))
    (hnew : st.forwards = []) :
    let f := Flight.start cfg generated req peerIp
    let a := (Solo.next p upstream)^[p.early.length + p.late.length + 8]
      ⟨f, st.shared, st.metrics, []⟩
    let r := handle X p.engine cfg (quietEnv upstream) generated req peerIp st
    (a.flight.point.answer?.map f.echo = some r.1) ∧ a.shared = r.2.shared ∧
      a.metrics = r.2.metrics ∧ sentCalls a.notes = r.2.forwards := by
  intro f a r
  have hmirrors : Solo.Mirrors st (Solo.at_ f .arrived st.shared st.metrics []) :=
    ⟨rfl, rfl, hnew.symm⟩
  have hends : Solo.Ends p upstream _ _ := Solo.ends_of_arrived f hmirrors
  obtain ⟨b, hleads, hflight, hb⟩ := hends
  have hanswered : b.flight.point.answer?.isSome = true := by rw [hflight]; rfl
  have hab : a = b := Solo.iterate_size hleads hanswered
  rw [hab]
  refine ⟨?_, hb.shared, hb.metrics, hb.forwards⟩
  rw [hflight]
  rfl

/-- A login: a `POST` without headers and body. -/
def loginRequest : Request := ⟨⟨"POST", ⟨none, none, "/login", none⟩, ⟨[]⟩⟩, ⟨[], none⟩⟩

/-- An upstream that answers every request with an empty reply. -/
def loginUpstream : OutRequest → UpstreamResult := fun _ => .reply ⟨.ok, .empty, .full []⟩

/-- What the handler finds before the login: the state the process started with, and no metrics. -/
def loginState : ProxyState (Shared Supervisor.loginBuild) :=
  ⟨loginProcess.shared, noMetrics, [], [], []⟩

/-- Alone, the login ends as the handler has it. -/
theorem flight_alone_login :
    let f := Flight.start (X := Supervisor.loginBuild) loginProcess.config "id-1" loginRequest
      (.v4 0xC0000207#32)
    let a := (Solo.next loginProcess.pipeline loginUpstream)^[loginProcess.pipeline.early.length +
      loginProcess.pipeline.late.length + 8] ⟨f, loginState.shared, loginState.metrics, []⟩
    let r := handle Supervisor.loginBuild loginProcess.pipeline.engine loginProcess.config
      (quietEnv loginUpstream) "id-1" loginRequest (.v4 0xC0000207#32) loginState
    (a.flight.point.answer?.map f.echo = some r.1) ∧ a.shared = r.2.shared ∧
      a.metrics = r.2.metrics ∧ sentCalls a.notes = r.2.forwards :=
  flight_alone loginProcess.pipeline loginUpstream loginProcess.config "id-1" loginRequest
    (.v4 0xC0000207#32) loginState rfl

end BuduWaf.Traffic
