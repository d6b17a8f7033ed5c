import BuduWaf.Proxy.Admin
import BuduWaf.Traffic.Accounts
import BuduWaf.Traffic.Handles

/-!
# `budu`: the trail of a request

Beside its answer, the handler leaves a trail: an audit record for each decision other than to let
through, a warning for each failure towards the upstream, and notices that decide nothing, of `log`
rules that matched, of a peer that is not trusted, of a stage that panicked. It counts what it
writes. Lines below the level of a warning are left out.

* **`Flight.lines`**: the lines a move writes; **`Service.logged`** writes them in a run.
* **`run_booked`**: the counters are the counts of what was seen and written (`booked`), and
  `run_logHits`: so is the tally of `log` rules.
* **`scraped_counts`**: these are what the admin endpoint answers in a run, each as of the moment
  it is read.
* **`refusals_audited`**: every answer is accounted for (`Ends`). A refusal has one audit record, a
  failure of the upstream one warning, the last line of the request; all other lines are notices,
  or of blocks that detect mode let through.

A move has a list of lines beside its notes, and both are appended to the history of the run. The
counters are a fold over these histories, shown step by step (`step_booked`): each counter is bumped
in the same move that writes the note or the line it counts. The trail of one flight is an invariant
like its account (`Trail`), with the end of the flight as one of its cases, from which the theorem
is read.

Scope: a move writes its lines at once. Between the bump of a counter and the line about it another
task may act in the program; neither reads the other's.
-/

namespace BuduWaf.Traffic

open Rules RateLimit Reputation Pipeline Proxy Supervisor

variable {X : Crates}

/-! ## Lines -/

/-- An audit record.
Source: `budu-proxy/src/lib.rs` `audit_decision` -/
structure AuditRecord where
  /-- The id of the request. -/
  requestId : Str
  /-- The client. -/
  clientIp : IpAddr
  /-- The method. -/
  method : Str
  /-- The path. -/
  path : Str
  /-- The rule that decided. -/
  ruleId : Str
  /-- The status of the answer. -/
  status : StatusCode
  /-- The reason of a block. -/
  reason : Option Str
  /-- The wait of a rate limit. -/
  retryAfterSecs : Option UInt32
  /-- Whether the client was answered with it. -/
  enforced : Bool
  /-- The message. -/
  message : Str
deriving DecidableEq

/-- A line that is written while a request is handled, as a warning or an error: an audit record, a
warning about the upstream, or a notice. The notices are of a `log` rule that matched the request or
the response, of a peer that is not trusted, and of a stage that panicked.
Source: `budu-proxy/src/lib.rs` `audit_decision`, `Proxy::on_forward_error`,
`Proxy::inspect_response`, `resolve_client`, `budu-rules/src/ruleset.rs` `RuleSet::evaluate_inner`,
`RuleSet::evaluate_response`, `budu-pipeline/src/lib.rs` `Pipeline::run` -/
inductive Line where
  | audit (record : AuditRecord)
  | warning (clientIp : IpAddr) (message : Str)
  | ruleMatched (ruleId : Str)
  | responseRuleMatched (ruleId : Str)
  | untrustedPeer (peerIp : IpAddr)
  | stagePanicked (stage : Str)
deriving DecidableEq

namespace Line

/-- The audit record of an enforced block. -/
def isBlocked : Line → Bool
  | audit record => record.message == ("blocked" : Str)
  | _ => false

/-- The audit record of a block that detect mode let through. -/
def isDetected : Line → Bool
  | audit record => record.message == ("detected" : Str)
  | _ => false

/-- The audit record of a rate limit. -/
def isRateLimited : Line → Bool
  | audit record => record.message == ("rate_limited" : Str)
  | _ => false

/-- A warning about a failure towards the upstream. -/
def isWarning : Line → Bool
  | warning _ _ => true
  | _ => false

/-- A notice of a `log` rule that matched the request or the response. -/
def isLogHit : Line → Bool
  | ruleMatched _ => true
  | responseRuleMatched _ => true
  | _ => false

/-- A line that decides nothing about the request. -/
def isNotice : Line → Bool
  | audit _ => false
  | warning _ _ => false
  | _ => true

/-- None of the counters is about a notice. -/
theorem uncounted {line : Line} (h : line.isNotice = true) : line.isBlocked = false ∧
    line.isRateLimited = false ∧ line.isWarning = false ∧ line.isDetected = false := by
  cases line with
  | audit record => cases h
  | warning clientIp message => cases h
  | _ => exact ⟨rfl, rfl, rfl, rfl⟩

end Line

namespace Flight

/-- The audit record of a decision.
Source: `budu-proxy/src/lib.rs` `audit_decision` -/
def auditDecision (f : Flight X) (decision : WafDecision) (enforced : Bool) : List Line :=
  match decision with
  | .block ruleId status reason =>
    [.audit ⟨f.id, f.client.ip, f.req.parts.method, f.req.parts.uri.path, ruleId, status,
      some reason, none, enforced, if enforced then "blocked" else "detected"⟩]
  | .rateLimited retryAfterSecs =>
    [.audit ⟨f.id, f.client.ip, f.req.parts.method, f.req.parts.uri.path, "ratelimit",
      .tooManyRequests, none, some retryAfterSecs, enforced, "rate_limited"⟩]
  | .allow => []

/-- The line of acting on a decision.
Source: `budu-proxy/src/lib.rs` `Proxy::act_on` -/
def actLines (f : Flight X) (decision : WafDecision) (detect : Bool) : List Line :=
  match decision with
  | .allow => []
  | .block _ _ _ => f.auditDecision decision (!detect)
  | .rateLimited _ => f.auditDecision decision true

/-- The line about a failed call.
Source: `budu-proxy/src/lib.rs` `Proxy::on_forward_error` -/
def failureLine (f : Flight X) : ForwardError → Line
  | .timeout => .warning f.client.ip "upstream timed out"
  | .upstream _ => .warning f.client.ip "upstream forward failed"

/-- The line about a peer that is not trusted.
Source: `budu-proxy/src/lib.rs` `resolve_client` -/
def peerLines (f : Flight X) : List Line :=
  if f.cfg.server.trustedPeer.contains f.peerIp then [] else [.untrustedPeer f.peerIp]

/-- The lines a stage writes itself. A stage is known by its name, which in the standard stacks only
the rules have.
Source: `budu-rules/src/stage.rs` `RulesStage::inspect` -/
def ruleLines (stage : Stage (World X)) (ctx : RequestCtx) (s : Shared X) : List Line :=
  if stage.name = ("rules" : Str) then
    (s.rules.loggedRequest true s.now ctx s.toRuleState).map .ruleMatched
  else []

/-- The notices of running a stage: of its own, and of its panic.
Source: `budu-pipeline/src/lib.rs` `Pipeline::run` -/
def stageNotices (onError : OnError) (stage : Stage (World X)) (ctx : RequestCtx) (s : Shared X) :
    List Line :=
  ruleLines stage ctx s ++ (stageStep onError stage ((ctx, s), [])).2.2.map .stagePanicked

/-- The lines of running a stage, and of acting on its decision. -/
def stageLines (f : Flight X) (onError : OnError) (stage : Stage (World X)) (ctx : RequestCtx)
    (s : Shared X) : List Line :=
  stageNotices onError stage ctx s ++
    (stageStep onError stage ((ctx, s), [])).1.elim [] (f.actLines · f.detect)

/-- What the response phase looks at: the head of the reply, the request it is for, and its body if
that is held back. -/
def replyCtx (f : Flight X) (resp : Response) (held : Option Bytes) : ResponseCtx :=
  ⟨resp.status, resp.headers, f.client, f.req.parts.uri.path, held.elim .notBuffered .buffered⟩

/-- The notices of the response phase.
Source: `budu-rules/src/stage.rs` `RulesStage::inspect_response` -/
def replyNotices (f : Flight X) (resp : Response) (held : Option Bytes) (s : Shared X) :
    List Line :=
  (s.rules.loggedResponse s.now (f.replyCtx resp held) s.toRuleState).map .responseRuleMatched

/-- The line about a reply that is held back.
Source: `budu-proxy/src/lib.rs` `Proxy::inspect_response` -/
def bufferLines (f : Flight X) : BufferResult → List Line
  | .tooLarge => [.warning f.client.ip "response body exceeds inspection limit"]
  | .readError => [.warning f.client.ip "reading upstream response body failed"]
  | .done _ => []

/-- What a move writes.
Source: `budu-proxy/src/lib.rs` `Proxy::handle_inner`, `Proxy::inspect_response` -/
def lines (p : Pipeline X) (upstream : OutRequest → UpstreamResult) (f : Flight X)
    (s : Shared X) : List Line :=
  match f.point with
  | .arrived => f.peerLines
  | .early ctx (stage :: _) => f.stageLines p.onError stage ctx s
  | .gate _ =>
    match bodyGate f.cfg f.req with
    | .tooLarge => f.actLines bodyTooLarge false
    | _ => []
  | .late ctx _ _ (stage :: _) => f.stageLines p.onError stage ctx s
  | .waiting _ call =>
    match forwardResult X f.cfg (quietEnv (X := X) upstream) call with
    | .error e => [f.failureLine e]
    | .ok _ => []
  | .replied resp =>
    if buffersReply p.engine f.cfg resp s then
      f.bufferLines (bufferFrames f.cfg.limits.maxInspectBody.toNat resp.body.toStream.failure []
        resp.body.toStream.frames)
    else []
  | .judging resp held =>
    f.replyNotices resp held s ++
      f.actLines (Pipeline.inspectResponse (f.replyCtx resp held) s).1 f.detect
  | _ => []

end Flight

namespace Service

/-- What a step writes: the lines of the flight that moves, with its number. -/
def lines (t : Service X) : Happening → List (Nat × Line)
  | .move n upstream =>
    match t.flights[n]? with
    | none => []
    | some f => (f.lines t.process.pipeline upstream t.process.shared).map (n, ·)
  | _ => []

/-- A step together with what it writes. -/
def logged (t : Service X) (h : Happening) : Service X × List (Nat × Line) :=
  ((t.step h).1, t.lines h)

end Service

/-! ## The books -/

namespace Note

/-- The note that a request is taken up. -/
def isTaken : Note → Bool
  | .allowlisted _ => true
  | _ => false

/-- The note that a request bypasses inspection. -/
def isBypass : Note → Bool
  | .allowlisted listed => listed
  | _ => false

/-- The note that a request is sent on. -/
def isSent : Note → Bool
  | .sent _ => true
  | _ => false

end Note

/-- The counters, raised by what was seen and written. -/
def booked (m : Metrics) (notes : List Note) (lines : List Line) : Metrics where
  requestsTotal := m.requestsTotal + UInt64.ofNat (notes.countP Note.isTaken)
  allowedTotal := m.allowedTotal + UInt64.ofNat (notes.countP Note.isSent)
  blockedTotal := m.blockedTotal + UInt64.ofNat (lines.countP Line.isBlocked)
  ratelimitedTotal := m.ratelimitedTotal + UInt64.ofNat (lines.countP Line.isRateLimited)
  upstreamErrorsTotal := m.upstreamErrorsTotal + UInt64.ofNat (lines.countP Line.isWarning)
  wouldBlockTotal := m.wouldBlockTotal + UInt64.ofNat (lines.countP Line.isDetected)
  whitelistedTotal := m.whitelistedTotal + UInt64.ofNat (notes.countP Note.isBypass)

/-- Where nothing was seen and written the counters stay as they are. -/
@[simp] theorem booked_nil (m : Metrics) : booked m [] [] = m := by
  simp [booked]

/-- Booking first one part of what was seen and written and then the other is booking both. -/
theorem booked_append (m : Metrics) (notes notes' : List Note) (lines lines' : List Line) :
    booked (booked m notes lines) notes' lines' =
      booked m (notes ++ notes') (lines ++ lines') := by
  simp only [booked, List.countP_append, UInt64.ofNat_add, UInt64.add_assoc]

/-- Notices count nothing, so the counters are those of the other lines. -/
theorem booked_notices (m : Metrics) (notes : List Note) {notices : List Line}
    (h : ∀ line ∈ notices, line.isNotice = true) (lines : List Line) :
    booked m notes (notices ++ lines) = booked m notes lines := by
  have hcount : ∀ count : Line → Bool, (∀ line : Line, line.isNotice = true →
      count line = false) → (notices ++ lines).countP count = lines.countP count := by
    intro count hnotice
    rw [List.countP_append, Nat.add_eq_right, List.countP_eq_zero]
    intro line hline
    rw [hnotice line (h line hline)]
    exact Bool.false_ne_true
  unfold booked
  rw [hcount _ fun _ h => (Line.uncounted h).1, hcount _ fun _ h => (Line.uncounted h).2.1,
    hcount _ fun _ h => (Line.uncounted h).2.2.1, hcount _ fun _ h => (Line.uncounted h).2.2.2]

section one

variable (m : Metrics) (lines : List Line)

/-- A request that is taken up counts once, and a bypass once more. -/
theorem booked_taken (listed : Bool) :
    booked m [.allowlisted listed] [] = if listed then m.request.whitelisted else m.request := by
  cases listed <;>
    simp [booked, Metrics.request, Metrics.whitelisted, Note.isTaken, Note.isBypass, Note.isSent]

/-- A call of the upstream counts as one request allowed. -/
theorem booked_sent (call : ForwardCall) : booked m [.sent call] [] = m.record .allow := by
  simp [booked, Metrics.record, Note.isTaken, Note.isBypass, Note.isSent]

/-- A warning about the upstream counts as one upstream error. -/
theorem booked_warning (ip : IpAddr) (message : Str) :
    booked m [] [.warning ip message] = m.upstreamError := by
  simp [booked, Metrics.upstreamError, Line.isBlocked, Line.isDetected, Line.isRateLimited,
    Line.isWarning]

/-- The answer of a stage counts nothing by itself. -/
theorem booked_inspected (stage : Str) (ctx : RequestCtx) (result : StageResult) :
    booked m [.inspected stage ctx result] lines = booked m [] lines := by
  simp [booked, Note.isTaken, Note.isBypass, Note.isSent]

/-- The decision on a reply counts nothing by itself. -/
theorem booked_judged (d : WafDecision) : booked m [.judged d] lines = booked m [] lines := by
  simp [booked, Note.isTaken, Note.isBypass, Note.isSent]

/-- The notes of answers count nothing. -/
theorem booked_answers (notes : List Note) (answers : List Response) :
    booked m (notes ++ answers.map .answered) lines = booked m notes lines := by
  have hcount : ∀ count : Note → Bool, (∀ resp, count (.answered resp) = false) →
      (answers.map Note.answered).countP count = 0 := by
    intro count hanswered
    rw [List.countP_eq_zero]
    intro note hnote
    obtain ⟨resp, -, rfl⟩ := List.mem_map.1 hnote
    rw [hanswered resp]
    exact Bool.false_ne_true
  simp only [booked, List.countP_append]
  rw [hcount _ fun _ => rfl, hcount _ fun _ => rfl, hcount _ fun _ => rfl]
  rfl

end one

namespace Flight

variable {p : Pipeline X} {upstream : OutRequest → UpstreamResult} {f : Flight X} {s : Shared X}
  {m : Metrics}

/-- All that is written about a peer is a notice. -/
theorem notice_peerLines (f : Flight X) : ∀ line ∈ f.peerLines, line.isNotice = true := by
  intro line hline
  unfold peerLines at hline
  split at hline
  · cases hline
  · rw [List.mem_singleton.1 hline]
    rfl

/-- All that the rules stage writes about `log` rules is notices. -/
theorem notice_ruleLines (stage : Stage (World X)) (ctx : RequestCtx) (s : Shared X) :
    ∀ line ∈ ruleLines stage ctx s, line.isNotice = true := by
  intro line hline
  unfold ruleLines at hline
  split at hline
  · obtain ⟨ruleId, -, rfl⟩ := List.mem_map.1 hline
    rfl
  · cases hline

/-- All that a stage writes beside its decision is notices. -/
theorem notice_stageNotices (onError : OnError) (stage : Stage (World X)) (ctx : RequestCtx)
    (s : Shared X) : ∀ line ∈ stageNotices onError stage ctx s, line.isNotice = true := by
  intro line hline
  obtain hline | hline := List.mem_append.1 hline
  · exact notice_ruleLines stage ctx s line hline
  · obtain ⟨name, -, rfl⟩ := List.mem_map.1 hline
    rfl

/-- All that the inspection of a reply writes beside its decision is notices. -/
theorem notice_replyNotices (f : Flight X) (resp : Response) (held : Option Bytes)
    (s : Shared X) : ∀ line ∈ f.replyNotices resp held s, line.isNotice = true := by
  intro line hline
  obtain ⟨ruleId, -, rfl⟩ := List.mem_map.1 hline
  rfl

/-- Acting on a decision counts what it writes. -/
theorem booked_actLines (d : WafDecision) (detect : Bool) :
    booked m [] (f.actLines d detect) = (actOn d detect m).2 := by
  cases d with
  | allow => simp [actOn, actLines]
  | block ruleId status reason =>
      cases detect with
      | false =>
          simp [actOn, actLines, auditDecision, booked, Metrics.record, Line.isBlocked,
            Line.isDetected, Line.isRateLimited, Line.isWarning]
      | true =>
          simp [actOn, actLines, auditDecision, booked, Metrics.wouldBlock, Line.isBlocked,
            Line.isDetected, Line.isRateLimited, Line.isWarning]
  | rateLimited secs =>
      simp [actOn, actLines, auditDecision, booked, Metrics.record, Line.isBlocked,
        Line.isDetected, Line.isRateLimited, Line.isWarning]

/-- Running a stage counts what it notes and writes. -/
theorem booked_runStage (onError : OnError) (stage : Stage (World X)) (ctx : RequestCtx)
    (more done : RequestCtx → Point X) :
    let r := f.runStage onError stage ctx more done s m
    r.metrics = booked m r.notes (f.stageLines onError stage ctx s) := by
  intro r
  have hnotes : r.notes = [.inspected stage.name ctx (stage.inspect (ctx, s)).1] :=
    runStage_notes f onError stage ctx more done s m
  rw [hnotes, booked_inspected]
  show (f.runStage onError stage ctx more done s m).metrics = _
  unfold stageLines
  rw [booked_notices _ _ (notice_stageNotices onError stage ctx s)]
  unfold runStage
  rcases stageStep onError stage ((ctx, s), []) with ⟨_ | d, w, log⟩
  · exact (booked_nil m).symm
  · exact (f.booked_actLines d f.detect).symm

/-- What is seen of a move is what it notes, and its answer. -/
theorem seen_move (p : Pipeline X) (upstream : OutRequest → UpstreamResult) (f : Flight X)
    (s : Shared X) (m : Metrics) : ∃ answers : List Response,
    f.seen (f.move p upstream s m) = (f.move p upstream s m).notes ++ answers.map .answered ∧
      (answers = [] ∨ (f.move p upstream s m).point.answer?.isSome = true) := by
  cases hanswer : f.point.answer? with
  | none =>
      unfold seen
      rw [hanswer]
      cases (f.move p upstream s m).point.answer? with
      | none => exact ⟨[], rfl, .inl rfl⟩
      | some resp => exact ⟨[f.echo resp], rfl, .inr rfl⟩
  | some resp =>
      refine ⟨[], ?_, .inl rfl⟩
      rw [move_of_answer hanswer]
      simp [seen, hanswer]

/-- **A move counts what is seen of it and what it writes.** -/
theorem booked_move :
    let r := f.move p upstream s m
    r.metrics = booked m (f.seen r) (f.lines p upstream s) := by
  intro r
  obtain ⟨answers, hseen, -⟩ := f.seen_move p upstream s m
  rw [hseen, booked_answers]
  simp only [r]
  cases hpoint : f.point with
  | arrived =>
      simp only [move, lines, hpoint]
      have hpeer : ∀ notes, booked m notes f.peerLines = booked m notes [] := by
        intro notes
        rw [← List.append_nil f.peerLines]
        exact booked_notices m notes f.notice_peerLines []
      rw [hpeer]
      cases isWhitelisted s f.client.ip with
      | true => exact (booked_taken m true).symm
      | false => exact (booked_taken m false).symm
  | early ctx rest =>
      cases rest with
      | nil => simp [move, lines, hpoint]
      | cons stage rest =>
          simp only [move, lines, hpoint]
          exact booked_runStage p.onError stage ctx _ _
  | gate ctx =>
      simp only [move, lines, hpoint]
      cases bodyGate f.cfg f.req with
      | tooLarge => exact (f.booked_actLines bodyTooLarge false).symm
      | buffered bytes => exact (booked_nil m).symm
      | streamed => exact (booked_nil m).symm
  | late ctx body len rest =>
      cases rest with
      | nil => simp [move, lines, hpoint]
      | cons stage rest =>
          simp only [move, lines, hpoint]
          exact booked_runStage p.onError stage ctx _ _
  | admitted inspected body len =>
      simp only [move, lines, hpoint]
      exact (booked_sent m _).symm
  | waiting inspected call =>
      simp only [move, lines, hpoint]
      cases forwardResult X f.cfg (quietEnv (X := X) upstream) call with
      | error e => cases e <;> exact (booked_warning m _ _).symm
      | ok resp => exact (booked_nil m).symm
  | replied resp =>
      simp only [move, lines, hpoint]
      cases buffersReply p.engine f.cfg resp s with
      | false => exact (booked_nil m).symm
      | true =>
          simp only [if_true]
          cases bufferFrames f.cfg.limits.maxInspectBody.toNat resp.body.toStream.failure []
              resp.body.toStream.frames with
          | tooLarge => exact (booked_warning m _ _).symm
          | readError => exact (booked_warning m _ _).symm
          | done bytes => exact (booked_nil m).symm
  | judging resp held =>
      simp only [move, lines, hpoint, judge]
      rw [booked_judged, booked_notices _ _ (f.notice_replyNotices resp held s)]
      exact (f.booked_actLines _ f.detect).symm
  | answered resp =>
      simp only [move, lines, hpoint]
      exact (booked_nil m).symm

end Flight

namespace Service

/-- A run that writes goes through the same states. -/
theorem run_logged (t : Service X) (hs : List Happening) :
    (run logged t hs).1 = (run step t hs).1 := by
  have hsame : ∀ (u : Service X) h, (u.logged h).1 = (u.step h).1 := fun _ _ => rfl
  exact run_same hsame t hs

/-- Nothing is written where no flight moves. -/
theorem lines_still (t : Service X) {h : Happening}
    (hstill : ∀ n upstream, h = .move n upstream → t.flights[n]? = none) : t.lines h = [] := by
  cases h with
  | move n upstream => simp only [lines, hstill n upstream rfl]
  | _ => rfl

/-- **A step counts what is seen of it and what it writes.** -/
theorem step_booked (t : Service X) (h : Happening) :
    (t.step h).1.metrics =
      booked t.metrics ((t.step h).2.map Prod.snd) ((t.lines h).map Prod.snd) := by
  have hmap : ∀ {α : Type} (n : Nat) (xs : List α), (xs.map (n, ·)).map Prod.snd = xs := by
    intro α n xs
    rw [List.map_map]
    exact List.map_id xs
  have hquiet : t.metrics = booked t.metrics [] [] := (booked_nil t.metrics).symm
  have hstep := t.stepped h
  generalize t.step h = r at hstep ⊢
  obtain ⟨u, notes⟩ := r
  cases hstep with
  | arrived => exact hquiet
  | moved n upstream f there =>
      simp only [lines, there]
      rw [hmap, hmap]
      exact f.booked_move
  | clock => exact hquiet
  | took _ chores idle event =>
      rw [t.lines_still fun n upstream heq => absurd heq (event.still n upstream)]
      exact hquiet
  | did => exact hquiet
  | stayed _ still =>
      rw [lines_still _ still]
      exact hquiet

/-- **The counters of a run** are the counts of what was seen and written. -/
theorem run_booked (t : Service X) (hs : List Happening) :
    (run step t hs).1.metrics =
      booked t.metrics ((run step t hs).2.map Prod.snd) ((run logged t hs).2.map Prod.snd) := by
  induction hs using List.reverseRecOn with
  | nil => exact (booked_nil t.metrics).symm
  | append_singleton before h ih =>
      have hlast : (run step t (before ++ [h])).1.metrics =
          ((run step t before).1.step h).1.metrics := by rw [run_append]; rfl
      rw [hlast, step_booked, ih, booked_append, run_append, run_append, run_logged]
      simp only [run_cons, run_nil, List.append_nil, List.map_append, logged, run_logged]

end Service

/-! ## The tally of `log` rules -/

namespace Flight

variable {geo : Option (GeoStage X)} {cfg : Config} {f : Flight X} {s : Shared X}

/-- As many lines about `log` rules are written as there are rules that matched. -/
theorem countP_isLogHit_map {ids : List Str} {line : Str → Line}
    (h : ∀ ruleId, (line ruleId).isLogHit = true) :
    (ids.map line).countP Line.isLogHit = ids.length := by
  rw [List.countP_map]
  exact List.countP_eq_length.2 fun ruleId _ => h ruleId

/-- The lines about a decision are not about a `log` rule. -/
theorem countP_actLines (f : Flight X) (d : WafDecision) (detect : Bool) :
    (f.actLines d detect).countP Line.isLogHit = 0 := by
  cases d <;> rfl

/-- None of the lines about a peer is about a `log` rule. -/
theorem countP_peerLines (f : Flight X) : f.peerLines.countP Line.isLogHit = 0 := by
  unfold peerLines
  split <;> rfl

/-- The line about a reply that could not be buffered is not about a `log` rule. -/
theorem countP_bufferLines (f : Flight X) (r : BufferResult) :
    (f.bufferLines r).countP Line.isLogHit = 0 := by
  cases r <;> rfl

/-- The lines of a stage that are of `log` rules are the rules' own. -/
theorem countP_stageLines (f : Flight X) (onError : OnError) (stage : Stage (World X))
    (ctx : RequestCtx) (s : Shared X) : (f.stageLines onError stage ctx s).countP Line.isLogHit =
      (ruleLines stage ctx s).countP Line.isLogHit := by
  have hpanicked : ∀ names : List Str, (names.map Line.stagePanicked).countP Line.isLogHit = 0 := by
    intro names
    rw [List.countP_map]
    exact List.countP_eq_zero.2 fun _ _ => Bool.false_ne_true
  have hacted : ∀ decision : Option WafDecision,
      (decision.elim [] (f.actLines · f.detect)).countP Line.isLogHit = 0 := by
    intro decision
    cases decision with
    | none => rfl
    | some d => exact f.countP_actLines d f.detect
  unfold stageLines stageNotices
  rw [List.countP_append, List.countP_append, hpanicked, hacted]
  rfl

/-- **A stage of the standard pipeline raises the tally by the lines it writes**: only the rules do
either. -/
theorem logHits_stage : ∀ stage ∈ (standard geo cfg).early ++ (standard geo cfg).late,
    ∀ ctx (s : Shared X), (stage.inspect (ctx, s)).2.2.logHits =
      s.logHits + UInt64.ofNat ((ruleLines stage ctx s).countP Line.isLogHit) := by
  have hother : ∀ (stage : Stage (World X)) ctx s (name : Str), stage.name = name →
      name ≠ "rules" →
      s.logHits = s.logHits + UInt64.ofNat ((ruleLines stage ctx s).countP Line.isLogHit) := by
    rintro stage ctx s name rfl hname
    unfold ruleLines
    rw [if_neg hname]
    exact (UInt64.add_zero _).symm
  have hearly : ∀ stage ∈ earlyStack geo cfg, ∀ ctx (s : Shared X),
      (stage.inspect (ctx, s)).2.2.logHits =
        s.logHits + UInt64.ofNat ((ruleLines stage ctx s).countP Line.isLogHit) := by
    apply forall_mem_earlyStack
    · exact fun ctx s => hother reputationStage ctx s "reputation" rfl (by decide)
    · exact fun g ctx s => hother (geoStage g) ctx s "geoip" rfl (by decide)
    · exact fun ctx s => hother (rateLimitStage _) ctx s "ratelimit" rfl (by decide)
    · exact fun ctx s => hother (sanityStage _) ctx s "sanity" rfl (by decide)
    · exact fun ctx s => hother normalizeStage ctx s "normalize" rfl (by decide)
  have hlate : ∀ stage ∈ lateStack (X := X), ∀ ctx (s : Shared X),
      (stage.inspect (ctx, s)).2.2.logHits =
        s.logHits + UInt64.ofNat ((ruleLines stage ctx s).countP Line.isLogHit) := by
    apply forall_mem_lateStack
    · intro ctx s
      have hlines : (ruleLines rulesStage ctx s).countP Line.isLogHit =
          (s.rules.loggedRequest true s.now ctx s.toRuleState).length := by
        have hname : (rulesStage (X := X)).name = ("rules" : Str) := rfl
        unfold ruleLines
        rw [if_pos hname]
        exact countP_isLogHit_map fun _ => rfl
      rw [hlines]
      exact s.rules.logHits_evaluateCounting s.now ctx s.toRuleState
    · exact fun ctx s => hother signatureStage ctx s "signatures" rfl (by decide)
  intro stage hstage
  rcases List.mem_append.1 hstage with hstage | hstage
  · exact hearly stage hstage
  · exact hlate stage hstage

/-- **A move raises the tally by the lines it writes.** -/
theorem logHits_move (upstream : OutRequest → UpstreamResult) (s : Shared X) (m : Metrics)
    {P : IpAddr → Prop} (h : f.point.About (standard geo cfg) P) :
    (f.move (standard geo cfg) upstream s m).shared.logHits = s.logHits +
      UInt64.ofNat ((f.lines (standard geo cfg) upstream s).countP Line.isLogHit) := by
  have hstill : ∀ {lines : List Line}, lines.countP Line.isLogHit = 0 →
      s.logHits = s.logHits + UInt64.ofNat (lines.countP Line.isLogHit) := by
    intro lines hzero
    rw [hzero]
    exact (UInt64.add_zero _).symm
  have hstage : ∀ onError stage ctx (more done : RequestCtx → Point X),
      stage ∈ (standard geo cfg).early ++ (standard geo cfg).late →
      (f.runStage onError stage ctx more done s m).shared.logHits =
        s.logHits + UInt64.ofNat ((f.stageLines onError stage ctx s).countP Line.isLogHit) := by
    intro onError stage ctx more done hmem
    rw [runStage_shared, countP_stageLines]
    exact logHits_stage stage hmem ctx s
  cases hpoint : f.point with
  | arrived =>
      simp only [move, lines, hpoint]
      cases isWhitelisted s f.client.ip <;> exact hstill f.countP_peerLines
  | early ctx rest =>
      rw [hpoint] at h
      cases rest with
      | nil =>
          simp only [move, lines, hpoint]
          exact hstill rfl
      | cons stage rest =>
          simp only [move, lines, hpoint]
          exact hstage _ _ _ _ _ (List.mem_append_left _ (h.2 stage List.mem_cons_self))
  | gate ctx =>
      simp only [move, lines, hpoint]
      cases bodyGate f.cfg f.req with
      | tooLarge => exact hstill (f.countP_actLines bodyTooLarge false)
      | buffered bytes => exact hstill rfl
      | streamed => exact hstill rfl
  | late ctx body len rest =>
      rw [hpoint] at h
      cases rest with
      | nil =>
          simp only [move, lines, hpoint]
          exact hstill rfl
      | cons stage rest =>
          simp only [move, lines, hpoint]
          exact hstage _ _ _ _ _ (List.mem_append_right _ (h.2 stage List.mem_cons_self))
  | admitted inspected body len =>
      simp only [move, lines, hpoint]
      exact hstill rfl
  | waiting inspected call =>
      simp only [move, lines, hpoint]
      cases forwardResult X f.cfg (quietEnv (X := X) upstream) call with
      | error e => cases e <;> exact hstill rfl
      | ok resp => exact hstill rfl
  | replied resp =>
      simp only [move, lines, hpoint]
      cases buffersReply (standard geo cfg).engine f.cfg resp s with
      | false => exact hstill rfl
      | true =>
          simp only [if_true]
          rw [f.countP_bufferLines]
          cases bufferFrames f.cfg.limits.maxInspectBody.toNat resp.body.toStream.failure []
              resp.body.toStream.frames <;> exact (UInt64.add_zero _).symm
  | judging resp held =>
      simp only [move, lines, hpoint, judge]
      rw [List.countP_append, countP_actLines, Nat.add_zero, replyNotices,
        countP_isLogHit_map fun _ => rfl]
      exact s.rules.logHits_evaluateResponse s.now (f.replyCtx resp held) s.toRuleState
  | answered resp =>
      simp only [move, lines, hpoint]
      exact hstill rfl

end Flight

/-- The supervisor leaves the tally alone. -/
theorem Chore.logHits_act (fs : FileSystem) (feeds : Feeds) (p : Process X) (chore : Chore X) :
    (chore.act fs feeds p).1.shared.logHits = p.shared.logHits := by
  cases chore with
  | store swap => cases swap <;> rfl
  | fetch urls set => cases urls <;> rfl
  | _ => rfl

namespace Service

variable {geo : Option (GeoStage X)} {cfg : Config}

/-- **The tally of a run** is the number of lines about `log` rules that matched. -/
theorem run_logHits {t : Service X} (hp : t.process.pipeline = standard geo cfg)
    (ht : t.Underway) (hs : List Happening) :
    (run step t hs).1.process.shared.logHits = t.process.shared.logHits +
      UInt64.ofNat (((run logged t hs).2.map Prod.snd).countP Line.isLogHit) := by
  induction hs generalizing t with
  | nil => exact (UInt64.add_zero _).symm
  | cons h hs ih =>
      have hfirst : (t.step h).1.process.shared.logHits = t.process.shared.logHits +
          UInt64.ofNat (((t.lines h).map Prod.snd).countP Line.isLogHit) := by
        have hquiet : t.process.shared.logHits = t.process.shared.logHits +
            UInt64.ofNat ((([] : List (Nat × Line)).map Prod.snd).countP Line.isLogHit) :=
          (UInt64.add_zero _).symm
        have hstep := t.stepped h
        generalize t.step h = r at hstep ⊢
        obtain ⟨u, notes⟩ := r
        cases hstep with
        | moved n upstream f there =>
            have hmap : ((f.lines t.process.pipeline upstream t.process.shared).map (n, ·)).map
                Prod.snd = f.lines t.process.pipeline upstream t.process.shared := by
              rw [List.map_map]
              exact List.map_id _
            have habout := ht f (List.mem_of_getElem? there)
            simp only [lines, there]
            rw [hmap]
            rw [hp] at habout ⊢
            exact Flight.logHits_move upstream t.process.shared t.metrics habout
        | took _ chores idle event =>
            rw [t.lines_still fun n upstream heq => absurd heq (event.still n upstream)]
            exact hquiet
        | did fs feeds chore rest next =>
            exact (Chore.logHits_act fs feeds t.process chore).trans hquiet
        | stayed _ still =>
            rw [lines_still _ still]
            exact hquiet
        | _ => exact hquiet
      have hpipeline : (t.step h).1.process.pipeline = standard geo cfg :=
        (t.step_pipeline h).1.trans hp
      have hrest := ih hpipeline (underway_step ht h)
      rw [run_cons, run_cons]
      simp only [logged, List.map_append, List.countP_append, UInt64.ofNat_add]
      rw [hrest, hfirst, UInt64.add_assoc]

end Service

/-- **What the admin endpoint answers in a run.** `GET /metrics` and nothing else reads back as
metrics, and these are: the counters, raised since the begin by what was seen and written, the
number of lines about `log` rules that matched, and the sizes of what is in force. Each is true of
the moment it is read at, where `hs i` has happened: much may happen between two of them. -/
theorem scraped_counts {fs : FileSystem} {path : Str} {now : Now} {metrics : Metrics}
    {t : Service X} (hboot : Service.boot X fs path now metrics = .ok t)
    (hs : Nat → List Happening) (tracked : Tracked X) {method target : Str}
    {shown : List Exposition.Family} :
    let read i := (run Service.step t (hs i)).1
    let notes i := (run Service.step t (hs i)).2.map Prod.snd
    let lines i := (run Service.logged t (hs i)).2.map Prod.snd
    let sizes := Pipeline.metrics tracked fun i => (read (7 + i)).process
    (∃ body, (route method target (Metrics.snapshot fun i => (read i).metrics) sizes).body =
        .full (Str.utf8 body) ∧ Exposition.scrape body = some shown) ↔
      method = "GET" ∧ target = "/metrics" ∧
        shown = families (Metrics.snapshot fun i => booked metrics (notes i) (lines i))
          { sizes with ruleLogMatches := UInt64.ofNat ((lines 9).countP Line.isLogHit) } := by
  intro read notes lines sizes
  obtain ⟨cfg, geo, shared, -, hbuilt, rfl⟩ := Service.boot_ok hboot
  have hzero : shared.logHits = 0 := by
    obtain ⟨_, _, _, _, _, _, -, -, -, -, -, -, rfl⟩ := fromConfig_ok hbuilt
    rfl
  have hbooked : (fun i => (read i).metrics) = fun i => booked metrics (notes i) (lines i) :=
    funext fun i => Service.run_booked _ (hs i)
  have hhits : sizes.ruleLogMatches = UInt64.ofNat ((lines 9).countP Line.isLogHit) := by
    rw [show sizes.ruleLogMatches = _ from
      Service.run_logHits rfl (fun f hf => absurd hf List.not_mem_nil) (hs 9)]
    show shared.logHits + _ = _
    rw [hzero, UInt64.zero_add]
  rw [scrape_route_iff, hbooked, ← hhits]

/-- The requests are read before the login, all else when it is sent: it is counted as let through
only. The signatures are the built-in ones. -/
theorem scraped_counts_login :
    let read i := (run Service.step loginService (if i = 0 then [] else loginRun)).1
    let tracked : Tracked Supervisor.loginBuild := ⟨fun _ => 0, fun _ => 0⟩
    let sizes := Pipeline.metrics tracked fun i => (read (7 + i)).process
    ∃ body, (route "GET" "/metrics" (Metrics.snapshot fun i => (read i).metrics) sizes).body =
        .full (Str.utf8 body) ∧
      Exposition.scrape body = some (families ⟨0, 1, 0, 0, 0, 0, 0⟩ ⟨17, 1, 0, 0, 0, 0, 0⟩) :=
  (scraped_counts boot_login (fun i => if i = 0 then [] else loginRun)
    ⟨fun _ => 0, fun _ => 0⟩).2 ⟨rfl, rfl, by decide +kernel⟩

/-! ## What accounts for an answer -/

namespace Flight

section trail

variable (f : Flight X) (U : (OutRequest → UpstreamResult) → Prop)

/-- A line about a block that detect mode let through. -/
def Detected (line : Line) : Prop :=
  f.detect = true ∧ ∃ ruleId status reason,
    [line] = f.auditDecision (.block ruleId status reason) false

/-- A line that does not end the request: a notice, or about a block that detect mode let
through. -/
def Passing (line : Line) : Prop := line.isNotice = true ∨ f.Detected line

/-- A call of the request got this reply. -/
def Gets (call : ForwardCall) (reply : Response) : Prop :=
  ∃ upstream, U upstream ∧ forwardResult X f.cfg (quietEnv (X := X) upstream) call = .ok reply

/-- A call of the request failed: there was no reply, or its body could not be held back. -/
def Fails (call : ForwardCall) : Prop :=
  (∃ upstream e, U upstream ∧
    forwardResult X f.cfg (quietEnv (X := X) upstream) call = .error e) ∨
  ∃ reply, f.Gets U call reply ∧ ∀ bytes, bufferFrames f.cfg.limits.maxInspectBody.toNat
    reply.body.toStream.failure [] reply.body.toStream.frames ≠ .done bytes

/-- How the lines of a request account for its answer. -/
inductive Ends (resp : Response) (notes : List Note) : List Line → Prop
  /-- It was refused: before it was sent, or by the decision on the reply. -/
  | refused (d : WafDecision) (before : List Line) (passing : ∀ line ∈ before, f.Passing line)
      (refuses : d ≠ .allow)
      (only : f.detect = true → d = bodyTooLarge ∨ ∃ secs, d = .rateLimited secs)
      (asked : sentCalls notes = [] ∨ .judged d ∈ notes)
      (answer : resp = decisionResponse d) : Ends resp notes (before ++ f.auditDecision d true)
  /-- The upstream failed it. -/
  | failed (before : List Line) (passing : ∀ line ∈ before, f.Passing line)
      (call : ForwardCall) (sent : .sent call ∈ notes) (fails : f.Fails U call)
      (message msg : Str) (status : StatusCode)
      (gateway : status = .badGateway ∨ status = .gatewayTimeout)
      (answer : resp = errorResponse status msg) :
      Ends resp notes (before ++ [.warning f.client.ip message])
  /-- It was served the reply of the upstream, which no decision stopped. -/
  | served (lines : List Line) (passing : ∀ line ∈ lines, f.Passing line)
      (call : ForwardCall) (sent : .sent call ∈ notes) (reply : Response)
      (got : f.Gets U call reply)
      (lets : .allowlisted true ∈ notes ∨ ∃ d, .judged d ∈ notes ∧ f.Lets d)
      (answer : resp = reply ∨ ∃ bytes, resp = reemit reply bytes) : Ends resp notes lines

/-- **The trail of a request** that has reached a point. -/
def Trail : Point X → List Note → List Line → Prop
  | .admitted inspected _ _, notes, lines => (∀ line ∈ lines, f.Passing line) ∧ Unsent notes ∧
      (inspected = false → .allowlisted true ∈ notes)
  | .waiting inspected call, notes, lines => (∀ line ∈ lines, f.Passing line) ∧
      .sent call ∈ notes ∧ (inspected = false → .allowlisted true ∈ notes)
  | .replied resp, notes, lines => (∀ line ∈ lines, f.Passing line) ∧
      ∃ call, .sent call ∈ notes ∧ f.Gets U call resp
  | .judging resp _, notes, lines => (∀ line ∈ lines, f.Passing line) ∧
      ∃ call, .sent call ∈ notes ∧ f.Gets U call resp
  | .answered resp, notes, lines => f.Ends U resp notes lines
  | _, notes, lines => (∀ line ∈ lines, f.Passing line) ∧ Unsent notes

end trail

/-- Acting on a decision goes on, with at most a line about a detected block, or answers with it
and writes it down. -/
theorem acts (f : Flight X) (d : WafDecision) (m : Metrics) :
    (f.Lets d ∧ (actOn d f.detect m).1 = none ∧
        ∀ line ∈ f.actLines d f.detect, f.Passing line) ∨
      (actOn d f.detect m).1 = some (decisionResponse d) ∧
        f.actLines d f.detect = f.auditDecision d true ∧ d ≠ .allow ∧
        (f.detect = true → ∃ secs, d = .rateLimited secs) := by
  cases d with
  | allow => exact .inl ⟨.inl rfl, rfl, fun line hline => absurd hline List.not_mem_nil⟩
  | block ruleId status reason =>
      cases hdetect : f.detect with
      | true =>
          refine .inl ⟨.inr ⟨hdetect, rfl⟩, rfl, fun line hline => .inr ⟨hdetect, ruleId,
            status, reason, ?_⟩⟩
          rw [List.mem_singleton.1 hline]
          rfl
      | false => exact .inr ⟨rfl, rfl, by simp, by simp⟩
  | rateLimited secs => exact .inr ⟨rfl, rfl, by simp, fun _ => ⟨secs, rfl⟩⟩

variable {U : (OutRequest → UpstreamResult) → Prop} {p : Pipeline X}
  {upstream : OutRequest → UpstreamResult} {f : Flight X} {s : Shared X} {m : Metrics}
  {notes : List Note} {log : List Line}

/-- A log of lines that pass, with more of them, is such a log. -/
theorem passing_append {lines : List Line} (h : ∀ line ∈ log, f.Passing line)
    (hlines : ∀ line ∈ lines, f.Passing line) : ∀ line ∈ log ++ lines, f.Passing line := by
  intro line hline
  obtain hline | hline := List.mem_append.1 hline
  · exact h line hline
  · exact hlines line hline

/-- Answers are no calls of the upstream. -/
theorem sentCalls_answers (answers : List Response) :
    sentCalls (answers.map .answered) = [] := by
  apply List.filterMap_eq_nil_iff.2
  intro note hnote
  obtain ⟨resp, -, rfl⟩ := List.mem_map.1 hnote
  rfl

/-- How a request ended stays so when its answer is noted. -/
theorem ends_append {resp : Response} (h : f.Ends U resp notes log) (answers : List Response) :
    f.Ends U resp (notes ++ answers.map .answered) log := by
  cases h with
  | refused d before passing refuses only asked answer =>
      refine .refused d before passing refuses only ?_ answer
      obtain hunsent | hjudged := asked
      · left
        rw [Solo.sentCalls_append, hunsent, sentCalls_answers]
        rfl
      · exact .inr (List.mem_append_left _ hjudged)
  | failed before passing call sent fails message msg status gateway answer =>
      exact .failed before passing call (List.mem_append_left _ sent) fails message msg status
        gateway answer
  | served _ passing call sent reply got lets answer =>
      refine .served _ passing call (List.mem_append_left _ sent) reply got ?_ answer
      obtain hlisted | ⟨d, hjudged, hlets⟩ := lets
      · exact .inl (List.mem_append_left _ hlisted)
      · exact .inr ⟨d, List.mem_append_left _ hjudged, hlets⟩

/-- Running a stage keeps the trail: its notices pass, a decision that ends the request is the last
line, and else the next point asks no more of the log than that its lines pass and nothing was sent.
-/
theorem trail_runStage {onError : OnError} {stage : Stage (World X)} {ctx : RequestCtx}
    {more done : RequestCtx → Point X}
    (hmore : ∀ ctx notes lines, (∀ line ∈ lines, f.Passing line) → Unsent notes →
      f.Trail U (more ctx) notes lines)
    (hdone : ∀ ctx notes lines, (∀ line ∈ lines, f.Passing line) → Unsent notes →
      f.Trail U (done ctx) notes lines)
    (h : ∀ line ∈ log, f.Passing line) (hunsent : Unsent notes) :
    let r := f.runStage onError stage ctx more done s m
    f.Trail U r.point (notes ++ r.notes) (log ++ f.stageLines onError stage ctx s) := by
  intro r
  have hnotes : Unsent (notes ++ r.notes) := by
    rw [show r.notes = _ from runStage_notes f onError stage ctx more done s m]
    exact hunsent.append (.of_inspected _ _ _)
  have hnoticed : ∀ line ∈ log ++ stageNotices onError stage ctx s, f.Passing line :=
    passing_append h fun line hline => .inl (notice_stageNotices onError stage ctx s line hline)
  rw [show r.point = _ from runStage_point f onError stage ctx more done s m]
  unfold stageLines
  rw [← List.append_assoc]
  rcases (stageStep onError stage ((ctx, s), [])).1 with _ | d
  · rw [Option.elim_none, Option.elim_none, List.append_nil]
    exact hmore _ _ _ hnoticed hnotes
  · rw [Option.elim_some, Option.elim_some]
    obtain ⟨-, hgoes, hlines⟩ | ⟨hanswers, hlines, hrefuses, honly⟩ := f.acts d m
    · rw [hgoes, Option.elim_none]
      exact hdone _ _ _ (passing_append hnoticed hlines) hnotes
    · rw [hanswers, Option.elim_some, hlines]
      exact .refused d _ hnoticed hrefuses (fun hdetect => .inr (honly hdetect))
        (.inl hnotes.sentCalls_eq) rfl

/-- **A move keeps the trail**: what it notes and writes is the trail of where it leads. -/
theorem trail_move (f : Flight X) (p : Pipeline X) (s : Shared X) (m : Metrics)
    (hU : U upstream) (h : f.Trail U f.point notes log) :
    f.Trail U (f.move p upstream s m).point (notes ++ (f.move p upstream s m).notes)
      (log ++ f.lines p upstream s) := by
  cases hpoint : f.point with
  | arrived =>
      rw [hpoint] at h
      obtain ⟨hlines, hunsent⟩ := h
      have hnoticed : ∀ line ∈ log ++ f.peerLines, f.Passing line :=
        passing_append hlines fun line hline => .inl (f.notice_peerLines line hline)
      simp only [move, lines, hpoint]
      cases isWhitelisted s f.client.ip with
      | true => exact ⟨hnoticed, hunsent.append (.of_allowlisted true), fun _ => by simp⟩
      | false => exact ⟨hnoticed, hunsent.append (.of_allowlisted false)⟩
  | early ctx rest =>
      rw [hpoint] at h
      cases rest with
      | nil =>
          simp only [move, lines, hpoint, List.append_nil]
          exact h
      | cons stage rest =>
          simp only [move, lines, hpoint]
          exact trail_runStage (fun _ _ _ hlines hunsent => ⟨hlines, hunsent⟩)
            (fun _ _ _ hlines hunsent => ⟨hlines, hunsent⟩) h.1 h.2
  | gate ctx =>
      rw [hpoint] at h
      obtain ⟨hlines, hunsent⟩ := h
      simp only [move, lines, hpoint]
      cases bodyGate f.cfg f.req with
      | tooLarge =>
          rw [List.append_nil]
          exact .refused bodyTooLarge log hlines (by simp [bodyTooLarge]) (fun _ => .inl rfl)
            (.inl hunsent.sentCalls_eq) rfl
      | buffered bytes =>
          rw [List.append_nil, List.append_nil]
          exact ⟨hlines, hunsent⟩
      | streamed =>
          rw [List.append_nil, List.append_nil]
          exact ⟨hlines, hunsent⟩
  | late ctx body len rest =>
      rw [hpoint] at h
      cases rest with
      | nil =>
          simp only [move, lines, hpoint, List.append_nil]
          exact ⟨h.1, h.2, by simp⟩
      | cons stage rest =>
          simp only [move, lines, hpoint]
          exact trail_runStage (fun _ _ _ hlines hunsent => ⟨hlines, hunsent⟩)
            (fun _ _ _ hlines hunsent => ⟨hlines, hunsent, by simp⟩) h.1 h.2
  | admitted inspected body len =>
      rw [hpoint] at h
      obtain ⟨hlines, -, hlisted⟩ := h
      simp only [move, lines, hpoint, List.append_nil]
      exact ⟨hlines, by simp, fun hbypass => List.mem_append_left _ (hlisted hbypass)⟩
  | waiting inspected call =>
      rw [hpoint] at h
      obtain ⟨hlines, hsent, hlisted⟩ := h
      simp only [move, lines, hpoint]
      cases hresult : forwardResult X f.cfg (quietEnv (X := X) upstream) call with
      | error e =>
          have hfails : f.Fails U call := .inl ⟨upstream, e, hU, hresult⟩
          rw [List.append_nil]
          cases e with
          | timeout => exact .failed log hlines call hsent hfails _ _ _ (.inr rfl) rfl
          | upstream e => exact .failed log hlines call hsent hfails _ _ _ (.inl rfl) rfl
      | ok resp =>
          rw [List.append_nil, List.append_nil]
          have hgets : f.Gets U call resp := ⟨upstream, hU, hresult⟩
          cases inspected with
          | true => exact ⟨hlines, call, hsent, hgets⟩
          | false =>
              exact .served log hlines call hsent resp hgets (.inl (hlisted rfl)) (.inl rfl)
  | replied resp =>
      rw [hpoint] at h
      obtain ⟨hlines, call, hsent, hgets⟩ := h
      simp only [move, lines, hpoint]
      cases buffersReply p.engine f.cfg resp s with
      | false =>
          rw [if_neg Bool.false_ne_true, if_neg Bool.false_ne_true, List.append_nil,
            List.append_nil]
          exact ⟨hlines, call, hsent, hgets⟩
      | true =>
          rw [if_pos rfl, if_pos rfl]
          cases hbuffer : bufferFrames f.cfg.limits.maxInspectBody.toNat
              resp.body.toStream.failure [] resp.body.toStream.frames with
          | tooLarge =>
              rw [List.append_nil]
              exact .failed log hlines call hsent (.inr ⟨resp, hgets, by simp [hbuffer]⟩) _ _ _
                (.inl rfl) rfl
          | readError =>
              rw [List.append_nil]
              exact .failed log hlines call hsent (.inr ⟨resp, hgets, by simp [hbuffer]⟩) _ _ _
                (.inl rfl) rfl
          | done bytes =>
              rw [bufferLines, List.append_nil, List.append_nil]
              exact ⟨hlines, call, hsent, hgets⟩
  | judging resp held =>
      rw [hpoint] at h
      obtain ⟨hlines, call, hsent, hgets⟩ := h
      have hnoticed : ∀ line ∈ log ++ f.replyNotices resp held s, f.Passing line :=
        passing_append hlines fun line hline => .inl (f.notice_replyNotices resp held s line hline)
      simp only [move, lines, hpoint, judge, replyCtx]
      rw [← List.append_assoc]
      generalize (Pipeline.inspectResponse (X := X) _ s).1 = d
      have hjudged : .judged d ∈ notes ++ [.judged d] := by simp
      obtain ⟨hlets, hgoes, hdetected⟩ | ⟨hanswers, hwritten, hrefuses, honly⟩ := f.acts d m
      · rw [hgoes]
        refine .served _ (passing_append hnoticed hdetected) call (List.mem_append_left _ hsent)
          resp hgets (.inr ⟨d, hjudged, hlets⟩) ?_
        cases held with
        | none => exact .inl rfl
        | some bytes => exact .inr ⟨bytes, rfl⟩
      · rw [hanswers, hwritten]
        exact .refused d _ hnoticed hrefuses (fun hdetect => .inr (honly hdetect)) (.inr hjudged)
          rfl
  | answered resp =>
      rw [hpoint] at h
      simp only [move, lines, hpoint, List.append_nil]
      exact h

/-- An answer that is noted does not change the trail. -/
theorem trail_append {point : Point X} (h : f.Trail U point notes log) (answers : List Response)
    (hanswered : answers = [] ∨ point.answer?.isSome = true) :
    f.Trail U point (notes ++ answers.map .answered) log := by
  obtain rfl | hanswered := hanswered
  · rw [List.map_nil, List.append_nil]
    exact h
  · cases point with
    | answered resp => exact ends_append h answers
    | _ => cases hanswered

/-- How a request ended does not depend on the point the flight is at now. -/
theorem ends_withPoint {point : Point X} {resp : Response} (h : f.Ends U resp notes log) :
    ({ f with point := point } : Flight X).Ends U resp notes log := by
  cases h with
  | refused d before passing refuses only asked answer =>
      exact .refused d before passing refuses only asked answer
  | failed before passing call sent fails message msg status gateway answer =>
      exact @Ends.failed X { f with point := point } U resp notes before passing call sent fails
        message msg status gateway answer
  | served _ passing call sent reply got lets answer =>
      exact .served _ passing call sent reply got lets answer

/-- The trail is about the request, not about the point. -/
theorem trail_withPoint {point q : Point X} (h : f.Trail U q notes log) :
    ({ f with point := point } : Flight X).Trail U q notes log := by
  cases q with
  | answered resp => exact ends_withPoint h
  | _ => exact h

end Flight

/-- What was written about one flight, in its order. -/
def linesOf (n : Nat) (log : List (Nat × Line)) : List Line :=
  log.filterMap fun x => if x.1 = n then some x.2 else none

/-- All lines of a flight are its own. -/
@[simp] theorem linesOf_self (n : Nat) (lines : List Line) :
    linesOf n (lines.map (n, ·)) = lines := by
  simp [linesOf, List.filterMap_map]

/-- None of the lines of one flight is another one's. -/
@[simp] theorem linesOf_other {n k : Nat} (h : k ≠ n) (lines : List Line) :
    linesOf n (lines.map (k, ·)) = [] := by
  simp [linesOf, List.filterMap_map, h]

namespace Service

/-- A flight that does not move writes nothing. -/
theorem lines_other (t : Service X) {h : Happening} {n : Nat}
    (hother : ∀ upstream f, h = .move n upstream → t.flights[n]? ≠ some f) :
    linesOf n (t.lines h) = [] := by
  cases h with
  | move k upstream =>
      simp only [lines]
      by_cases hk : k = n
      · subst hk
        cases hthere : t.flights[k]? with
        | none => rfl
        | some f => exact absurd hthere (hother upstream f rfl)
      · cases t.flights[k]? with
        | none => rfl
        | some f => exact linesOf_other hk _
  | _ => rfl

/-- What was written in a run was written about a flight that is there. -/
theorem run_lines_none {t : Service X} {hs : List Happening} {n : Nat}
    (hn : (run step t hs).1.flights[n]? = none) : linesOf n (run logged t hs).2 = [] := by
  rw [← run_logged] at hn
  revert hn
  refine run_history (I := fun (u : Service X) log => u.flights[n]? = none → linesOf n log = [])
    (fun _ => rfl) ?_
  intro before h after _ hbefore hgone
  have hwas : (run logged t before).1.flights[n]? = none := by
    rw [List.getElem?_eq_none_iff] at hgone ⊢
    exact (step_length _ h).trans hgone
  have hlast : linesOf n ((run logged t before).1.lines h) = [] := by
    apply lines_other
    intro upstream f _ hthere
    rw [hwas] at hthere
    cases hthere
  rw [linesOf, List.filterMap_append, ← linesOf, ← linesOf, hbefore hwas]
  exact hlast

/-- **The rule for the notes and the lines of one flight.** -/
theorem run_trail {I : Flight X → List Note → List Line → Prop} {t : Service X}
    {hs : List Happening} (ht : t.flights = []) {n : Nat}
    (hnew : ∀ cfg generated req peerIp, I (Flight.start cfg generated req peerIp) [] [])
    (hmove : ∀ f notes log upstream s m, .move n upstream ∈ hs → I f notes log →
      let r := f.move t.process.pipeline upstream s m
      I { f with point := r.point } (notes ++ f.seen r)
        (log ++ f.lines t.process.pipeline upstream s))
    {f : Flight X} (hf : (run step t hs).1.flights[n]? = some f) :
    I f (notesOf n (run step t hs).2) (linesOf n (run logged t hs).2) := by
  induction hs using List.reverseRecOn generalizing f with
  | nil =>
      rw [run_nil, ht] at hf
      cases hf
  | append_singleton before h ih =>
      have hbefore : ∀ {f}, (run step t before).1.flights[n]? = some f →
          I f (notesOf n (run step t before).2) (linesOf n (run logged t before).2) :=
        ih fun f notes log upstream s m hmem =>
          hmove f notes log upstream s m (List.mem_append_left _ hmem)
      have hlines : linesOf n (run logged t (before ++ [h])).2 =
          linesOf n (run logged t before).2 ++ linesOf n ((run step t before).1.lines h) := by
        rw [← run_logged, run_append, linesOf, List.filterMap_append]
        simp [linesOf, logged]
      have hnotes : notesOf n (run step t (before ++ [h])).2 =
          notesOf n (run step t before).2 ++ notesOf n ((run step t before).1.step h).2 := by
        rw [run_append, notesOf_append]
        simp
      have hpipeline : (run step t before).1.process.pipeline = t.process.pipeline :=
        run_pipeline ..
      have hlast : ((run step t before).1.step h).1.flights[n]? = some f := by
        rw [run_append] at hf
        exact hf
      rw [hnotes, hlines]
      obtain ⟨hstay, hquiet, hother⟩ | ⟨hgone, hquiet, _, _, _, rfl, rfl⟩ |
        ⟨f, upstream, rfl, hthere, rfl, hseen⟩ := step_flight _ h hlast
      · rw [hquiet, lines_other _ fun upstream _ heq => absurd heq (hother upstream),
          List.append_nil, List.append_nil]
        exact hbefore hstay
      · rw [hquiet, run_notes hgone, run_lines_none hgone]
        exact hnew _ _ _ _
      · have hwritten : linesOf n ((run step t before).1.lines (.move n upstream)) =
            f.lines t.process.pipeline upstream (run step t before).1.process.shared := by
          simp only [lines, hthere, hpipeline, linesOf_self]
        rw [hseen, hwritten, hpipeline]
        exact hmove f _ _ upstream _ _ (by simp) (hbefore hthere)

end Service

/-- **Every answer is accounted for.** Whatever is in flight: a request that was refused before it
was sent, or by the decision on the reply, has one line about the refusal, the last one; one the
upstream failed has one warning; one that was served has neither. All other lines are notices, or
of blocks that detect mode let through. -/
theorem refusals_audited {t : Service X} (ht : t.flights = []) (hs : List Happening) {n : Nat}
    {f : Flight X} (hf : (run Service.step t hs).1.flights[n]? = some f) {resp : Response}
    (hanswered : f.point = .answered resp) :
    f.Ends (fun upstream => .move n upstream ∈ hs) resp (notesOf n (run Service.step t hs).2)
      (linesOf n (run Service.logged t hs).2) := by
  have htrail : f.Trail (fun upstream => .move n upstream ∈ hs) f.point
      (notesOf n (run Service.step t hs).2) (linesOf n (run Service.logged t hs).2) := by
    refine Service.run_trail (I := fun f notes lines =>
      f.Trail (fun upstream => .move n upstream ∈ hs) f.point notes lines) ht ?_ ?_ hf
    · intro cfg generated req peerIp
      exact ⟨fun line hline => absurd hline List.not_mem_nil,
        fun note hnote => absurd hnote List.not_mem_nil⟩
    · intro f notes log upstream s m hmem h
      obtain ⟨answers, hseen, hwhen⟩ := f.seen_move t.process.pipeline upstream s m
      have hmoved := f.trail_move t.process.pipeline s m hmem h
      apply Flight.trail_withPoint
      rw [hseen, ← List.append_assoc]
      exact Flight.trail_append hmoved answers hwhen
  rw [hanswered] at htrail
  exact htrail

/-- The login arrives and makes as many moves as it takes to be answered. -/
def loginAnswered : List Happening := [loginArrives] ++ List.replicate 15 (.move 0 loginUpstream)

/-- The login, once it has moved fifteen times. -/
theorem refusals_audited_login : ∃ f resp,
    (run Service.step loginService loginAnswered).1.flights[0]? = some f ∧
    f.point = .answered resp ∧
    f.Ends (fun upstream => .move 0 upstream ∈ loginAnswered) resp
      (notesOf 0 (run Service.step loginService loginAnswered).2)
      (linesOf 0 (run Service.logged loginService loginAnswered).2) := by
  obtain ⟨f, resp, hthere, hanswered⟩ := Service.run_answered loginService_flights [loginArrives]
    (List.replicate 15 (.move 0 loginUpstream)) login_arrived login_moves
  exact ⟨f, resp, hthere, hanswered,
    refusals_audited loginService_flights loginAnswered hthere hanswered⟩

end BuduWaf.Traffic
