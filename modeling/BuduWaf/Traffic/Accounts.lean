import BuduWaf.Proxy.Enforcement
import BuduWaf.Traffic.Service

/-!
# `budu`: what the log of a request says

Whatever happens in between, what was seen of a request accounts for how far it is.

* **`Account`**: the log a flight has at each point: the stages it has passed, each asked about
  the context the one before left and the shared state of that moment (`Passed`), the phases that
  let it through (`Through`), the call of `forward`, the answer.
* **`account_move`**: a move keeps the account, and so does every run (`run_account`).
* **`sent_was_admitted`**: what is sent has been let through, **`answered_once`**: every request is
  answered exactly once, and sent at most once.

The account is an invariant of a flight and of what was seen of it, with one case for each point. It
speaks about states the service went through since the request arrived, as an arbitrary set of
states, so that the lemmas on moves need not know about runs. Everything else is read off it: that a
flight is not answered twice, since an answered one does not move, and that a call of `forward` has
two phases before it that let the request through.
-/

namespace BuduWaf.Traffic

open Rules RateLimit Reputation Pipeline Proxy Supervisor

variable {X : Crates}

/-! ## Accounts -/

/-- What does not stop a request: to allow it, or a block that is only counted.
Source: `budu-proxy/src/lib.rs` `Proxy::act_on` -/
def Flight.Lets (f : Flight X) (d : WafDecision) : Prop :=
  d = .allow ∨ f.detect = true ∧ d.isBlock = true

/-- A decision lets a request through iff `act_on` gives no answer. -/
theorem Flight.lets_iff {f : Flight X} {d : WafDecision} {m : Metrics} :
    f.Lets d ↔ (actOn d f.detect m).1 = none := actOn_eq_none_iff.symm

section accounts

variable (S : Shared X → Prop) (onError : OnError)

/-- The request has passed the stages one after the other, and was asked about in between. -/
inductive Passed (ctx : RequestCtx) : List (Stage (World X)) → List Note → RequestCtx → Prop
  | nil : Passed ctx [] [] ctx
  | concat {stages : List (Stage (World X))} {notes : List Note} {ctx' : RequestCtx}
      (before : Passed ctx stages notes ctx') (stage : Stage (World X)) (s : Shared X) (now : S s)
      (pass : (stageStep onError stage ((ctx', s), [])).1 = none) :
      Passed ctx (stages ++ [stage])
        (notes ++ [.inspected stage.name ctx' (stage.inspect (ctx', s)).1])
        (stage.inspect (ctx', s)).2.1

/-- One stage has decided, after the ones before it were passed. -/
inductive Decided (ctx : RequestCtx) (d : WafDecision) :
    List (Stage (World X)) → List Note → RequestCtx → Prop
  | intro {stages : List (Stage (World X))} {notes : List Note} {ctx' : RequestCtx}
      (before : Passed S onError ctx stages notes ctx') (stage : Stage (World X))
      (rest : List (Stage (World X))) (s : Shared X) (now : S s)
      (decides : (stageStep onError stage ((ctx', s), [])).1 = some d) :
      Decided ctx d (stages ++ stage :: rest)
        (notes ++ [.inspected stage.name ctx' (stage.inspect (ctx', s)).1])
        (stage.inspect (ctx', s)).2.1

/-- A phase has let the request through. -/
def Through (f : Flight X) (ctx : RequestCtx) (stages : List (Stage (World X))) (notes : List Note)
    (ctx' : RequestCtx) : Prop :=
  Passed S onError ctx stages notes ctx' ∨
    ∃ d, f.Lets d ∧ Decided S onError ctx d stages notes ctx'

end accounts

section flights

variable (S : Shared X → Prop) (p : Pipeline X) (f : Flight X)

/-- The early stages have let the request through. -/
def EarlyThrough (log : List Note) (ctx : RequestCtx) : Prop :=
  ∃ notes, log = .allowlisted false :: notes ∧
    Through S p.onError f (newCtx f.req.parts f.client) p.early notes ctx

/-- The body gate opens: the context the late stages start from, and the body that is forwarded. -/
def Opens (ctx ctx' : RequestCtx) (body : RespBody) (len : Option Nat) : Prop :=
  (∃ bytes, bodyGate f.cfg f.req = .buffered bytes ∧ ctx' = { ctx with body := .buffered bytes } ∧
      body = .full bytes ∧ len = some bytes.length) ∨
    bodyGate f.cfg f.req = .streamed ∧ ctx' = ctx ∧ body = .stream f.req.body ∧ len = none

/-- The request has been let through, with the body that is forwarded. -/
def Admitted (inspected : Bool) (body : RespBody) (len : Option Nat) (log : List Note) : Prop :=
  if inspected then
    ∃ early ctx ctx' late ctx'', log = early ++ late ∧ EarlyThrough S p f early ctx ∧
      Opens f ctx ctx' body len ∧ Through S p.onError f ctx' p.late late ctx''
  else
    log = [.allowlisted true] ∧ body = .stream f.req.body ∧ len = none ∧
      ∃ s, S s ∧ isWhitelisted s f.client.ip = true

/-- The request has been let through and sent. -/
def Sent (inspected : Bool) (call : ForwardCall) (log : List Note) : Prop :=
  ∃ before body len, Admitted S p f inspected body len before ∧ call = f.callWith body len ∧
    log = before ++ [.sent call]

/-- The request has been refused before it was sent: by a decision that does not let it through,
or by the body gate. -/
def Refused (log : List Note) (resp : Response) : Prop :=
  (∃ d notes ctx, ¬ f.Lets d ∧ log = .allowlisted false :: notes ∧ resp = decisionResponse d ∧
      Decided S p.onError (newCtx f.req.parts f.client) d p.early notes ctx) ∨
    (∃ ctx, EarlyThrough S p f log ctx ∧ bodyGate f.cfg f.req = .tooLarge ∧
      resp = decisionResponse bodyTooLarge) ∨
    ∃ d early late ctx ctx' ctx'' body len, ¬ f.Lets d ∧ log = early ++ late ∧
      resp = decisionResponse d ∧ EarlyThrough S p f early ctx ∧ Opens f ctx ctx' body len ∧
      Decided S p.onError ctx' d p.late late ctx''

/-- The request has been sent, and what came back was judged if it was. -/
def Served (log : List Note) : Prop :=
  (∃ inspected call, Sent S p f inspected call log) ∨
    ∃ before call d, Sent S p f true call before ∧ log = before ++ [.judged d]

/-- **What has been seen of a flight** that has reached a point. -/
def Account : Point X → List Note → Prop
  | .arrived, log => log = []
  | .early ctx rest, log => ∃ stages notes, p.early = stages ++ rest ∧
      log = .allowlisted false :: notes ∧
      Passed S p.onError (newCtx f.req.parts f.client) stages notes ctx
  | .gate ctx, log => EarlyThrough S p f log ctx
  | .late ctx body len rest, log => ∃ early ctx₀ ctx₁ stages late, log = early ++ late ∧
      EarlyThrough S p f early ctx₀ ∧ Opens f ctx₀ ctx₁ body len ∧ p.late = stages ++ rest ∧
      Passed S p.onError ctx₁ stages late ctx
  | .admitted inspected body len, log => Admitted S p f inspected body len log
  | .waiting inspected call, log => Sent S p f inspected call log
  | .replied _, log => ∃ call, Sent S p f true call log
  | .judging _ _, log => ∃ call, Sent S p f true call log
  | .answered resp, log => ∃ before, log = before ++ [.answered (f.echo resp)] ∧
      (Refused S p f before resp ∨ Served S p f before)

end flights

/-! ## A move keeps the account -/

namespace Flight

variable {S : Shared X → Prop} {p : Pipeline X} {f : Flight X} {s : Shared X} {m : Metrics}

/-- A move that does not answer is seen as what it notes. -/
theorem seen_of_none {r : Moved X Note} (h : f.point.answer? = none)
    (hr : r.point.answer? = none) : f.seen r = r.notes := by
  simp [seen, h, hr]

/-- A move that answers is seen as what it notes, and then the answer. -/
theorem seen_of_some {r : Moved X Note} {resp : Response} (h : f.point.answer? = none)
    (hr : r.point = .answered resp) : f.seen r = r.notes ++ [.answered (f.echo resp)] := by
  have hanswer : r.point.answer? = some resp := by rw [hr]; rfl
  simp [seen, h, hanswer]

/-- One stage does one of three things: it is passed, or decides and lets through, or refuses. -/
theorem runStage_cases (onError : OnError) (stage : Stage (World X)) (ctx : RequestCtx)
    (more done : RequestCtx → Point X) (s : Shared X) (m : Metrics) :
    let r := f.runStage onError stage ctx more done s m
    let ctx' := (stage.inspect (ctx, s)).2.1
    r.notes = [.inspected stage.name ctx (stage.inspect (ctx, s)).1] ∧
      ((stageStep onError stage ((ctx, s), [])).1 = none ∧ r.point = more ctx' ∨
        ∃ d, (stageStep onError stage ((ctx, s), [])).1 = some d ∧
          (f.Lets d ∧ r.point = done ctx' ∨
            ¬ f.Lets d ∧ r.point = .answered (decisionResponse d))) := by
  refine ⟨runStage_notes f onError stage ctx more done s m, ?_⟩
  rw [runStage_point]
  rcases (stageStep onError stage ((ctx, s), [])).1 with _ | d
  · exact .inl ⟨rfl, rfl⟩
  · refine .inr ⟨d, rfl, ?_⟩
    by_cases hlets : f.Lets d
    · refine .inl ⟨hlets, ?_⟩
      rw [Option.elim_some, lets_iff.1 hlets]
      rfl
    · refine .inr ⟨hlets, ?_⟩
      have hacts : (actOn d f.detect m).1 = some (decisionResponse d) := by
        rw [lets_iff (m := m)] at hlets
        cases d with
        | allow => simp [actOn] at hlets
        | block => cases hdetect : f.detect <;> simp [actOn, hdetect] at hlets ⊢
        | rateLimited => rfl
      rw [Option.elim_some, hacts]
      rfl

/-- **A stage of a phase keeps the account**: `before` was seen before the phase, which began with
`ctx₀` and has come to `stage`. The phase goes on, or has let the request through, or refuses it. -/
theorem account_stage {ctx₀ ctx : RequestCtx} {all stages rest : List (Stage (World X))}
    {stage : Stage (World X)} (before : List Note) {notes : List Note}
    {more done : RequestCtx → Point X}
    (hopen : f.point.answer? = none) (hs : S s) (hall : all = stages ++ stage :: rest)
    (hpassed : Passed S p.onError ctx₀ stages notes ctx)
    (hmore : ∀ notes ctx', Passed S p.onError ctx₀ (stages ++ [stage]) notes ctx' →
      (more ctx').answer? = none ∧ Account S p f (more ctx') (before ++ notes))
    (hdone : ∀ notes ctx', Through S p.onError f ctx₀ all notes ctx' →
      (done ctx').answer? = none ∧ Account S p f (done ctx') (before ++ notes))
    (hrefused : ∀ d notes ctx', ¬ f.Lets d → Decided S p.onError ctx₀ d all notes ctx' →
      Refused S p f (before ++ notes) (decisionResponse d)) :
    let r := f.runStage p.onError stage ctx more done s m
    Account S p f r.point (before ++ notes ++ f.seen r) := by
  intro r
  obtain ⟨hnotes, ⟨hnone, hnext⟩ | ⟨d, hsome, hends⟩⟩ :=
    f.runStage_cases p.onError stage ctx more done s m
  · obtain ⟨hstill, haccount⟩ := hmore _ _ (hpassed.concat stage s hs hnone)
    have hseen : f.seen r = r.notes := seen_of_none hopen (by rw [hnext]; exact hstill)
    rw [hnext, hseen, hnotes, List.append_assoc]
    exact haccount
  · have hdecided : Decided S p.onError ctx₀ d all
        (notes ++ [.inspected stage.name ctx (stage.inspect (ctx, s)).1])
        (stage.inspect (ctx, s)).2.1 := by
      rw [hall]
      exact .intro hpassed stage rest s hs hsome
    rcases hends with ⟨hlets, hnext⟩ | ⟨hrefuses, hnext⟩
    · obtain ⟨hstill, haccount⟩ := hdone _ _ (.inr ⟨d, hlets, hdecided⟩)
      have hseen : f.seen r = r.notes := seen_of_none hopen (by rw [hnext]; exact hstill)
      rw [hnext, hseen, hnotes, List.append_assoc]
      exact haccount
    · rw [hnext, seen_of_some hopen hnext, hnotes, ← List.append_assoc, List.append_assoc before]
      exact ⟨_, rfl, .inl (hrefused d _ _ hrefuses hdecided)⟩

/-- A request that was sent and not answered yet has an account with any answer. -/
theorem account_answered {resp : Response} {log notes : List Note}
    (h : Served S p f (log ++ notes)) :
    Account S p f (.answered resp) (log ++ (notes ++ [.answered (f.echo resp)])) :=
  ⟨log ++ notes, (List.append_assoc _ _ _).symm, .inr h⟩

/-- **A move keeps the account**: what it notes accounts for where it leads. -/
theorem account_move (upstream : OutRequest → UpstreamResult) {log : List Note} (hs : S s)
    (h : Account S p f f.point log) :
    let r := f.move p upstream s m
    Account S p f r.point (log ++ f.seen r) := by
  cases hpoint : f.point with
  | arrived =>
      rw [hpoint] at h
      obtain rfl : log = [] := h
      cases hlisted : isWhitelisted s f.client.ip with
      | false =>
          simp only [move, hpoint, hlisted, Bool.false_eq_true, if_false]
          rw [seen_of_none (by rw [hpoint]; rfl) rfl]
          exact ⟨[], [], rfl, rfl, .nil⟩
      | true =>
          simp only [move, hpoint, hlisted, if_true]
          rw [seen_of_none (by rw [hpoint]; rfl) rfl]
          exact ⟨rfl, rfl, rfl, s, hs, hlisted⟩
  | early ctx rest =>
      rw [hpoint] at h
      cases rest with
      | nil =>
          obtain ⟨stages, notes, hearly, rfl, hpassed⟩ := h
          rw [List.append_nil] at hearly
          simp only [move, hpoint]
          rw [seen_of_none (by rw [hpoint]; rfl) rfl, List.append_nil]
          exact ⟨notes, rfl, .inl (hearly ▸ hpassed)⟩
      | cons stage rest =>
          have hmove : f.move p upstream s m =
              f.runStage p.onError stage ctx (fun ctx => .early ctx rest) .gate s m := by
            simp only [move, hpoint]
          obtain ⟨stages, notes, hearly, rfl, hpassed⟩ := h
          rw [hmove]
          refine account_stage [.allowlisted false] (by rw [hpoint]; rfl) hs hearly hpassed ?_ ?_ ?_
          · intro notes' ctx' hpassed'
            exact ⟨rfl, _, notes', by rw [hearly, List.append_assoc]; rfl, rfl, hpassed'⟩
          · exact fun notes' ctx' hthrough => ⟨rfl, notes', rfl, hthrough⟩
          · exact fun d notes' ctx' hrefuses hdecided =>
              .inl ⟨d, notes', ctx', hrefuses, rfl, rfl, hdecided⟩
  | gate ctx =>
      rw [hpoint] at h
      have hpassed : EarlyThrough S p f log ctx := h
      cases hgate : bodyGate f.cfg f.req with
      | tooLarge =>
          simp only [move, hpoint, hgate]
          rw [seen_of_some (by rw [hpoint]; rfl) rfl]
          exact ⟨log, rfl, .inl (.inr (.inl ⟨ctx, hpassed, hgate, rfl⟩))⟩
      | buffered bytes =>
          simp only [move, hpoint, hgate]
          rw [seen_of_none (by rw [hpoint]; rfl) rfl]
          exact ⟨log, ctx, _, [], [], rfl, hpassed, .inl ⟨bytes, hgate, rfl, rfl, rfl⟩, rfl, .nil⟩
      | streamed =>
          simp only [move, hpoint, hgate]
          rw [seen_of_none (by rw [hpoint]; rfl) rfl]
          exact ⟨log, ctx, _, [], [], rfl, hpassed, .inr ⟨hgate, rfl, rfl, rfl⟩, rfl, .nil⟩
  | late ctx body len rest =>
      rw [hpoint] at h
      cases rest with
      | nil =>
          obtain ⟨early, ctx₀, ctx₁, stages, late, rfl, hearly, hopens, hlate, hpassed⟩ := h
          rw [List.append_nil] at hlate
          simp only [move, hpoint]
          rw [seen_of_none (by rw [hpoint]; rfl) rfl, List.append_nil]
          exact ⟨early, ctx₀, ctx₁, late, ctx, rfl, hearly, hopens, .inl (hlate ▸ hpassed)⟩
      | cons stage rest =>
          have hmove : f.move p upstream s m =
              f.runStage p.onError stage ctx (fun ctx => .late ctx body len rest)
                (fun _ => .admitted true body len) s m := by
            simp only [move, hpoint]
          obtain ⟨early, ctx₀, ctx₁, stages, late, rfl, hearly, hopens, hlate, hpassed⟩ := h
          rw [hmove]
          refine account_stage early (by rw [hpoint]; rfl) hs hlate hpassed ?_ ?_ ?_
          · intro notes' ctx' hpassed'
            refine ⟨rfl, early, ctx₀, ctx₁, _, notes', rfl, hearly, hopens, ?_, hpassed'⟩
            rw [hlate, List.append_assoc]
            rfl
          · exact fun notes' ctx' hthrough =>
              ⟨rfl, early, ctx₀, ctx₁, notes', ctx', rfl, hearly, hopens, hthrough⟩
          · exact fun d notes' ctx' hrefuses hdecided => .inr (.inr
              ⟨d, early, notes', ctx₀, ctx₁, ctx', body, len, hrefuses, rfl, rfl, hearly, hopens,
                hdecided⟩)
  | admitted inspected body len =>
      rw [hpoint] at h
      simp only [move, hpoint]
      rw [seen_of_none (by rw [hpoint]; rfl) rfl]
      exact ⟨log, body, len, h, rfl, rfl⟩
  | waiting inspected call =>
      rw [hpoint] at h
      have hsent : Sent S p f inspected call (log ++ []) := by rwa [List.append_nil]
      cases hresult : forwardResult X f.cfg (quietEnv (X := X) upstream) call with
      | error e =>
          simp only [move, hpoint, hresult]
          rw [seen_of_some (by rw [hpoint]; rfl) rfl]
          exact account_answered (.inl ⟨_, _, hsent⟩)
      | ok resp =>
          simp only [move, hpoint, hresult]
          cases inspected with
          | true =>
              rw [seen_of_none (by rw [hpoint]; rfl) rfl]
              exact ⟨call, hsent⟩
          | false =>
              rw [seen_of_some (by rw [hpoint]; rfl) rfl]
              exact account_answered (.inl ⟨_, _, hsent⟩)
  | replied resp =>
      rw [hpoint] at h
      obtain ⟨call, hsent⟩ : ∃ call, Sent S p f true call (log ++ []) := by rwa [List.append_nil]
      cases hbuffers : buffersReply p.engine f.cfg resp s with
      | false =>
          simp only [move, hpoint, hbuffers, Bool.false_eq_true, if_false]
          rw [seen_of_none (by rw [hpoint]; rfl) rfl]
          exact ⟨call, hsent⟩
      | true =>
          simp only [move, hpoint, hbuffers, if_true]
          cases bufferFrames f.cfg.limits.maxInspectBody.toNat resp.body.toStream.failure []
              resp.body.toStream.frames with
          | done bytes =>
              rw [seen_of_none (by rw [hpoint]; rfl) rfl]
              exact ⟨call, hsent⟩
          | tooLarge =>
              rw [seen_of_some (by rw [hpoint]; rfl) rfl]
              exact account_answered (.inl ⟨_, _, hsent⟩)
          | readError =>
              rw [seen_of_some (by rw [hpoint]; rfl) rfl]
              exact account_answered (.inl ⟨_, _, hsent⟩)
  | judging resp held =>
      rw [hpoint] at h
      obtain ⟨call, hsent⟩ : ∃ call, Sent S p f true call log := h
      simp only [move, hpoint, judge]
      rw [seen_of_some (by rw [hpoint]; rfl) rfl]
      exact account_answered (.inr ⟨_, call, _, hsent, rfl⟩)
  | answered resp =>
      rw [hpoint] at h
      simp only [move, hpoint]
      have hseen : f.seen (⟨.answered resp, s, m, []⟩ : Moved X Note) = [] := by
        simp [seen, hpoint, Point.answer?]
      rw [hseen, List.append_nil]
      exact h

/-- The account is about the request, not about the point. -/
theorem account_withPoint {point q : Point X} {log : List Note} :
    Account S p { f with point := point } q log ↔ Account S p f q log := by
  cases q <;> rfl

end Flight

/-! ## Runs -/

namespace Service

/-- The shared states a run goes through while a request is there. -/
def StateOf (t : Service X) (hs : List Happening) (n : Nat) (s : Shared X) : Prop :=
  ∃ before after, hs = before ++ after ∧ n < (run step t before).1.flights.length ∧
    s = (run step t before).1.process.shared

/-- **The account holds in every run.** -/
theorem run_account {t : Service X} {hs : List Happening} (ht : t.flights = []) {n : Nat}
    {f : Flight X} (hf : (run step t hs).1.flights[n]? = some f) :
    Account (t.StateOf hs n) t.process.pipeline f f.point (notesOf n (run step t hs).2) := by
  refine run_flight (I := fun f log => Account (t.StateOf hs n) t.process.pipeline f f.point log)
    (S := t.StateOf hs n) ht ?_ ?_ ?_ hf
  · exact fun before after hes hlen => ⟨before, after, hes, hlen, rfl⟩
  · exact fun _ _ _ _ => rfl
  · intro f log upstream s m hs h
    exact Flight.account_withPoint.2 (Flight.account_move upstream hs h)

end Service

/-! ## What is sent -/

/-- The logs of a request that was not sent: the allowlist and the stages were asked. -/
def Unsent (log : List Note) : Prop :=
  ∀ note ∈ log, (∃ listed, note = .allowlisted listed) ∨
    ∃ stage ctx result, note = .inspected stage ctx result

section unsent

variable {S : Shared X → Prop} {p : Pipeline X} {f : Flight X}

/-- Two logs without calls and answers make one, in a row. -/
theorem Unsent.append {log log' : List Note} (h : Unsent log) (h' : Unsent log') :
    Unsent (log ++ log') := by
  intro note hnote
  rcases List.mem_append.1 hnote with hnote | hnote
  · exact h note hnote
  · exact h' note hnote

/-- The note about a stage is neither a call nor an answer. -/
theorem Unsent.of_inspected (stage : Str) (ctx : RequestCtx) (result : StageResult) :
    Unsent [.inspected stage ctx result] := by
  intro note hnote
  exact .inr ⟨stage, ctx, result, List.mem_singleton.1 hnote⟩

/-- The note about the allowlist is neither a call nor an answer. -/
theorem Unsent.of_allowlisted (listed : Bool) : Unsent [.allowlisted listed] := by
  intro note hnote
  exact .inl ⟨listed, List.mem_singleton.1 hnote⟩

/-- In the log of a request that was not sent no call is noted. -/
theorem Unsent.sentCalls_eq {log : List Note} (h : Unsent log) : sentCalls log = [] := by
  apply List.filterMap_eq_nil_iff.2
  intro note hnote
  obtain ⟨listed, rfl⟩ | ⟨stage, ctx, result, rfl⟩ := h note hnote <;> rfl

/-- In the log of a request that was not sent no answer is noted yet. -/
theorem Unsent.answered_not_mem {log : List Note} (h : Unsent log) (resp : Response) :
    .answered resp ∉ log := by
  intro hmem
  obtain ⟨listed, heq⟩ | ⟨stage, ctx, result, heq⟩ := h _ hmem <;> cases heq

/-- While stages are passed no call is made and nothing is answered. -/
theorem unsent_of_passed {onError : OnError} {ctx ctx' : RequestCtx}
    {stages : List (Stage (World X))} {notes : List Note}
    (h : Passed S onError ctx stages notes ctx') : Unsent notes := by
  induction h with
  | nil => exact fun note hnote => absurd hnote List.not_mem_nil
  | concat before stage s now pass ih => exact ih.append (.of_inspected _ _ _)

/-- Up to the stage that decides no call is made and nothing is answered. -/
theorem unsent_of_decided {onError : OnError} {ctx ctx' : RequestCtx} {d : WafDecision}
    {stages : List (Stage (World X))} {notes : List Note}
    (h : Decided S onError ctx d stages notes ctx') : Unsent notes := by
  cases h with
  | intro before stage rest s now decides =>
      exact (unsent_of_passed before).append (.of_inspected _ _ _)

/-- While a phase lets a request through no call is made and nothing is answered. -/
theorem unsent_of_through {onError : OnError} {ctx ctx' : RequestCtx}
    {stages : List (Stage (World X))} {notes : List Note}
    (h : Through S onError f ctx stages notes ctx') : Unsent notes := by
  obtain h | ⟨d, -, h⟩ := h
  · exact unsent_of_passed h
  · exact unsent_of_decided h

/-- A request that is through with its early phase has made no call and has no answer. -/
theorem unsent_of_earlyThrough {log : List Note} {ctx : RequestCtx}
    (h : EarlyThrough S p f log ctx) : Unsent log := by
  obtain ⟨notes, rfl, h⟩ := h
  exact (Unsent.of_allowlisted false).append (unsent_of_through h)

/-- A request that was admitted has made no call and has no answer up to then. -/
theorem unsent_of_admitted {inspected : Bool} {body : RespBody} {len : Option Nat}
    {log : List Note} (h : Admitted S p f inspected body len log) : Unsent log := by
  cases inspected with
  | true =>
      obtain ⟨early, ctx, ctx', late, ctx'', rfl, hearly, -, hlate⟩ := h
      exact (unsent_of_earlyThrough hearly).append (unsent_of_through hlate)
  | false =>
      obtain ⟨rfl, -⟩ := h
      exact .of_allowlisted true

/-- A request that was refused has made no call, and had no answer before. -/
theorem unsent_of_refused {log : List Note} {resp : Response} (h : Refused S p f log resp) :
    Unsent log := by
  obtain ⟨d, notes, ctx, -, rfl, -, h⟩ | ⟨ctx, h, -⟩ |
    ⟨d, early, late, ctx, ctx', ctx'', body, len, -, rfl, -, hearly, -, hlate⟩ := h
  · exact (Unsent.of_allowlisted false).append (unsent_of_decided h)
  · exact unsent_of_earlyThrough h
  · exact (unsent_of_earlyThrough hearly).append (unsent_of_decided hlate)

/-- What was sent was sent once, after what let it through. -/
theorem sentCalls_of_sent {inspected : Bool} {call : ForwardCall} {log : List Note}
    (h : Sent S p f inspected call log) :
    sentCalls log = [call] ∧ ∀ resp, .answered resp ∉ log := by
  obtain ⟨before, body, len, hadmitted, -, rfl⟩ := h
  have hunsent := unsent_of_admitted hadmitted
  constructor
  · rw [Solo.sentCalls_append, hunsent.sentCalls_eq]
    rfl
  · intro resp hmem
    rcases List.mem_append.1 hmem with hmem | hmem
    · exact hunsent.answered_not_mem resp hmem
    · cases List.mem_singleton.1 hmem

/-- A request that was served made exactly one call, after what admitted it. -/
theorem sentCalls_of_served {log : List Note} (h : Served S p f log) :
    ∃ inspected call before rest, Sent S p f inspected call before ∧ log = before ++ rest ∧
      sentCalls log = [call] ∧ ∀ resp, .answered resp ∉ log := by
  obtain ⟨inspected, call, h⟩ | ⟨before, call, d, h, rfl⟩ := h
  · obtain ⟨hcalls, hanswers⟩ := sentCalls_of_sent h
    exact ⟨inspected, call, log, [], h, (List.append_nil _).symm, hcalls, hanswers⟩
  · obtain ⟨hcalls, hanswers⟩ := sentCalls_of_sent h
    refine ⟨true, call, before, _, h, rfl, ?_, ?_⟩
    · rw [Solo.sentCalls_append, hcalls]
      rfl
    · intro resp hmem
      rcases List.mem_append.1 hmem with hmem | hmem
      · exact hanswers resp hmem
      · cases List.mem_singleton.1 hmem

variable (S p f) in
/-- Nothing was sent, or one call was, after what let it through. -/
def SentOnce (log : List Note) : Prop :=
  sentCalls log = [] ∨ ∃ inspected call before rest, Sent S p f inspected call before ∧
    log = before ++ rest ∧ sentCalls log = [call]

/-- A log without a call has at most one. -/
theorem SentOnce.of_unsent {log : List Note} (h : Unsent log) : SentOnce S p f log :=
  .inl h.sentCalls_eq

/-- A log that ends with the first call has exactly one. -/
theorem SentOnce.of_sent {inspected : Bool} {call : ForwardCall} {log : List Note}
    (h : Sent S p f inspected call log) : SentOnce S p f log :=
  .inr ⟨inspected, call, log, [], h, (List.append_nil _).symm, (sentCalls_of_sent h).1⟩

/-- A note that sends nothing keeps it so. -/
theorem SentOnce.concat {log : List Note} (h : SentOnce S p f log) (resp : Response) :
    SentOnce S p f (log ++ [.answered resp]) := by
  have hcalls : sentCalls (log ++ [.answered resp]) = sentCalls log := by
    rw [Solo.sentCalls_append]
    exact List.append_nil _
  obtain h | ⟨inspected, call, before, rest, hsent, rfl, h⟩ := h
  · exact .inl (hcalls.trans h)
  · exact .inr ⟨inspected, call, before, rest ++ [.answered resp], hsent,
      List.append_assoc _ _ _, hcalls.trans h⟩

/-- Before the answer nothing was sent, or the call was. -/
theorem account_open {log : List Note} (h : Account S p f f.point log)
    (hopen : f.point.answer? = none) :
    Unsent log ∨ ∃ inspected call, Sent S p f inspected call log := by
  cases hpoint : f.point with
  | arrived =>
      rw [hpoint] at h
      obtain rfl : log = [] := h
      exact .inl fun note hnote => absurd hnote List.not_mem_nil
  | early ctx rest =>
      rw [hpoint] at h
      obtain ⟨stages, notes, -, rfl, hpassed⟩ := h
      exact .inl ((Unsent.of_allowlisted false).append (unsent_of_passed hpassed))
  | gate ctx =>
      rw [hpoint] at h
      exact .inl (unsent_of_earlyThrough h)
  | late ctx body len rest =>
      rw [hpoint] at h
      obtain ⟨early, ctx₀, ctx₁, stages, late, rfl, hearly, -, -, hpassed⟩ := h
      exact .inl ((unsent_of_earlyThrough hearly).append (unsent_of_passed hpassed))
  | admitted inspected body len =>
      rw [hpoint] at h
      exact .inl (unsent_of_admitted h)
  | waiting inspected call =>
      rw [hpoint] at h
      exact .inr ⟨inspected, call, h⟩
  | replied resp =>
      rw [hpoint] at h
      exact .inr ⟨true, h⟩
  | judging resp held =>
      rw [hpoint] at h
      exact .inr ⟨true, h⟩
  | answered resp =>
      rw [hpoint] at hopen
      cases hopen

/-- **One call at most**, after what let it through. -/
theorem account_sentOnce {log : List Note} (h : Account S p f f.point log) :
    SentOnce S p f log := by
  cases hanswer : f.point.answer? with
  | none =>
      obtain hunsent | ⟨inspected, call, hsent⟩ := account_open h hanswer
      · exact .of_unsent hunsent
      · exact .of_sent hsent
  | some resp =>
      cases hpoint : f.point <;> rw [hpoint] at hanswer h <;> try cases hanswer
      obtain ⟨before, rfl, hrefused | hserved⟩ := h
      · exact (SentOnce.of_unsent (unsent_of_refused hrefused)).concat _
      · obtain ⟨inspected, call, sent, rest, hsent, rfl, hcalls, -⟩ := sentCalls_of_served hserved
        exact SentOnce.concat (.inr ⟨inspected, call, sent, rest, hsent, rfl, hcalls⟩) _

/-- **One answer at most**, and nothing after it. -/
theorem account_answer {log : List Note} (h : Account S p f f.point log) {resp : Response}
    (hanswer : f.point.answer? = some resp) :
    ∃ before, log = before ++ [.answered (f.echo resp)] ∧ ∀ resp, .answered resp ∉ before := by
  cases hpoint : f.point <;> rw [hpoint] at hanswer h <;> try cases hanswer
  obtain ⟨before, rfl, hrefused | hserved⟩ := h
  · exact ⟨before, rfl, (unsent_of_refused hrefused).answered_not_mem⟩
  · obtain ⟨_, _, _, _, -, -, -, hanswers⟩ := sentCalls_of_served hserved
    exact ⟨before, rfl, hanswers⟩

end unsent

/-- **What is sent has been let through**: in every run, a call of `forward` comes after the
allowlist has let its request pass uninspected, or after the early stages, the body gate and the
late stages have, each stage asked at a state since the arrival; and it carries the body that was
inspected. -/
theorem sent_was_admitted {t : Service X} {hs : List Happening} (ht : t.flights = []) {n : Nat}
    {call : ForwardCall} (hsent : (n, .sent call) ∈ (run Service.step t hs).2) :
    ∃ f inspected body len before rest, (run Service.step t hs).1.flights[n]? = some f ∧
      notesOf n (run Service.step t hs).2 = before ++ .sent call :: rest ∧
      Admitted (t.StateOf hs n) t.process.pipeline f inspected body len before ∧
      call = f.callWith body len := by
  have hmem : .sent call ∈ notesOf n (run Service.step t hs).2 := mem_notesOf.2 hsent
  cases hf : (run Service.step t hs).1.flights[n]? with
  | none =>
      rw [Service.run_notes hf] at hmem
      cases hmem
  | some f =>
      have hcall : call ∈ sentCalls (notesOf n (run Service.step t hs).2) :=
        List.mem_filterMap.2 ⟨_, hmem, rfl⟩
      obtain hnone | ⟨inspected, call', log, rest, hlog, heq, hcalls⟩ :=
        account_sentOnce (Service.run_account ht hf)
      · rw [hnone] at hcall
        cases hcall
      · rw [hcalls] at hcall
        obtain rfl := List.mem_singleton.1 hcall
        obtain ⟨before, body, len, hadmitted, hbody, rfl⟩ := hlog
        refine ⟨f, inspected, body, len, before, rest, rfl, ?_, hadmitted, hbody⟩
        rw [heq, List.append_assoc]
        rfl

/-! ## Every request is answered once -/

/-- The happening is a move of that flight. -/
def Happening.moves (n : Nat) : Happening → Bool
  | .move k _ => k = n
  | _ => false

/-- How often a flight moves in a schedule. -/
def movesOf (n : Nat) (hs : List Happening) : Nat := hs.countP (Happening.moves n)

namespace Service

/-- A flight that is there goes on, and gets further if it moves. -/
theorem step_size (t : Service X) (h : Happening) {n : Nat} {f : Flight X}
    (hf : t.flights[n]? = some f) :
    ∃ f', (t.step h).1.flights[n]? = some f' ∧
      f'.point.size t.process.pipeline ≤
        f.point.size t.process.pipeline - if h.moves n then 1 else 0 := by
  have hlen : n < (t.step h).1.flights.length :=
    (List.getElem?_eq_some_iff.1 hf).1.trans_le (t.step_length h)
  refine ⟨_, List.getElem?_eq_getElem hlen, ?_⟩
  generalize hf' : (t.step h).1.flights[n] = f'
  have hthere : (t.step h).1.flights[n]? = some f' := by rw [List.getElem?_eq_getElem hlen, hf']
  obtain ⟨hstay, -, hmoves⟩ | ⟨hgone, -⟩ | ⟨before, upstream, rfl, hbefore, hmoved, -⟩ :=
    t.step_flight h hthere
  · obtain rfl := Option.some.inj (hf.symm.trans hstay)
    have : h.moves n = false := by
      cases h with
      | move k upstream => exact decide_eq_false fun hk => hmoves upstream (by rw [hk])
      | _ => rfl
    simp [this]
  · rw [hf] at hgone
    cases hgone
  · obtain rfl := Option.some.inj (hf.symm.trans hbefore)
    have hmoves : Happening.moves n (.move n upstream) = true := by simp [Happening.moves]
    rw [hmoved, hmoves]
    cases hanswer : f.point.answer? with
    | none =>
        have hless : (f.move t.process.pipeline upstream t.process.shared t.metrics).point.size
            t.process.pipeline < f.point.size t.process.pipeline := Flight.size_move hanswer
        simp only [if_true]
        omega
    | some resp =>
        have hdone : f.point.size t.process.pipeline = 0 :=
          Point.size_eq_zero_iff.2 (by rw [hanswer]; rfl)
        rw [Flight.move_of_answer hanswer, hdone]
        exact Nat.zero_le _

/-- A flight comes nearer to its end by each of its moves, and by nothing else. -/
theorem run_size (t : Service X) (hs : List Happening) {n : Nat} {f : Flight X}
    (hf : t.flights[n]? = some f) :
    ∃ f', (run step t hs).1.flights[n]? = some f' ∧
      f'.point.size t.process.pipeline ≤
        f.point.size t.process.pipeline - movesOf n hs := by
  induction hs generalizing t f with
  | nil => exact ⟨f, hf, le_rfl⟩
  | cons h hs ih =>
      obtain ⟨g, hg, hsize⟩ := t.step_size h hf
      obtain ⟨f', hf', hsize'⟩ := ih _ hg
      rw [(t.step_pipeline h).1] at hsize'
      refine ⟨f', hf', hsize'.trans ?_⟩
      unfold movesOf
      rw [List.countP_cons]
      omega

/-- Nothing has more to do than a request that just arrived. -/
theorem run_size_le {t : Service X} {hs : List Happening} (ht : t.flights = []) {n : Nat}
    {f : Flight X} (hf : (run step t hs).1.flights[n]? = some f) :
    f.point.size t.process.pipeline ≤
      t.process.pipeline.early.length + t.process.pipeline.late.length + 8 := by
  refine run_flight (I := fun f _ => f.point.size t.process.pipeline ≤
      t.process.pipeline.early.length + t.process.pipeline.late.length + 8) (S := fun _ => True) ht
    (fun _ _ _ _ => trivial) (fun _ _ _ _ => le_rfl) ?_ hf
  intro f log upstream s m _ h
  cases hanswer : f.point.answer? with
  | none =>
      have hless : (f.move t.process.pipeline upstream s m).point.size t.process.pipeline <
          f.point.size t.process.pipeline := Flight.size_move hanswer
      exact hless.le.trans h
  | some resp =>
      rw [Flight.move_of_answer hanswer]
      exact h

/-- A request that has moved as often as there are stages and eight times more is answered. -/
theorem run_answered {t : Service X} (ht : t.flights = []) (before after : List Happening) {n : Nat}
    {f : Flight X} (hf : (run step t before).1.flights[n]? = some f)
    (hmoves : t.process.pipeline.early.length + t.process.pipeline.late.length + 8 ≤
      movesOf n after) :
    ∃ f' resp, (run step t (before ++ after)).1.flights[n]? = some f' ∧
      f'.point = .answered resp := by
  obtain ⟨f', hf', hsize⟩ := run_size _ after hf
  rw [run_pipeline] at hsize
  have hle := run_size_le ht hf
  have hanswered : f'.point.answer?.isSome = true :=
    Point.size_eq_zero_iff.1 (Nat.le_zero.1 (hsize.trans (by omega)))
  obtain ⟨resp, hresp⟩ := Option.isSome_iff_exists.1 hanswered
  have hpoint : f'.point = .answered resp := by
    cases hpoint : f'.point <;> rw [hpoint] at hresp <;> cases hresp
    rfl
  refine ⟨f', resp, ?_, hpoint⟩
  rw [run_append]
  exact hf'

end Service

/-- **Every request is answered exactly once, and sent at most once**, whatever else goes on: once
it has moved as often as there are stages and eight times more, its log ends with its one answer,
and holds at most one call of `forward`, made after what let it through. -/
theorem answered_once {t : Service X} (ht : t.flights = []) (before after : List Happening)
    {n : Nat} {f : Flight X} (hf : (run Service.step t before).1.flights[n]? = some f)
    (hmoves : t.process.pipeline.early.length + t.process.pipeline.late.length + 8 ≤
      movesOf n after) :
    ∃ f' resp log, (run Service.step t (before ++ after)).1.flights[n]? = some f' ∧
      f'.point = .answered resp ∧
      notesOf n (run Service.step t (before ++ after)).2 = log ++ [.answered (f'.echo resp)] ∧
      (∀ resp', .answered resp' ∉ log) ∧
      SentOnce (t.StateOf (before ++ after) n) t.process.pipeline f'
        (log ++ [.answered (f'.echo resp)]) := by
  obtain ⟨f', resp, hthere, hpoint⟩ := Service.run_answered ht before after hf hmoves
  have hresp : f'.point.answer? = some resp := by
    rw [hpoint]
    rfl
  have haccount := Service.run_account ht hthere
  obtain ⟨log, hlog, hanswers⟩ := account_answer haccount hresp
  refine ⟨f', resp, log, hthere, hpoint, hlog, hanswers, ?_⟩
  rw [← hlog]
  exact account_sentOnce haccount

/-- The service of the login begins without flights. -/
theorem loginService_flights : loginService.flights = [] := by
  obtain ⟨cfg, geo, shared, -, -, hboots⟩ := Service.boot_ok boot_login
  rw [hboots]

/-- After the login has arrived it is the first flight of the service, which has not moved yet. -/
theorem login_arrived : (run Service.step loginService [loginArrives]).1.flights[0]? =
    some (Flight.start loginService.process.config "id-1" loginRequest (.v4 0xC0000207#32)) := by
  show (loginService.flights ++ [_])[0]? = _
  rw [loginService_flights]
  rfl

/-- Fifteen moves are enough for the login to be answered. -/
theorem login_moves : loginService.process.pipeline.early.length +
    loginService.process.pipeline.late.length + 8 ≤
      movesOf 0 (List.replicate 15 (.move 0 loginUpstream)) := by
  obtain ⟨cfg, geo, shared, -, -, hboots⟩ := Service.boot_ok boot_login
  have hstages : loginService.process.pipeline.early.length +
      loginService.process.pipeline.late.length + 8 ≤ 15 := by
    rw [hboots]
    cases geo <;> simp [standard, earlyStack, lateStack]
  exact hstages.trans (by decide)

/-- The login, once it has moved fifteen times. -/
theorem answered_once_login : ∃ f' resp log,
    (run Service.step loginService
      ([loginArrives] ++ List.replicate 15 (.move 0 loginUpstream))).1.flights[0]? = some f' ∧
    f'.point = .answered resp ∧
    notesOf 0 (run Service.step loginService
      ([loginArrives] ++ List.replicate 15 (.move 0 loginUpstream))).2 =
        log ++ [.answered (f'.echo resp)] ∧
    (∀ resp', .answered resp' ∉ log) ∧
    SentOnce (loginService.StateOf ([loginArrives] ++ List.replicate 15 (.move 0 loginUpstream)) 0)
      loginService.process.pipeline f' (log ++ [.answered (f'.echo resp)]) := by
  exact answered_once loginService_flights [loginArrives]
    (List.replicate 15 (.move 0 loginUpstream)) login_arrived login_moves

end BuduWaf.Traffic
