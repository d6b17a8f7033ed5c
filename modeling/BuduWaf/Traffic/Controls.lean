import BuduWaf.Supervisor.Limits
import BuduWaf.Traffic.Accounts

/-!
# `budu`: no way around the controls

The service as it boots runs the standard stacks, whatever is reloaded, swept and rate limited
while a request is under way.

* **`passed_cons`**: stages are passed one after the other, from the first.
* **`headPassed_of_passed`**, **`bodyPassed_of_through`**: what a request has passed once the
  standard stacks have let it through in block mode.
* **`no_way_around`**: in block mode a call of `forward` is made for an allowlisted client, or for
  a request that each control passed, asked since its arrival.

The pipeline is built once, at boot, and no run changes it, so the stages a flight was asked by are
the standard ones. In block mode a phase lets a request through if every stage passed it or one
allowed it; of the early stages none ever allows, and of the late ones only the rules do. Each
control is then read off the stage that stands for it, at the state the stage was asked at.
-/

namespace BuduWaf.Traffic

open Rules RateLimit Signatures Reputation Pipeline Proxy Supervisor

variable {X : Crates} {S : Shared X → Prop} {onError : OnError}

/-! ## Passing a stack -/

/-- Where no stage was passed nothing was noted and the context is as it was. -/
theorem passed_nil {ctx ctx' : RequestCtx} {notes : List Note}
    (h : Passed S onError ctx ([] : List (Stage (World X))) notes ctx') :
    notes = [] ∧ ctx' = ctx := by
  generalize hstages : ([] : List (Stage (World X))) = stages at h
  cases h with
  | nil => exact ⟨rfl, rfl⟩
  | concat before last s now pass => exact absurd hstages.symm (by simp)

/-- The first stage is passed, and then the others. -/
theorem passed_cons {stage : Stage (World X)} {rest : List (Stage (World X))}
    {ctx ctx' : RequestCtx} {notes : List Note}
    (h : Passed S onError ctx (stage :: rest) notes ctx') :
    ∃ s notes', S s ∧ (stageStep onError stage ((ctx, s), [])).1 = none ∧
      notes = .inspected stage.name ctx (stage.inspect (ctx, s)).1 :: notes' ∧
      Passed S onError (stage.inspect (ctx, s)).2.1 rest notes' ctx' := by
  generalize hstages : stage :: rest = stages at h
  induction h generalizing rest with
  | nil => cases hstages
  | @concat stages notes ctx' before last s now pass ih =>
      cases stages with
      | nil =>
          obtain ⟨rfl, rfl⟩ := List.cons.inj hstages
          obtain ⟨rfl, rfl⟩ := passed_nil before
          exact ⟨s, [], now, pass, rfl, .nil⟩
      | cons first stages =>
          obtain ⟨rfl, rfl⟩ := List.cons.inj hstages
          obtain ⟨s₁, notes', hs₁, hpass, rfl, hrest⟩ := ih rfl
          exact ⟨s₁, _, hs₁, hpass, rfl, hrest.concat last s now pass⟩

/-- What was decided was decided by a stage. -/
theorem decided_by {ctx ctx' : RequestCtx} {d : WafDecision} {stages : List (Stage (World X))}
    {notes : List Note} (h : Decided S onError ctx d stages notes ctx') :
    ∃ stage ∈ stages, ∃ w, (stageStep onError stage (w, [])).1 = some d := by
  cases h with
  | intro before stage rest s now decides =>
      exact ⟨stage, List.mem_append_right _ List.mem_cons_self, _, decides⟩

/-- The first stage decides, or is passed. -/
theorem decided_cons {stage : Stage (World X)} {rest : List (Stage (World X))}
    {ctx ctx' : RequestCtx} {d : WafDecision} {notes : List Note}
    (h : Decided S onError ctx d (stage :: rest) notes ctx') :
    ∃ s, S s ∧ ((stageStep onError stage ((ctx, s), [])).1 = some d ∨
      (stageStep onError stage ((ctx, s), [])).1 = none ∧
        ∃ notes', Decided S onError (stage.inspect (ctx, s)).2.1 d rest notes' ctx') := by
  generalize hstages : stage :: rest = stages at h
  cases h with
  | @intro before _ mid hpassed last after s now decides =>
      cases before with
      | nil =>
          obtain ⟨rfl, rfl⟩ := List.cons.inj hstages
          obtain ⟨rfl, rfl⟩ := passed_nil hpassed
          exact ⟨s, now, .inl decides⟩
      | cons first before =>
          obtain ⟨rfl, rfl⟩ := List.cons.inj hstages
          obtain ⟨s₁, notes', hs₁, hpass, -, hrest⟩ := passed_cons hpassed
          exact ⟨s₁, hs₁, .inr ⟨hpass, _, .intro hrest last after s now decides⟩⟩

/-! ## The standard stacks -/

/-- A stage ends its phase iff it decides, or panics where panics block. -/
theorem stageStep_some_iff {ω : Type} {stage : Stage ω} {w : ω} {log : List Str}
    {d : WafDecision} :
    (stageStep onError stage (w, log)).1 = some d ↔
      (stage.inspect w).1 = .brk d ∨
        (stage.inspect w).1 = .panic ∧ onError = .closed ∧ d = panicBlock := by
  unfold stageStep
  rcases stage.inspect w with ⟨_ | _ | _, _⟩ <;> cases onError <;> simp [eq_comm]

/-- A check of a limiter never allows a request past the later stages. -/
theorem throttle_ne_allow (r : Except UInt32 Unit) : throttle r ≠ .brk .allow := by
  cases r <;> simp [throttle]

/-- The sanity stage never allows a request past the later stages. -/
theorem sanity_ne_allow (limits : LimitsConfig) (ctx : RequestCtx) :
    sanity limits ctx ≠ .brk .allow := by
  unfold sanity
  split
  · simp
  · split
    · simp
    · generalize ctx.headers.get "content-length" = v
      cases v with
      | none => simp
      | some v => dsimp only; split <;> simp

/-- No stage on the head allows a request past the others. -/
theorem earlyStack_never_allows (geo : Option (GeoStage X)) (cfg : Config) :
    ∀ stage ∈ earlyStack geo cfg, ∀ w : World X, (stage.inspect w).1 ≠ .brk .allow := by
  refine forall_mem_earlyStack (P := fun stage => ∀ w : World X, (stage.inspect w).1 ≠ .brk .allow)
    ?_ ?_ ?_ ?_ ?_
  · intro w
    show Reputation.inspect w.2.blocks w.2.now w.1 ≠ _
    unfold Reputation.inspect
    split <;> simp
  · intro g w
    show (g.inspect w.1).1 ≠ _
    unfold GeoStage.inspect
    split <;> simp
  · intro w
    apply throttle_ne_allow
  · intro w
    have hinspect : (sanityStage cfg.limits).inspect w = (sanity cfg.limits w.1, w) := rfl
    rw [hinspect]
    exact sanity_ne_allow cfg.limits w.1
  · intro w hallow
    have hcont : (normalizeStage.inspect w).1 = .cont := rfl
    rw [hcont] at hallow
    cases hallow

/-- In block mode the stages on the head are all passed. -/
theorem passed_of_through {geo : Option (GeoStage X)} {cfg : Config} {f : Flight X}
    (hblock : f.cfg.server.enforcement = .block) {ctx ctx' : RequestCtx} {notes : List Note}
    (h : Through S onError f ctx (earlyStack geo cfg) notes ctx') :
    Passed S onError ctx (earlyStack geo cfg) notes ctx' := by
  obtain h | ⟨d, hlets, h⟩ := h
  · exact h
  · exfalso
    obtain rfl : d = .allow := by
      obtain h | ⟨hdetect, -⟩ := hlets
      · exact h
      · simp [Flight.detect, hblock] at hdetect
    obtain ⟨stage, hstage, w, hdecides⟩ := decided_by h
    obtain hbreak | ⟨-, -, hpanic⟩ := stageStep_some_iff.1 hdecides
    · exact earlyStack_never_allows geo cfg stage hstage w hbreak
    · cases hpanic

/-- The context of a request once the stages on the head have passed it. -/
def headCtx (geo : Option (GeoStage X)) (f : Flight X) : RequestCtx :=
  let ctx := newCtx f.req.parts f.client
  Parser.normalize (geo.elim ctx fun g => (g.inspect ctx).2)

/-- **What the early stacks let through in block mode**: the client is not on the blocklist, its
country passes, it has a token left, and the head is within the limits. -/
structure HeadPassed (S : Shared X → Prop) (geo : Option (GeoStage X)) (cfg : Config)
    (f : Flight X) : Prop where
  /-- It is not on the blocklist. -/
  unlisted : ∃ s, S s ∧ contains s.blocks f.client.ip s.now.wall = false
  /-- Its country passes. -/
  permitted : ∀ g ∈ geo, g.permits f.client.ip = true
  /-- It has a token left. -/
  unthrottled : ∃ s, S s ∧
    ((globalLimiter cfg.ratelimit).check s.limiters s.now.mono f.client.ip).1 = .ok ()
  /-- The head is within the limits. -/
  sane : sanity cfg.limits (newCtx f.req.parts f.client) = .cont

/-- **What the late stacks let through in block mode**: a rule allows it, or none does anything
about it and no signature matches. -/
def BodyPassed (S : Shared X → Prop) (ctx : RequestCtx) : Prop :=
  ∃ s, S s ∧ ((∃ id, (s.rules.evaluateCounting s.now ctx s.toRuleState).1 = some (.allow id)) ∨
    (s.rules.evaluateCounting s.now ctx s.toRuleState).1 = none ∧
      ∃ s', S s' ∧ Signatures.inspect s'.signatures ctx = .cont)

/-- A stage that is passed did not decide anything: it went on, or it panicked and was skipped. -/
theorem not_brk_of_pass {stage : Stage (World X)} {w : World X}
    (h : (stageStep onError stage (w, [])).1 = none) (d : WafDecision) :
    (stage.inspect w).1 ≠ .brk d := by
  intro hbrk
  rw [stageStep_some_iff.2 (.inl hbrk)] at h
  cases h

/-- A request that passes the reputation stage is not from a listed address. -/
theorem unlisted_of_pass {w : World X}
    (h : (stageStep onError reputationStage (w, [])).1 = none) :
    contains w.2.blocks w.1.client.ip w.2.now.wall = false := by
  by_contra hlisted
  apply not_brk_of_pass h (.block "reputation.blocklist" .forbidden "source IP is blocklisted")
  show Reputation.inspect w.2.blocks w.2.now w.1 = _
  rw [Reputation.inspect, if_pos (eq_true_of_ne_false hlisted)]

/-- A request that passes the GeoIP stage is from an address its lists permit. -/
theorem permitted_of_pass {g : GeoStage X} {w : World X}
    (h : (stageStep onError (geoStage g) (w, [])).1 = none) : g.permits w.1.client.ip = true := by
  by_contra hforbidden
  apply not_brk_of_pass h (.block "geoip.country" .forbidden "source country not permitted")
  rw [geoStage_inspect, GeoStage.inspect, if_neg hforbidden]

/-- A request that passes the rate-limit stage was granted a token. -/
theorem unthrottled_of_pass {limiter : IpRateLimiter} {w : World X}
    (h : (stageStep onError (rateLimitStage limiter) (w, [])).1 = none) :
    (limiter.check w.2.limiters w.2.now.mono w.1.client.ip).1 = .ok () := by
  rcases hcheck : (limiter.check w.2.limiters w.2.now.mono w.1.client.ip).1 with secs | ⟨⟩
  · exfalso
    apply not_brk_of_pass h (.rateLimited secs)
    show throttle (limiter.check w.2.limiters w.2.now.mono w.1.client.ip).1 = _
    rw [hcheck, throttle]
  · rfl

/-- A request that passes the sanity stage keeps the head limits. -/
theorem sane_of_pass {limits : LimitsConfig} {w : World X}
    (h : (stageStep onError (sanityStage limits) (w, [])).1 = none) :
    sanity limits w.1 = .cont := by
  obtain ⟨hcont, -⟩ | hbrk := sanity_spec limits w.1
  · exact hcont
  · exact absurd hbrk (not_brk_of_pass h _)

/-- A request that passes the signature stage matches no signature. -/
theorem unmatched_of_pass {w : World X}
    (h : (stageStep onError signatureStage (w, [])).1 = none) :
    Signatures.inspect w.2.signatures w.1 = .cont := by
  rcases hscan : w.2.signatures.scan (haystack w.1) with _ | hit
  · rw [Signatures.inspect, hscan]
  · exfalso
    apply not_brk_of_pass h (.block hit.ruleId hit.status hit.reason)
    rw [signatureStage_inspect, Signatures.inspect, hscan]

/-- A request that passes the rules stage is decided by no rule. -/
theorem unruled_of_pass {w : World X} (h : (stageStep onError rulesStage (w, [])).1 = none) :
    (w.2.rules.evaluateCounting w.2.now w.1 w.2.toRuleState).1 = none := by
  rcases hrules : (w.2.rules.evaluateCounting w.2.now w.1 w.2.toRuleState).1 with _ | outcome
  · rfl
  · exfalso
    apply not_brk_of_pass h (outcomeDecision outcome)
    rw [rulesStage_inspect, hrules]
    rfl

/-- The country stage only notes the country. -/
theorem sanity_geo (g : GeoStage X) (limits : LimitsConfig) (ctx : RequestCtx) :
    sanity limits (g.inspect ctx).2 = sanity limits ctx := by
  unfold GeoStage.inspect
  cases g.permits ctx.client.ip <;> rfl

/-- **The early stacks**, from their stages. -/
theorem headPassed_of_passed {geo : Option (GeoStage X)} {cfg : Config} {f : Flight X}
    {notes : List Note} {ctx : RequestCtx}
    (h : Passed S onError (newCtx f.req.parts f.client) (earlyStack geo cfg) notes ctx) :
    HeadPassed S geo cfg f ∧ ctx = headCtx geo f := by
  obtain ⟨s₁, notes₁, hs₁, hreputation, -, h⟩ := passed_cons h
  have hunlisted : contains s₁.blocks f.client.ip s₁.now.wall = false :=
    unlisted_of_pass hreputation
  -- the stages behind the country stage see the client's country, and nothing else is new
  obtain ⟨ctx₁, notes₂, hgeo, hip, hsane, hctx₁, h⟩ : ∃ ctx₁ notes₂,
      (∀ g ∈ geo, g.permits f.client.ip = true) ∧ ctx₁.client.ip = f.client.ip ∧
      sanity cfg.limits ctx₁ = sanity cfg.limits (newCtx f.req.parts f.client) ∧
      ctx₁ = geo.elim (newCtx f.req.parts f.client)
        (fun g => (g.inspect (newCtx f.req.parts f.client)).2) ∧
      Passed S onError ctx₁ [rateLimitStage (globalLimiter cfg.ratelimit), sanityStage cfg.limits,
        normalizeStage] notes₂ ctx := by
    cases geo with
    | none => exact ⟨_, _, by simp, rfl, rfl, rfl, h⟩
    | some g =>
        obtain ⟨s₂, notes₂, -, hgeo, -, h⟩ := passed_cons h
        refine ⟨_, notes₂, ?_, GeoStage.inspect_ip g _, sanity_geo g _ _, rfl, h⟩
        intro g' hg'
        obtain rfl := Option.mem_some.1 hg'
        exact permitted_of_pass hgeo
  obtain ⟨s₃, notes₃, hs₃, hrate, -, h⟩ := passed_cons h
  obtain ⟨s₄, notes₄, -, hsanity, -, h⟩ := passed_cons h
  obtain ⟨s₅, notes₅, -, -, -, h⟩ := passed_cons h
  obtain ⟨-, rfl⟩ := passed_nil h
  refine ⟨⟨⟨s₁, hs₁, hunlisted⟩, hgeo, ⟨s₃, hs₃, ?_⟩, ?_⟩, ?_⟩
  · have hunthrottled := unthrottled_of_pass hrate
    rwa [hip] at hunthrottled
  · exact hsane.symm.trans (sane_of_pass hsanity)
  · exact congrArg Parser.normalize hctx₁

/-- Only a rule allows a request past the signatures. -/
theorem ruled_of_allow {s : Shared X} {ctx : RequestCtx}
    (h : (stageStep onError rulesStage ((ctx, s), [])).1 = some .allow) :
    ∃ id, (s.rules.evaluateCounting s.now ctx s.toRuleState).1 = some (.allow id) := by
  obtain hbrk | ⟨-, -, hpanic⟩ := stageStep_some_iff.1 h
  · rw [rulesStage_inspect] at hbrk
    rcases hrules : (s.rules.evaluateCounting s.now ctx s.toRuleState).1 with _ | outcome
    · rw [hrules] at hbrk
      cases hbrk
    · rw [hrules] at hbrk
      cases outcome with
      | allow id => exact ⟨id, rfl⟩
      | block => cases hbrk
      | rateLimited => cases hbrk
  · cases hpanic

/-- The signature stage never allows a request past anything. -/
theorem signatures_never_allow {s : Shared X} {ctx : RequestCtx} :
    (stageStep onError signatureStage ((ctx, s), [])).1 ≠ some .allow := by
  intro h
  obtain hbrk | ⟨-, -, hpanic⟩ := stageStep_some_iff.1 h
  · rw [signatureStage_inspect, Signatures.inspect] at hbrk
    rcases hscan : s.signatures.scan (haystack ctx) with _ | hit <;> rw [hscan] at hbrk <;>
      cases hbrk
  · cases hpanic

/-- The rules leave the context as it is. -/
theorem rulesStage_ctx (w : World X) : (rulesStage.inspect w).2.1 = w.1 := rfl

/-- **The late stacks**, from their stages. -/
theorem bodyPassed_of_through {f : Flight X} (hblock : f.cfg.server.enforcement = .block)
    {ctx ctx' : RequestCtx} {notes : List Note}
    (h : Through S onError f ctx lateStack notes ctx') : BodyPassed S ctx := by
  obtain h | ⟨d, hlets, h⟩ := h
  · obtain ⟨s, notes₁, hs, hrules, -, h⟩ := passed_cons h
    obtain ⟨s', notes₂, hs', hsignatures, -, h⟩ := passed_cons h
    rw [rulesStage_ctx] at hsignatures
    exact ⟨s, hs, .inr ⟨unruled_of_pass hrules, s', hs', unmatched_of_pass hsignatures⟩⟩
  · obtain rfl : d = .allow := by
      obtain h | ⟨hdetect, -⟩ := hlets
      · exact h
      · simp [Flight.detect, hblock] at hdetect
    obtain ⟨s, hs, hallow | ⟨hrules, notes', h⟩⟩ := decided_cons h
    · exact ⟨s, hs, .inl (ruled_of_allow hallow)⟩
    · exfalso
      obtain ⟨stage, hstage, w, hallow⟩ := decided_by h
      obtain rfl := List.mem_singleton.1 hstage
      exact signatures_never_allow hallow

/-! ## Every run -/

/-- **No way around the controls.** From the boot on, in every interleaving of requests with each
other, with reloads, refreshes, maintenance and the clock: a request whose configuration enforces
is sent on only if its client was on the allowlist, or its head passed every control in front of
the body gate, and its body, as it is sent, passed the gate, the rules and the signatures, unless a
rule allows it past these. Each control was asked at a state since the request arrived. -/
theorem no_way_around {fs : FileSystem} {path : Str} {now : Now} {metrics : Metrics}
    {t : Service X} (hboot : Service.boot X fs path now metrics = .ok t) (hs : List Happening)
    {n : Nat} {call : ForwardCall} (hsent : (n, .sent call) ∈ (run Service.step t hs).2) :
    ∃ f body len, (run Service.step t hs).1.flights[n]? = some f ∧ call = f.callWith body len ∧
      (f.cfg.server.enforcement = .block →
        (body = .stream f.req.body ∧ len = none ∧
            ∃ s, t.StateOf hs n s ∧ isWhitelisted s f.client.ip = true) ∨
          ∃ geo, t.process.pipeline = standard geo t.process.config ∧
            HeadPassed (t.StateOf hs n) geo t.process.config f ∧
            ∃ ctx, Opens f (headCtx geo f) ctx body len ∧ BodyPassed (t.StateOf hs n) ctx) := by
  obtain ⟨hflights, geo, hpipeline⟩ : t.flights = [] ∧
      ∃ geo, t.process.pipeline = standard geo t.process.config := by
    obtain ⟨cfg, geo, shared, -, -, rfl⟩ := Service.boot_ok hboot
    exact ⟨rfl, geo, rfl⟩
  obtain ⟨f, inspected, body, len, before, rest, hf, -, hadmitted, hcall⟩ :=
    sent_was_admitted hflights hsent
  refine ⟨f, body, len, hf, hcall, fun hblock => ?_⟩
  rw [hpipeline] at hadmitted
  cases inspected with
  | false =>
      obtain ⟨-, hbody, hlen, hlisted⟩ := hadmitted
      exact .inl ⟨hbody, hlen, hlisted⟩
  | true =>
      obtain ⟨early, ctx, ctx', late, ctx'', -, ⟨notes, -, hearly⟩, hopens, hlate⟩ := hadmitted
      obtain ⟨hhead, rfl⟩ := headPassed_of_passed (passed_of_through hblock hearly)
      exact .inr ⟨geo, hpipeline, hhead, ctx', hopens, bodyPassed_of_through hblock hlate⟩

/-- The login, sent while the first refresh of the blocklist is done. -/
theorem no_way_around_login :
    ∃ f body len, (run Service.step loginService loginRun).1.flights[0]? = some f ∧
      loginCall = f.callWith body len ∧
      (f.cfg.server.enforcement = .block →
        (body = .stream f.req.body ∧ len = none ∧
            ∃ s, loginService.StateOf loginRun 0 s ∧ isWhitelisted s f.client.ip = true) ∨
          ∃ geo, loginService.process.pipeline = standard geo loginService.process.config ∧
            HeadPassed (loginService.StateOf loginRun 0) geo loginService.process.config f ∧
            ∃ ctx, Opens f (headCtx geo f) ctx body len ∧
              BodyPassed (loginService.StateOf loginRun 0) ctx) :=
  no_way_around boot_login loginRun login_sent

end BuduWaf.Traffic
