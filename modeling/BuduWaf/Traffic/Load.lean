import BuduWaf.Pipeline.Clients
import BuduWaf.Traffic.Controls
import BuduWaf.Traffic.Handles

/-!
# `budu`: how much one client gets through

All requests of a client share one bucket of the global limiter, whoever else asks for tokens, is
swept or reloads in between.

* **`stage_meters`**: of the stages only the global rate limit writes its limiter's cache, and
  what it says of a client is what the bucket says.
* **`Metered`**: the rules in force, and those about to be swapped in, have cells of their own.
* **`step_meter`**: a step asks the global limiter once, or sweeps its cache, or leaves it alone.
* **`admissions_bounded`**: so the limiter's rate bounds what a client is granted in any interval
  of any run.
* **`sent_bounded`**: and with it what is sent on for the client.

The budget of `RateBound` is about checks of one cache. Here the cache is the global limiter's, in a
service in which other things happen, so a step is shown to be a check of it, a sweep, or neither
(`step_meter`), and the budget carries over (`service_budget`). A client is granted a token for each
request that is sent in block mode without having been allowlisted, since the rate limit is one of
the controls (`no_way_around`), and a request asks for one token only.
-/

namespace BuduWaf.Traffic

open Rules RateLimit Signatures Reputation Pipeline Proxy Supervisor

variable {X : Crates}

/-! ## Grants -/

/-- It says that the client was granted a token. -/
def Note.grants (ip : IpAddr) : Note → Bool
  | .inspected stage ctx result =>
    stage == ("ratelimit" : Str) && ctx.client.ip = ip && result = .cont
  | _ => false

/-! ## One stage -/

/-- What a stage does to the cache of the global limiter: it is the rate-limit stage and asks for
its client, or leaves it alone. -/
def Meters (l : IpRateLimiter) (stage : Stage (World X)) : Prop :=
  ∀ (ctx : RequestCtx) (s : Shared X), (∀ l' ∈ s.rules.limiters, l'.cell ≠ l.cell) →
    let c := l.buckets s.limiters
    let r := stage.inspect (ctx, s)
    stage.name ≠ "ratelimit" ∧ l.buckets r.2.2.limiters = c ∨
      stage.name = "ratelimit" ∧
        l.buckets r.2.2.limiters = (l.checkIn c s.now.mono ctx.client.ip).2 ∧
        r.1 = throttle (l.checkIn c s.now.mono ctx.client.ip).1

/-- A cell that is kept holds the same cache. -/
theorem buckets_of_keepsCell {l : IpRateLimiter} {s s' : RuleState X}
    (h : KeepsCell l.cell s s') : l.buckets s'.limiters = l.buckets s.limiters := by
  unfold IpRateLimiter.buckets
  rw [h]

/-- A stage of another name that leaves the limiter's cell. -/
theorem meters_of_other {l : IpRateLimiter} {stage : Stage (World X)} (name : Str)
    (hname : stage.name = name) (hother : name ≠ "ratelimit")
    (hkeeps : ∀ (ctx : RequestCtx) (s : Shared X), (∀ l' ∈ s.rules.limiters, l'.cell ≠ l.cell) →
      KeepsCell l.cell s.toRuleState (stage.inspect (ctx, s)).2.2.toRuleState) :
    Meters l stage := by
  intro ctx s hapart
  refine .inl ⟨?_, buckets_of_keepsCell (hkeeps ctx s hapart)⟩
  rw [hname]
  exact hother

/-- **The stages of the standard pipeline** meter their client. -/
theorem stage_meters (geo : Option (GeoStage X)) (cfg : Config) :
    ∀ stage ∈ (standard geo cfg).early ++ (standard geo cfg).late,
      Meters (globalLimiter cfg.ratelimit) stage := by
  have hearly : ∀ stage ∈ earlyStack geo cfg, Meters (globalLimiter cfg.ratelimit) stage := by
    apply forall_mem_earlyStack
    · exact meters_of_other "reputation" rfl (by decide) fun _ _ _ => Eq.refl _
    · exact fun g => meters_of_other "geoip" rfl (by decide) fun _ _ _ => Eq.refl _
    · intro ctx s _
      exact .inr ⟨rfl, IpRateLimiter.buckets_check _ s.limiters s.now.mono ctx.client.ip, rfl⟩
    · exact meters_of_other "sanity" rfl (by decide) fun _ _ _ => Eq.refl _
    · exact meters_of_other "normalize" rfl (by decide) fun _ _ _ => Eq.refl _
  have hlate : ∀ stage ∈ lateStack (X := X), Meters (globalLimiter cfg.ratelimit) stage := by
    apply forall_mem_lateStack
    · exact meters_of_other "rules" rfl (by decide) fun ctx s hapart =>
        evaluateCounting_cell hapart ctx s.toRuleState
    · exact meters_of_other "signatures" rfl (by decide) fun _ _ _ => Eq.refl _
  intro stage hstage
  rcases List.mem_append.1 hstage with hstage | hstage
  · exact hearly stage hstage
  · exact hlate stage hstage

/-! ## One move -/

/-- What an event does to the cache of the global limiter, and whether it grants the client a
token. It is asked for one of the addresses that requests come from. -/
inductive Meter (l : IpRateLimiter) (K : IpAddr → Prop) (ip : IpAddr) (now : Nat)
    (c : (X.moka IpAddr X.Bucket).Content) : Bool → (X.moka IpAddr X.Bucket).Content → Prop
  | left : Meter l K ip now c false c
  | swept : Meter l K ip now c false ((X.moka IpAddr X.Bucket).runPendingTasks c now)
  | asked (j : IpAddr) (there : K j) :
      Meter l K ip now c (l.checkOf ip c now j).1 (l.checkOf ip c now j).2

/-- Whether the notes of one move say so. -/
theorem any_seen {f : Flight X} {p : Pipeline X} {upstream : OutRequest → UpstreamResult}
    {s : Shared X} {m : Metrics} (ip : IpAddr) :
    let r := f.move p upstream s m
    (f.seen r).any (Note.grants ip) = r.notes.any (Note.grants ip) := by
  intro r
  cases hanswer : f.point.answer? with
  | some resp =>
      have hr : r = ⟨f.point, s, m, []⟩ := Flight.move_of_answer hanswer
      rw [hr]
      simp [Flight.seen, hanswer]
  | none =>
      unfold Flight.seen
      rw [hanswer]
      cases r.point.answer? <;> simp [Note.grants]

/-- **What a move does** to the cache of the global limiter: it asks it once and notes what it says,
or leaves it alone. -/
theorem move_meter {geo : Option (GeoStage X)} {cfg : Config} {P : IpAddr → Prop} {f : Flight X}
    (upstream : OutRequest → UpstreamResult) {s : Shared X} (m : Metrics) (ip : IpAddr)
    (hapart : ∀ l' ∈ s.rules.limiters, l'.cell ≠ .global)
    (h : f.point.About (standard geo cfg) P) :
    let l := globalLimiter cfg.ratelimit
    let r := f.move (standard geo cfg) upstream s m
    Meter l P ip s.now.mono (l.buckets s.limiters) ((f.seen r).any (Note.grants ip))
      (l.buckets r.shared.limiters) := by
  intro l r
  have hseen : (f.seen r).any (Note.grants ip) = r.notes.any (Note.grants ip) := any_seen ip
  rw [hseen]
  have hasks : Asks (standard geo cfg) P s r := f.move_asks upstream s m h
  cases hasks with
  | stage stage ctx _ there about shared notes =>
      rw [shared, notes]
      obtain ⟨hname, hbuckets⟩ | ⟨hname, hbuckets, hresult⟩ :=
        stage_meters geo cfg stage there ctx s hapart
      · have hgrants : [Note.inspected stage.name ctx (stage.inspect (ctx, s)).1].any
            (Note.grants ip) = false := by
          simp only [List.any_cons, List.any_nil, Note.grants, beq_eq_false_iff_ne.2 hname,
            Bool.false_and, Bool.or_false]
        rw [hgrants, hbuckets]
        exact .left
      · have hgrants : [Note.inspected stage.name ctx (stage.inspect (ctx, s)).1].any
            (Note.grants ip) =
              (l.checkOf ip (l.buckets s.limiters) s.now.mono ctx.client.ip).1 := by
          simp only [List.any_cons, List.any_nil, Bool.or_false, Note.grants, hname, hresult,
            beq_self_eq_true, Bool.true_and, IpRateLimiter.checkOf]
          congr 1
          show decide (throttle (l.checkIn (l.buckets s.limiters) s.now.mono ctx.client.ip).1 =
            .cont) = (l.checkIn (l.buckets s.limiters) s.now.mono ctx.client.ip).1.isOk
          rcases (l.checkIn (l.buckets s.limiters) s.now.mono ctx.client.ip).1 with secs | ⟨⟩ <;>
            rfl
        rw [hgrants, hbuckets]
        exact .asked ctx.client.ip about
  | reply rctx _ shared notes =>
      obtain ⟨d, hnotes⟩ := notes
      have hbuckets : l.buckets r.shared.limiters = l.buckets s.limiters := by
        rw [shared]
        exact buckets_of_keepsCell (evaluateResponse_cell rctx s.toRuleState)
      have hgrants : r.notes.any (Note.grants ip) = false := by rw [hnotes]; rfl
      rw [hgrants, hbuckets]
      exact .left
  | nothing _ shared notes =>
      have hgrants : r.notes.any (Note.grants ip) = false := by
        apply List.any_eq_false.2
        intro note hnote hgrants
        cases note with
        | inspected stage ctx result => exact notes stage ctx result hnote
        | _ => cases hgrants
      rw [hgrants, shared]
      exact .left

/-! ## One step -/

/-- A rule set whose limiters leave the global one's cell alone. -/
def Apart (rules : RuleSet X) : Prop := ∀ l ∈ rules.limiters, l.cell ≠ .global

/-- The rules of a file that loads have cells apart from the global limiter's. -/
theorem apart_of_load {fs : FileSystem} {path : Str} {scoring : ScoringConfig} {defaultTz : Int}
    {generation : Nat} {rules : RuleSet X}
    (h : RuleSet.load X fs path scoring defaultTz generation = .ok rules) : Apart rules := by
  intro l hl hglobal
  obtain ⟨position, hcell⟩ := (cells_of_load h).2 l hl
  rw [hglobal] at hcell
  cases hcell

/-- A chore that swaps in no other rules than such. -/
def Chore.Apart : Chore X → Prop
  | .store (.rules rules) => Traffic.Apart rules
  | _ => True

/-- The stages of the standard pipeline hand on the client. -/
theorem stage_ip (geo : Option (GeoStage X)) (cfg : Config) :
    ∀ stage ∈ (standard geo cfg).early ++ (standard geo cfg).late, ∀ w : World X,
      (stage.inspect w).2.1.client.ip = w.1.client.ip := by
  have hearly : ∀ stage ∈ earlyStack geo cfg, ∀ w : World X,
      (stage.inspect w).2.1.client.ip = w.1.client.ip := by
    apply forall_mem_earlyStack
    · exact reading_reputationStage.ip
    · exact fun g => (reading_geoStage g).ip
    · exact fun w => rfl
    · exact (reading_sanityStage cfg.limits).ip
    · exact reading_normalizeStage.ip
  have hlate : ∀ stage ∈ lateStack (X := X), ∀ w : World X,
      (stage.inspect w).2.1.client.ip = w.1.client.ip := by
    apply forall_mem_lateStack
    · exact fun w => rfl
    · exact reading_signatureStage.ip
  intro stage hstage
  rcases List.mem_append.1 hstage with hstage | hstage
  · exact hearly stage hstage
  · exact hlate stage hstage

/-- The service of the standard pipeline, with its limiter, whose rules leave its cell alone. -/
structure Metered (cfg : Config) (t : Service X) : Prop where
  /-- The pipeline is a standard one. -/
  pipeline : ∃ geo, t.process.pipeline = standard geo cfg
  /-- The limiter that is swept is its limiter. -/
  limiter : t.process.limiter = globalLimiter cfg.ratelimit
  /-- The rules in force. -/
  rules : Apart t.process.shared.rules
  /-- The rules to come. -/
  chores : ∀ chore ∈ t.chores, chore.Apart
  /-- The flights, each about its client. -/
  flights : ∀ f ∈ t.flights, f.point.About t.process.pipeline (· = f.client.ip)

/-- The rules that the chores after a chore swap in have cells of their own. -/
theorem apart_act (fs : FileSystem) (feeds : Feeds) (p : Process X) (chore : Chore X) :
    ∀ next ∈ (chore.act fs feeds p).2, next.Apart := by
  intro next hnext
  cases chore with
  | rebuild cfg =>
      simp only [Chore.act] at hnext
      cases hnew : Pipeline.rebuild X fs p.shared.now (p.generation + 1) cfg with
      | error e =>
          rw [hnew] at hnext
          cases hnext
      | ok new =>
          rw [hnew] at hnext
          obtain ⟨swap, hswap, rfl⟩ := List.mem_map.1 hnext
          unfold Pipeline.rebuild at hnew
          obtain ⟨signatures, -, hnew⟩ := bind_ok_iff.mp hnew
          obtain ⟨defaultTz, -, hnew⟩ := bind_ok_iff.mp hnew
          obtain ⟨rules, hrules, hnew⟩ := bind_ok_iff.mp hnew
          obtain ⟨allowlist, -, hnew⟩ := bind_ok_iff.mp hnew
          obtain rfl := Except.ok.inj hnew
          simp only [Rebuilt.stores, List.mem_cons, List.not_mem_nil, or_false] at hswap
          rcases hswap with rfl | rfl | rfl
          · trivial
          · exact apart_of_load (mapError_ok_iff.mp hrules)
          · trivial
  | lists cfg =>
      simp only [Chore.act] at hnext
      cases hset : buildBlocks X fs p.shared.now.wall cfg.reputation with
      | error e =>
          rw [hset] at hnext
          cases hnext
      | ok set =>
          rw [hset] at hnext
          cases hfeature : X.features.remoteBlocklist <;>
            simp only [hfeature, if_true, Bool.false_eq_true, if_false, List.mem_singleton]
              at hnext <;> subst hnext <;> trivial
  | client urls set =>
      simp only [Chore.act] at hnext
      cases hbuilds : feeds.clientBuilds <;>
        simp only [hbuilds, if_true, Bool.false_eq_true, if_false, List.mem_singleton]
          at hnext <;> subst hnext <;> trivial
  | fetch urls set =>
      cases urls <;> simp only [Chore.act, List.mem_singleton] at hnext <;> subst hnext <;> trivial
  | _ => cases hnext

/-- A chore leaves rules whose limiters leave the global cell alone. -/
theorem rules_act (fs : FileSystem) (feeds : Feeds) {p : Process X} {chore : Chore X}
    (hp : Apart p.shared.rules) (hchore : chore.Apart) :
    Apart (chore.act fs feeds p).1.shared.rules := by
  cases chore with
  | store swap => cases swap <;> first | exact hchore | exact hp
  | fetch urls set => cases urls <;> exact hp
  | _ => exact hp

/-- The events the supervisor takes swap in nothing yet. -/
theorem apart_event {t : Service X} {happening : Happening} {chores : List (Chore X)}
    (h : t.Event happening chores) : ∀ chore ∈ chores, chore.Apart := by
  obtain ⟨_, _, cfg, -, -, rfl⟩ | ⟨-, rfl⟩ | ⟨-, rfl⟩ := h
  · simp [reloadChores, Chore.Apart]
  · simp [Chore.Apart]
  · simp [maintenanceChores, Chore.Apart]

variable {cfg : Config}

/-- **A step keeps the service metered.** -/
theorem metered_step {t : Service X} (h : Metered cfg t) (happening : Happening) :
    Metered cfg (t.step happening).1 := by
  obtain ⟨hpipeline, hlimiter⟩ := t.step_pipeline happening
  obtain ⟨geo, hgeo⟩ := h.pipeline
  refine ⟨⟨geo, hpipeline.trans hgeo⟩, hlimiter.trans h.limiter, ?_, ?_, ?_⟩
  · have hstep := t.stepped happening
    generalize t.step happening = r at hstep ⊢
    obtain ⟨u, notes⟩ := r
    cases hstep with
    | moved n upstream f there =>
        have habout := h.flights f (List.mem_of_getElem? there)
        rw [hgeo] at habout
        have hrules := (f.move_handles upstream t.process.shared t.metrics habout).rules
        show Apart (f.move t.process.pipeline upstream t.process.shared t.metrics).shared.rules
        rw [hgeo, hrules]
        exact h.rules
    | did fs feeds chore rest next =>
        apply rules_act fs feeds h.rules
        apply h.chores
        rw [next]
        exact List.mem_cons_self
    | _ => exact h.rules
  · have hstep := t.stepped happening
    generalize t.step happening = r at hstep ⊢
    obtain ⟨u, notes⟩ := r
    cases hstep with
    | took _ chores idle event => exact apart_event event
    | did fs feeds chore rest next =>
        intro c hc
        rcases List.mem_append.1 hc with hc | hc
        · exact apart_act fs feeds t.process chore c hc
        · apply h.chores
          rw [next]
          exact List.mem_cons_of_mem _ hc
    | _ => exact h.chores
  · intro f' hf'
    obtain ⟨n, hn⟩ := List.getElem?_of_mem hf'
    rw [hpipeline]
    obtain ⟨hstay, -⟩ | ⟨-, -, _, _, _, -, rfl⟩ | ⟨f, upstream, -, hthere, rfl, -⟩ :=
      t.step_flight happening hn
    · exact h.flights f' (List.mem_of_getElem? hstay)
    · trivial
    · have habout := h.flights f (List.mem_of_getElem? hthere)
      rw [hgeo] at habout ⊢
      refine Flight.about_move (fun stage hstage w hw => ?_) rfl habout
      exact (stage_ip geo cfg stage hstage w).trans hw

/-- What a chore does to the cache of the global limiter: it sweeps it, or leaves it alone. -/
theorem act_meter (fs : FileSystem) (feeds : Feeds) {p : Process X} (chore : Chore X)
    (K : IpAddr → Prop) (ip : IpAddr) (hlimiter : p.limiter = globalLimiter cfg.ratelimit) :
    let l := globalLimiter cfg.ratelimit
    Meter l K ip p.shared.now.mono (l.buckets p.shared.limiters) false
      (l.buckets (chore.act fs feeds p).1.shared.limiters) := by
  intro l
  cases chore with
  | buckets =>
      have hswept : l.buckets (Chore.act fs feeds p .buckets).1.shared.limiters =
          (X.moka IpAddr X.Bucket).runPendingTasks (l.buckets p.shared.limiters)
            p.shared.now.mono := by
        simp only [Chore.act, hlimiter]
        exact IpRateLimiter.buckets_set_self l _ _
      rw [hswept]
      exact .swept
  | store swap => cases swap <;> exact .left
  | fetch urls set => cases urls <;> exact .left
  | _ => exact .left

/-- All requests come from some addresses. -/
def Service.From (K : IpAddr → Prop) (t : Service X) : Prop := ∀ f ∈ t.flights, K f.client.ip

/-- Where all requests come from some addresses after a step, they did before. -/
theorem Service.from_of_step {K : IpAddr → Prop} {t : Service X} {happening : Happening}
    (h : (t.step happening).1.From K) : t.From K := by
  intro f hf
  obtain ⟨n, hn⟩ := List.getElem?_of_mem hf
  obtain ⟨point, hkept⟩ := t.step_keeps happening hn
  have hthere : { f with point := point } ∈ (t.step happening).1.flights :=
    List.mem_of_getElem? hkept
  have hlater := h _ hthere
  exact hlater

/-- Point by point, what is said of a client is said of all its addresses. -/
theorem about_mono {p : Pipeline X} {P Q : IpAddr → Prop} (hPQ : ∀ ip, P ip → Q ip)
    {point : Point X} (h : point.About p P) : point.About p Q := by
  cases point with
  | early ctx rest => exact ⟨hPQ _ h.1, h.2⟩
  | gate ctx => exact hPQ _ h
  | late ctx body len rest => exact ⟨hPQ _ h.1, h.2⟩
  | _ => trivial

/-- **What a step does** to the cache of the global limiter: it asks it once, or sweeps it, or
leaves it alone. -/
theorem step_meter {t : Service X} (h : Metered cfg t) {K : IpAddr → Prop} (hfrom : t.From K)
    (happening : Happening) (ip : IpAddr) :
    let l := globalLimiter cfg.ratelimit
    let r := t.step happening
    Meter l K ip t.process.shared.now.mono (l.buckets t.process.shared.limiters)
      (r.2.any fun x => x.2.grants ip) (l.buckets r.1.process.shared.limiters) := by
  intro l r
  have hstep : Service.Stepped t happening r.1 r.2 := t.stepped happening
  generalize r = r at hstep ⊢
  obtain ⟨u, notes⟩ := r
  obtain ⟨geo, hgeo⟩ := h.pipeline
  cases hstep with
  | moved n upstream f there =>
      have hclient : ∀ j, j = f.client.ip → K j := by
        rintro _ rfl
        exact hfrom f (List.mem_of_getElem? there)
      have habout := about_mono hclient (h.flights f (List.mem_of_getElem? there))
      rw [hgeo] at habout
      have hmove := move_meter upstream t.metrics ip h.rules habout
      dsimp only
      rw [hgeo, List.any_map]
      exact hmove
  | did fs feeds chore rest next => exact act_meter fs feeds chore K ip h.limiter
  | _ => exact .left

/-! ## Any interval of any run -/

/-- Something happens at an instant, with a reading of the wall clock: whether it grants the client
a token, and what it leaves. -/
def Service.stepAt (ip : IpAddr) (t : Service X) (now : Nat) (e : Nat × Happening) :
    Bool × Service X :=
  let r := (t.step (.clock ⟨e.1, now⟩)).1.step e.2
  (r.2.any fun x => x.2.grants ip, r.1)

/-- The happenings of a schedule, each after the clock was set. -/
def timeline : Nat → List (Nat × Nat × Happening) → List Happening
  | _, [] => []
  | now, (elapsed, wall, h) :: es =>
    .clock ⟨wall, now + elapsed⟩ :: h :: timeline (now + elapsed) es

section bound

variable {K : IpAddr → Prop}
  {abs : (X.moka IpAddr X.Bucket).Content → Cache.Timed IpAddr X.Bucket}
  {unit rate capacity fresh : Quota → Nat} {valid : Quota → X.Bucket → Nat → Prop}
  {level : X.Bucket → Nat → Nat}

/-- **What a client's bucket holds is a budget of the whole service**, while requests come from no
more addresses than the limiter has room for. -/
theorem service_budget (hmoka : (X.moka IpAddr X.Bucket).Keeps K abs)
    (hgov : BucketLaws X unit rate capacity fresh valid level)
    (hpos : 0 < (globalLimiter cfg.ratelimit).timeToIdle)
    (hback : fresh (globalLimiter cfg.ratelimit).quota ≤
      rate (globalLimiter cfg.ratelimit).quota * (globalLimiter cfg.ratelimit).timeToIdle)
    (ip : IpAddr) :
    let l := globalLimiter cfg.ratelimit
    Budget (Service.stepAt (X := X) ip) (fun t _ => t.From K) (unit l.quota) (rate l.quota)
      (capacity l.quota)
      (fun t now => Metered cfg t ∧
        l.Tracked K valid (abs (l.buckets t.process.shared.limiters)) now)
      (fun t now =>
        l.allowance fresh level ip (abs (l.buckets t.process.shared.limiters)) now) := by
  intro l
  have hbudget := IpRateLimiter.budget hgov hmoka hpos hback ip
  have hmeter : ∀ {t : Service X} (now : Nat) (e : Nat × Happening), Metered cfg t → t.From K →
      Meter l K ip now (l.buckets t.process.shared.limiters) (t.stepAt ip now e).1
        (l.buckets (t.stepAt ip now e).2.process.shared.limiters) := by
    intro t now e h hfrom
    exact step_meter (metered_step h (.clock ⟨e.1, now⟩)) hfrom e.2 ip
  refine ⟨?_, ?_, ?_, ?_, ?_⟩
  · exact fun h ht => ⟨h.1, h.2.later ht⟩
  · intro t now e hfrom h
    refine ⟨metered_step (metered_step h.1 _) e.2, ?_⟩
    have hcache := hmeter now e h.1 hfrom
    generalize (t.stepAt ip now e).1 = granted at hcache
    generalize l.buckets (t.stepAt ip now e).2.process.shared.limiters = c' at hcache ⊢
    cases hcache with
    | left => exact h.2
    | swept => exact h.2.swept (hmoka.runPendingTasks h.2.within now)
    | asked j there => exact hbudget.request j there h.2
  · exact fun h => hbudget.le_capacity h.2
  · exact fun h ht => hbudget.refill h.2 ht
  · intro t now e hfrom h
    have hcache := hmeter now e h.1 hfrom
    generalize (t.stepAt ip now e).1 = granted at hcache ⊢
    generalize l.buckets (t.stepAt ip now e).2.process.shared.limiters = c' at hcache ⊢
    cases hcache with
    | left => simp
    | swept =>
        have hlive := (hmoka.runPendingTasks h.2.within now).liveEntry_eq ip
        rw [IpRateLimiter.allowance_congr hlive]
        simp
    | asked j there => exact hbudget.spend j there h.2

end bound

/-- Requests that come from some addresses in the end come from these all along. -/
theorem allowed_of_from {K : IpAddr → Prop} {ip : IpAddr} {t : Service X} {now : Nat}
    {es : List (Nat × Nat × Happening)} (h : (run Service.step t (timeline now es)).1.From K) :
    Allowed (Service.stepAt ip) (fun u _ => u.From K) t now es := by
  induction es generalizing t now with
  | nil => trivial
  | cons e es ih =>
      obtain ⟨elapsed, wall, happening⟩ := e
      refine ⟨?_, ih h⟩
      have hback : ∀ (u : Service X) (hs : List Happening), (run Service.step u hs).1.From K →
          u.From K := by
        intro u hs
        induction hs generalizing u with
        | nil => exact id
        | cons happening hs ih => exact fun h => Service.from_of_step (ih _ h)
      exact hback t _ h

/-- The service that boots is metered, and its limiter was not asked yet. -/
theorem metered_boot {fs : FileSystem} {path : Str} {now : Now} {metrics : Metrics}
    {t : Service X} (hboot : Service.boot X fs path now metrics = .ok t) :
    Metered t.process.config t ∧ t.process.shared.limiters .global = none ∧
      t.process.config.validate X.ipText = .ok () := by
  obtain ⟨cfg, geo, shared, hload, hbuilt, rfl⟩ := Service.boot_ok hboot
  obtain ⟨_, _, _, _, _, _, -, -, -, hrules, -, -, rfl⟩ := fromConfig_ok hbuilt
  refine ⟨⟨⟨geo, rfl⟩, rfl, ?_, ?_, ?_⟩, rfl, validate_of_load hload⟩
  · exact apart_of_load hrules
  · simp [Chore.Apart]
  · exact fun f hf => absurd hf List.not_mem_nil

/-- The buckets of an accepted configuration, and that they hold what a new one would once they
idled out. -/
theorem quota_of_validate {ipText : IpAddr → Str} (hvalid : cfg.validate ipText = .ok ())
    (hidle : (effectiveBurst cfg.ratelimit).toNat ≤
      cfg.ratelimit.requestsPerSec.toNat * max cfg.ratelimit.ttlSecs.toNat 1) :
    let l := globalLimiter cfg.ratelimit
    0 < l.timeToIdle ∧ l.quota.interval = nanos / cfg.ratelimit.requestsPerSec.toNat ∧
      l.quota.burst = effectiveBurst cfg.ratelimit ∧
      l.quota.burst.toNat * l.quota.interval ≤ 1 * l.timeToIdle := by
  intro l
  obtain ⟨hrate, hburst, hlong⟩ :=
    new_quota .global (validate_rate hvalid) cfg.ratelimit.burst cfg.ratelimit.ttlSecs
  have hrate : l.quota.perSecond = cfg.ratelimit.requestsPerSec := hrate
  have hburst : l.quota.burst = effectiveBurst cfg.ratelimit := hburst
  have hlong : l.timeToIdle = max cfg.ratelimit.ttlSecs.toNat 1 * nanos := hlong
  have hinterval : l.quota.interval = nanos / cfg.ratelimit.requestsPerSec.toNat := by
    unfold Quota.interval
    rw [hrate]
  refine ⟨?_, hinterval, hburst, ?_⟩
  · rw [hlong]
    exact Nat.mul_pos (by omega) (by decide)
  · rw [hburst, hinterval, hlong, Nat.one_mul]
    calc (effectiveBurst cfg.ratelimit).toNat * (nanos / cfg.ratelimit.requestsPerSec.toNat)
        ≤ cfg.ratelimit.requestsPerSec.toNat * max cfg.ratelimit.ttlSecs.toNat 1 *
            (nanos / cfg.ratelimit.requestsPerSec.toNat) := Nat.mul_le_mul_right _ hidle
      _ = max cfg.ratelimit.ttlSecs.toNat 1 * (cfg.ratelimit.requestsPerSec.toNat *
            (nanos / cfg.ratelimit.requestsPerSec.toNat)) := by
          rw [Nat.mul_comm cfg.ratelimit.requestsPerSec.toNat, Nat.mul_assoc]
      _ ≤ max cfg.ratelimit.ttlSecs.toNat 1 * nanos :=
          Nat.mul_le_mul_left _ (Nat.mul_div_le nanos _)

section runs

variable {abs : (X.moka IpAddr X.Bucket).Content → Cache.Timed IpAddr X.Bucket}
  {valid : Quota → X.Bucket → Nat → Prop} {level : X.Bucket → Nat → Nat}
  {fs : FileSystem} {path : Str} {now : Now} {metrics : Metrics} {t : Service X}
  {clients : List IpAddr}

/-- **The service that boots has a budget for each client**: at first the configured burst, and what
the configured rate makes. -/
theorem boot_budget (hmoka : (X.moka IpAddr X.Bucket).Keeps (· ∈ clients) abs)
    (hgov : GcraLaws X valid level) (hboot : Service.boot X fs path now metrics = .ok t)
    (hidle : (effectiveBurst t.process.config.ratelimit).toNat ≤
      t.process.config.ratelimit.requestsPerSec.toNat *
        max t.process.config.ratelimit.ttlSecs.toNat 1) (ip : IpAddr) :
    let interval := nanos / t.process.config.ratelimit.requestsPerSec.toNat
    let burst := (effectiveBurst t.process.config.ratelimit).toNat
    ∃ Inv potential, Inv t now.mono ∧ potential t now.mono = burst * interval ∧
      Budget (Service.stepAt (X := X) ip) (fun u _ => u.From (· ∈ clients)) interval 1
        ((burst + 1) * interval) Inv potential := by
  intro interval burst
  obtain ⟨hmetered, hunused, hvalid⟩ := metered_boot hboot
  obtain ⟨hpos, hinterval, hburst, hback⟩ := quota_of_validate hvalid hidle
  have hbudget := service_budget hmoka hgov hpos hback ip
  have hnew : (globalLimiter t.process.config.ratelimit).buckets t.process.shared.limiters =
      (X.moka IpAddr X.Bucket).build
        (some (globalLimiter t.process.config.ratelimit).timeToIdle) := by
    unfold IpRateLimiter.buckets
    exact congrArg (Option.getD · _) hunused
  dsimp only at hbudget
  rw [hinterval, hburst] at hbudget
  refine ⟨_, _, ⟨hmetered, ?tracked⟩, ?first, hbudget⟩
  case tracked =>
    rw [hnew, hmoka.build]
    exact IpRateLimiter.tracked_build now.mono
  case first =>
    rw [hnew, hmoka.build]
    refine (IpRateLimiter.allowance_of_none ?_ now.mono).trans ?_
    · rfl
    · rw [hinterval, hburst]

/-- **What a client is granted is bounded** in every interval of every run from the boot, whatever
the other clients, the supervisor and the wall clock do: by one token more than the configured
burst and what the configured rate makes in that interval. Buckets run the generic cell rate
algorithm and idle for long enough to refill, and requests come from no more addresses than the
limiter has room for. -/
theorem admissions_bounded
    (hmoka : ∀ clients : List IpAddr, clients.length ≤ maxBuckets →
      (X.moka IpAddr X.Bucket).Keeps (· ∈ clients) abs)
    (hgov : GcraLaws X valid level) (hboot : Service.boot X fs path now metrics = .ok t)
    (hidle : (effectiveBurst t.process.config.ratelimit).toNat ≤
      t.process.config.ratelimit.requestsPerSec.toNat *
        max t.process.config.ratelimit.ttlSecs.toNat 1)
    (ip : IpAddr) (es : List (Nat × Nat × Happening)) (hroom : clients.length ≤ maxBuckets)
    (hfrom : (run Service.step t (timeline now.mono es)).1.From (· ∈ clients))
    (start length : Nat) :
    let interval := nanos / t.process.config.ratelimit.requestsPerSec.toNat
    grants (Service.stepAt ip) start length t now.mono es * interval ≤
      ((effectiveBurst t.process.config.ratelimit).toNat + 1) * interval + length := by
  intro interval
  obtain ⟨_, _, hstart, -, hbudget⟩ := boot_budget (hmoka clients hroom) hgov hboot hidle ip
  have hbound : grants (Service.stepAt ip) start length t now.mono es * interval ≤ _ :=
    hbudget.grants_le hstart (allowed_of_from hfrom)
  rwa [Nat.one_mul] at hbound

end runs

/-! ## What is sent for a client -/

/-- A move grants a client one token at most. -/
theorem countP_asks {p : Pipeline X} {P : IpAddr → Prop} {s : Shared X} {r : Moved X Note}
    (h : Asks p P s r) (ip : IpAddr) : r.notes.countP (Note.grants ip) ≤ 1 := by
  cases h with
  | stage stage ctx _ there about shared notes =>
      rw [notes]
      exact List.countP_le_length
  | reply rctx _ shared notes =>
      obtain ⟨d, hnotes⟩ := notes
      rw [hnotes]
      exact List.countP_le_length
  | nothing _ shared notes =>
      have hnone : r.notes.countP (Note.grants ip) = 0 := by
        apply List.countP_eq_zero.2
        intro note hnote hgrants
        cases note with
        | inspected stage ctx result => exact notes stage ctx result hnote
        | _ => cases hgrants
      omega

/-- A step grants the client one token at most. -/
theorem countP_step {t : Service X} (h : t.Underway) (happening : Happening) (ip : IpAddr) :
    (t.step happening).2.countP (fun x => x.2.grants ip) =
      if (t.step happening).2.any fun x => x.2.grants ip then 1 else 0 := by
  have hle : (t.step happening).2.countP (fun x => x.2.grants ip) ≤ 1 := by
    have hstep := t.stepped happening
    generalize t.step happening = r at hstep ⊢
    obtain ⟨u, notes⟩ := r
    cases hstep with
    | moved n upstream f there =>
        have hasks := f.move_asks upstream t.process.shared t.metrics
          (h f (List.mem_of_getElem? there))
        have hmoved := countP_asks hasks ip
        dsimp only
        rw [List.countP_map]
        unfold Flight.seen
        split
        · exact Nat.zero_le 1
        · have hanswer : ∀ resp : Option Response,
              (resp.map fun resp => Note.answered (f.echo resp)).toList.countP
                (Note.grants ip) = 0 := by
            intro resp
            cases resp <;> rfl
          rw [List.countP_append]
          exact Nat.add_le_add hmoved (Nat.le_of_eq (hanswer _))
    | _ => exact Nat.zero_le 1
  split
  · rename_i hany
    have hpos := List.countP_pos_iff.2 (List.any_eq_true.1 hany)
    omega
  · rename_i hnone
    rw [List.countP_eq_zero]
    intro x hx hgrants
    exact hnone (List.any_eq_true.2 ⟨x, hx, hgrants⟩)

/-- What a run grants in all is what it grants in the interval it takes. -/
theorem countP_timeline {t : Service X} (h : t.Underway) (ip : IpAddr) {start length now : Nat}
    (es : List (Nat × Nat × Happening)) (hstart : start ≤ now)
    (hlength : now + (es.map Prod.fst).sum ≤ start + length) :
    (run Service.step t (timeline now es)).2.countP (fun x => x.2.grants ip) =
      grants (Service.stepAt ip) start length t now es := by
  induction es generalizing t now with
  | nil => rfl
  | cons e es ih =>
      obtain ⟨elapsed, wall, happening⟩ := e
      rw [List.map_cons, List.sum_cons] at hlength
      have hclock : (t.step (.clock ⟨wall, now + elapsed⟩)).1.Underway :=
        Service.underway_step h _
      have hgoes : ((t.stepAt ip (now + elapsed) (wall, happening)).2).Underway :=
        Service.underway_step hclock happening
      have hrest := ih hgoes (show start ≤ now + elapsed by omega) (by omega)
      have hstep := countP_step hclock happening ip
      have hgranted : (if (t.stepAt ip (now + elapsed) (wall, happening)).1 = true ∧
            start ≤ now + elapsed ∧ now + elapsed ≤ start + length then 1 else 0) =
          ((t.step (.clock ⟨wall, now + elapsed⟩)).1.step happening).2.countP
            fun x => x.2.grants ip := by
        rw [hstep]
        apply if_congr _ rfl rfl
        constructor
        · exact fun hall => hall.1
        · exact fun hany => ⟨hany, by omega, by omega⟩
      rw [grants, hgranted, ← hrest, ← List.countP_append]
      rfl

/-- What flights are noted for is noted as often as there are flights. -/
theorem length_le_countP {ns : List Nat} (hns : ns.Nodup) {q : Note → Bool}
    {log : List (Nat × Note)} (h : ∀ n ∈ ns, ∃ note, (n, note) ∈ log ∧ q note = true) :
    ns.length ≤ log.countP fun x => q x.2 := by
  have hsubset : ns ⊆ (log.filter fun x => q x.2).map Prod.fst := by
    intro n hn
    obtain ⟨note, hmem, hq⟩ := h n hn
    exact List.mem_map.2 ⟨(n, note), List.mem_filter.2 ⟨hmem, hq⟩, rfl⟩
  have hlength := (List.subperm_of_subset hns hsubset).length_le
  rwa [List.length_map, ← List.countP_eq_length_filter] at hlength

/-- A request that has passed the early stacks was granted a token. -/
theorem granted_of_passed {S : Shared X → Prop} {onError : OnError} {geo : Option (GeoStage X)}
    {f : Flight X} {notes : List Note} {ctx : RequestCtx}
    (h : Passed S onError (newCtx f.req.parts f.client) (earlyStack geo cfg) notes ctx) :
    ∃ note ∈ notes, note.grants f.client.ip = true := by
  obtain ⟨s₁, notes₁, -, -, hnotes, h⟩ := passed_cons h
  -- the country stage, if there is one, hands on the client
  obtain ⟨ctx₁, notes₂, hsub, hip, h⟩ : ∃ ctx₁ notes₂, notes₂ ⊆ notes₁ ∧
      ctx₁.client.ip = f.client.ip ∧
      Passed S onError ctx₁ [rateLimitStage (globalLimiter cfg.ratelimit), sanityStage cfg.limits,
        normalizeStage] notes₂ ctx := by
    cases geo with
    | none => exact ⟨_, notes₁, List.Subset.refl _, rfl, h⟩
    | some g =>
        obtain ⟨s₂, notes₂, -, -, hnotes₁, h⟩ := passed_cons h
        rw [hnotes₁]
        exact ⟨_, notes₂, List.subset_cons_self _ _, GeoStage.inspect_ip g _, h⟩
  obtain ⟨s₃, notes₃, -, hrate, hnotes₂, -⟩ := passed_cons h
  rw [hnotes₂] at hsub
  rw [hnotes]
  refine ⟨_, List.mem_cons_of_mem _ (hsub List.mem_cons_self), ?_⟩
  have hunthrottled := unthrottled_of_pass hrate
  have hresult : ((rateLimitStage (globalLimiter cfg.ratelimit)).inspect (ctx₁, s₃)).1 =
      .cont := by
    show throttle ((globalLimiter cfg.ratelimit).check s₃.limiters s₃.now.mono
      ctx₁.client.ip).1 = _
    rw [hunthrottled]
    rfl
  have hname : (rateLimitStage (X := X) (globalLimiter cfg.ratelimit)).name = "ratelimit" := rfl
  simp [Note.grants, hresult, hip, hname]

/-- **A request of the client that was sent on**, and that the configuration it came in under did
not let pass uninspected. -/
structure Service.Forwarded (ip : IpAddr) (t : Service X) (log : List (Nat × Note)) (n : Nat) :
    Prop where
  /-- It is the client's, and blocks are enforced. -/
  flight : ∃ f, t.flights[n]? = some f ∧ f.client.ip = ip ∧ f.cfg.server.enforcement = .block
  /-- The client was not on the allowlist. -/
  inspected : (n, .allowlisted true) ∉ log
  /-- It was sent. -/
  sent : ∃ call, (n, .sent call) ∈ log

/-- A request that was sent on without a bypass was granted a token. -/
theorem granted_of_forwarded {t : Service X} (ht : t.flights = []) {geo : Option (GeoStage X)}
    (hpipeline : t.process.pipeline = standard geo cfg) {hs : List Happening} {ip : IpAddr}
    {n : Nat} (h : (run Service.step t hs).1.Forwarded ip (run Service.step t hs).2 n) :
    ∃ note, (n, note) ∈ (run Service.step t hs).2 ∧ note.grants ip = true := by
  obtain ⟨⟨f, hf, hip, hblock⟩, hinspected, call, hsent⟩ := h
  obtain ⟨f', inspected, body, len, before, rest, hf', hlog, hadmitted, -⟩ :=
    sent_was_admitted ht hsent
  obtain rfl := Option.some.inj (hf.symm.trans hf')
  have hmem : ∀ note ∈ before, (n, note) ∈ (run Service.step t hs).2 := by
    intro note hnote
    apply mem_notesOf.1
    rw [hlog]
    exact List.mem_append_left _ hnote
  rw [hpipeline] at hadmitted
  cases inspected with
  | false =>
      obtain ⟨rfl, -⟩ := hadmitted
      exact absurd (hmem _ (List.mem_singleton.2 rfl)) hinspected
  | true =>
      obtain ⟨early, _, _, late, _, rfl, ⟨notes, rfl, hearly⟩, -, -⟩ := hadmitted
      obtain ⟨note, hnote, hgrants⟩ := granted_of_passed (passed_of_through hblock hearly)
      rw [hip] at hgrants
      exact ⟨note, hmem note (List.mem_append_left _ (List.mem_cons_of_mem _ hnote)), hgrants⟩

section runs

variable {abs : (X.moka IpAddr X.Bucket).Content → Cache.Timed IpAddr X.Bucket}
  {valid : Quota → X.Bucket → Nat → Prop} {level : X.Bucket → Nat → Nat}
  {fs : FileSystem} {path : Str} {now : Now} {metrics : Metrics} {t : Service X}
  {clients : List IpAddr}

/-- **What is sent on for a client is bounded** over every run from the boot, by the configured
burst and what the configured rate makes in the time it takes. -/
theorem sent_bounded
    (hmoka : ∀ clients : List IpAddr, clients.length ≤ maxBuckets →
      (X.moka IpAddr X.Bucket).Keeps (· ∈ clients) abs)
    (hgov : GcraLaws X valid level) (hboot : Service.boot X fs path now metrics = .ok t)
    (hidle : (effectiveBurst t.process.config.ratelimit).toNat ≤
      t.process.config.ratelimit.requestsPerSec.toNat *
        max t.process.config.ratelimit.ttlSecs.toNat 1)
    (ip : IpAddr) (es : List (Nat × Nat × Happening)) (hroom : clients.length ≤ maxBuckets)
    (hfrom : (run Service.step t (timeline now.mono es)).1.From (· ∈ clients))
    {ns : List Nat} (hns : ns.Nodup)
    (hsent : ∀ n ∈ ns, (run Service.step t (timeline now.mono es)).1.Forwarded ip
      (run Service.step t (timeline now.mono es)).2 n) :
    let interval := nanos / t.process.config.ratelimit.requestsPerSec.toNat
    ns.length * interval ≤ (effectiveBurst t.process.config.ratelimit).toNat * interval +
      (es.map Prod.fst).sum := by
  intro interval
  obtain ⟨⟨⟨geo, hgeo⟩, -, -, -, -⟩, -, -⟩ := metered_boot hboot
  have hnone : t.flights = [] := by
    obtain ⟨cfg, geo, shared, -, -, rfl⟩ := Service.boot_ok hboot
    rfl
  have hunderway : t.Underway := by
    intro f hf
    rw [hnone] at hf
    cases hf
  have hgranted := length_le_countP hns fun n hn => granted_of_forwarded hnone hgeo (hsent n hn)
  rw [countP_timeline hunderway ip es le_rfl le_rfl] at hgranted
  obtain ⟨_, _, hstart, hfirst, hbudget⟩ := boot_budget (hmoka clients hroom) hgov hboot hidle ip
  have hbound := hbudget.grants_within hstart
    (Nat.le_add_right now.mono (es.map Prod.fst).sum) (allowed_of_from hfrom)
  rw [hfirst, Nat.one_mul, Nat.add_sub_cancel_left] at hbound
  exact (Nat.mul_le_mul_right interval hgranted).trans hbound

end runs

/-! ## Two logins -/

/-- The caches of the login scenario are the plain ones. -/
theorem loginBuild_keeps (clients : List IpAddr) :
    (Supervisor.loginBuild.moka IpAddr Supervisor.loginBuild.Bucket).Keeps (· ∈ clients) id :=
  Cache.keeps_timed _

/-- The login arrives and moves to its end, and arrives again a second later. -/
def twoLogins : List (Nat × Nat × Happening) :=
  [(0, 0, loginArrives)] ++ List.replicate 11 (0, 0, .move 0 loginUpstream) ++
    [(nanos, 1, loginArrives)] ++ List.replicate 3 (0, 1, .move 1 loginUpstream)

/-- In the service of the login an idle bucket is full before it expires. -/
theorem loginService_idle :
    (effectiveBurst loginService.process.config.ratelimit).toNat ≤
      loginService.process.config.ratelimit.requestsPerSec.toNat *
        max loginService.process.config.ratelimit.ttlSecs.toNat 1 := by
  decide +kernel

/-- The logins of the example come from one address. -/
theorem twoLogins_from : (run Service.step loginService
    (timeline (⟨0, 0⟩ : Now).mono twoLogins)).1.From (· ∈ [.v4 0xC0000207#32]) := by
  have hall : (run Service.step loginService (timeline (⟨0, 0⟩ : Now).mono twoLogins)).1.flights.all
      (fun f => decide (f.client.ip ∈ [IpAddr.v4 0xC0000207#32])) = true := by
    decide +kernel
  intro f hf
  exact of_decide_eq_true (List.all_eq_true.1 hall f hf)

/-- The tokens of the first second, from buckets as the crate has them. -/
theorem admissions_bounded_logins :
    let interval := nanos / loginService.process.config.ratelimit.requestsPerSec.toNat
    grants (Service.stepAt (.v4 0xC0000207#32)) 0 nanos loginService (⟨0, 0⟩ : Now).mono
        twoLogins * interval ≤
      ((effectiveBurst loginService.process.config.ratelimit).toNat + 1) * interval + nanos :=
  admissions_bounded (fun clients _ => loginBuild_keeps clients) (gcra_plain _ _) boot_login
    loginService_idle (.v4 0xC0000207#32) twoLogins (by decide) twoLogins_from 0 nanos

/-- The first login is sent, the second not yet. -/
theorem sent_bounded_logins :
    let interval := nanos / loginService.process.config.ratelimit.requestsPerSec.toNat
    [0].length * interval ≤
      (effectiveBurst loginService.process.config.ratelimit).toNat * interval +
        (twoLogins.map Prod.fst).sum := by
  refine sent_bounded (fun clients _ => loginBuild_keeps clients) (gcra_plain _ _) boot_login
    loginService_idle (.v4 0xC0000207#32) twoLogins (by decide) twoLogins_from
    (List.nodup_singleton 0) ?_
  intro n hn
  obtain rfl := List.mem_singleton.1 hn
  have hlog : ((run Service.step loginService
        (timeline (⟨0, 0⟩ : Now).mono twoLogins)).1.flights[0]?).any
          (fun f => f.client.ip = .v4 0xC0000207#32 ∧ f.cfg.server.enforcement = .block) = true ∧
      (0, .allowlisted true) ∉
        (run Service.step loginService (timeline (⟨0, 0⟩ : Now).mono twoLogins)).2 ∧
      (0, .sent loginCall) ∈
        (run Service.step loginService (timeline (⟨0, 0⟩ : Now).mono twoLogins)).2 := by
    decide +kernel
  obtain ⟨hflight, hinspected, hcall⟩ := hlog
  obtain ⟨f, hf, hclient⟩ := (Option.any_eq_true _ _).1 hflight
  have hclient := of_decide_eq_true hclient
  exact ⟨⟨f, hf, hclient.1, hclient.2⟩, hinspected, _, hcall⟩

end BuduWaf.Traffic
