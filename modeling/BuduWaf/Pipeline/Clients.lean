import BuduWaf.Pipeline.Reload
import BuduWaf.Rules.Clients

/-!
# `budu-pipeline`: one client among the others

* **`SharedAlike`**: two shared states that are the same but for what is kept of one client.
* **`runStages_of_other`**, **`inspectResponse_of_other`**: the pipeline answers another client
  alike on both.
* **`runStages_of_client`**, **`inspectResponse_of_client`**: the client's own requests and
  responses, on one side only, keep the states so.

A stage either reads what is shared and writes none of it (`Reading`), which is shown once for all
of these, or it asks a limiter or the rules, for which the results of `Rules/Clients` are used. The
two properties that are carried through the stacks are that a stage agrees for the others and that
it spares them.
-/

namespace BuduWaf.Pipeline

open Rules RateLimit Signatures Reputation

variable {X : Crates}

section definitions

variable (buckets : (X.moka IpAddr X.Bucket).Content → Cache.Timed IpAddr X.Bucket)
  (counts : (X.moka Str Counter).Content → Cache.Timed Str Counter)
  (client : IpAddr) (generation : Nat) (global : IpRateLimiter)

/-- Two shared states that are the same to everyone but one client. -/
structure SharedAlike (s t : Shared X) : Prop where
  /-- The clock. -/
  now : s.now = t.now
  /-- The blocklist. -/
  blocks : s.blocks = t.blocks
  /-- The allowlist. -/
  allowlist : s.allowlist = t.allowlist
  /-- The signatures. -/
  signatures : s.signatures = t.signatures
  /-- The rules. -/
  rules : s.rules = t.rules
  /-- Their limiters and the global one have cells of their own. -/
  wired : Wired generation (global :: s.rules.limiters)
  /-- The counters and the buckets. -/
  state : OthersAlike buckets counts client generation (global :: s.rules.limiters)
    s.toRuleState t.toRuleState

/-- A stage that answers another client alike on such states, and leaves such states. -/
def AgreesForOthers (stage : Stage (World X)) : Prop :=
  ∀ w w' : World X, w.1 = w'.1 ∧ w.1.client.ip ≠ client ∧
      SharedAlike buckets counts client generation global w.2 w'.2 →
    (stage.inspect w).1 = (stage.inspect w').1 ∧
      ((stage.inspect w).2.1 = (stage.inspect w').2.1 ∧
        (stage.inspect w).2.1.client.ip ≠ client ∧
          SharedAlike buckets counts client generation global (stage.inspect w).2.2
            (stage.inspect w').2.2)

/-- A stage that changes nothing for the others on a request of the client. -/
def SparesOthers (stage : Stage (World X)) : Prop :=
  ∀ (w : World X) (t : Shared X), w.1.client.ip = client ∧
      SharedAlike buckets counts client generation global w.2 t →
    (stage.inspect w).2.1.client.ip = client ∧
      SharedAlike buckets counts client generation global (stage.inspect w).2.2 t

end definitions

variable {buckets : (X.moka IpAddr X.Bucket).Content → Cache.Timed IpAddr X.Bucket}
  {counts : (X.moka Str Counter).Content → Cache.Timed Str Counter}
  {client : IpAddr} {generation : Nat} {global : IpRateLimiter}

/-! ## Stages that write no shared state -/

/-- A stage that hands the shared state on, and the client's address. -/
structure Reading (stage : Stage (World X)) : Prop where
  /-- The shared state is handed on. -/
  shared : ∀ w, (stage.inspect w).2.2 = w.2
  /-- The client's address is handed on. -/
  ip : ∀ w, (stage.inspect w).2.1.client.ip = w.1.client.ip

/-- A stage that hands the shared state on spares the others. -/
theorem Reading.sparesOthers {stage : Stage (World X)} (h : Reading stage) :
    SparesOthers buckets counts client generation global stage := by
  rintro w t ⟨hip, hshared⟩
  rw [h.shared, h.ip]
  exact ⟨hip, hshared⟩

/-- A stage that hands the shared state on agrees for the others where it answers and treats the
context alike. -/
theorem Reading.agreesForOthers {stage : Stage (World X)} (h : Reading stage)
    (hanswer : ∀ ctx s t, SharedAlike buckets counts client generation global s t →
      (stage.inspect (ctx, s)).1 = (stage.inspect (ctx, t)).1 ∧
        (stage.inspect (ctx, s)).2.1 = (stage.inspect (ctx, t)).2.1) :
    AgreesForOthers buckets counts client generation global stage := by
  rintro ⟨ctx, s⟩ ⟨_, t⟩ ⟨rfl, hip, hshared⟩
  obtain ⟨hresult, hctx⟩ := hanswer ctx s t hshared
  refine ⟨hresult, hctx, ?_, ?_⟩
  · rw [h.ip]
    exact hip
  · rw [h.shared, h.shared]
    exact hshared

/-- The reputation stage hands the shared state on as it is. -/
theorem reading_reputationStage : Reading (reputationStage (X := X)) :=
  ⟨fun _ => rfl, fun _ => rfl⟩

/-- The GeoIP stage hands the shared state on as it is. -/
theorem reading_geoStage (g : GeoStage X) : Reading (geoStage g) :=
  ⟨fun _ => rfl, fun w => GeoStage.inspect_ip g w.1⟩

/-- The sanity stage hands the shared state on as it is. -/
theorem reading_sanityStage (limits : LimitsConfig) : Reading (sanityStage (X := X) limits) :=
  ⟨fun _ => rfl, fun _ => rfl⟩

/-- The normalizing stage hands the shared state on as it is. -/
theorem reading_normalizeStage : Reading (normalizeStage (X := X)) :=
  ⟨fun _ => rfl, fun _ => rfl⟩

/-- The signature stage hands the shared state on as it is. -/
theorem reading_signatureStage : Reading (signatureStage (X := X)) :=
  ⟨fun _ => rfl, fun _ => rfl⟩

/-- The reputation stage answers the other clients alike on states that are the same to them. -/
theorem reputationStage_agrees :
    AgreesForOthers buckets counts client generation global (reputationStage (X := X)) := by
  refine reading_reputationStage.agreesForOthers ?_
  intro ctx s t h
  refine ⟨?_, rfl⟩
  show Reputation.inspect s.blocks s.now ctx = Reputation.inspect t.blocks t.now ctx
  rw [h.blocks, h.now]

/-- The GeoIP stage answers the other clients alike on states that are the same to them. -/
theorem geoStage_agrees (g : GeoStage X) :
    AgreesForOthers buckets counts client generation global (geoStage g) :=
  (reading_geoStage g).agreesForOthers fun _ _ _ _ => ⟨rfl, rfl⟩

/-- The sanity stage answers the other clients alike on states that are the same to them. -/
theorem sanityStage_agrees (limits : LimitsConfig) :
    AgreesForOthers buckets counts client generation global (sanityStage (X := X) limits) :=
  (reading_sanityStage limits).agreesForOthers fun _ _ _ _ => ⟨rfl, rfl⟩

/-- The normalizing stage treats the other clients alike on states that are the same to them. -/
theorem normalizeStage_agrees :
    AgreesForOthers buckets counts client generation global (normalizeStage (X := X)) :=
  reading_normalizeStage.agreesForOthers fun _ _ _ _ => ⟨rfl, rfl⟩

/-- The signature stage answers the other clients alike on states that are the same to them. -/
theorem signatureStage_agrees :
    AgreesForOthers buckets counts client generation global (signatureStage (X := X)) := by
  refine reading_signatureStage.agreesForOthers ?_
  intro ctx s t h
  refine ⟨?_, rfl⟩
  show Signatures.inspect s.signatures ctx = Signatures.inspect t.signatures ctx
  rw [h.signatures]

/-! ## Stages that do -/

section stages

variable (hbuckets : (X.moka IpAddr X.Bucket).ModelledBy buckets)

include hbuckets

/-- The rate-limit stage on a request of the client takes no token of another client. -/
theorem rateLimitStage_spares :
    SparesOthers buckets counts client generation global (rateLimitStage (X := X) global) := by
  rintro ⟨ctx, s⟩ t ⟨rfl, h⟩
  have hnext := h.state.check_of_client hbuckets h.wired List.mem_cons_self s.now.mono
  exact ⟨rfl, { h with state := hnext }⟩

/-- The rate-limit stage answers another client by that client's own bucket. -/
theorem rateLimitStage_agrees :
    AgreesForOthers buckets counts client generation global (rateLimitStage (X := X) global) := by
  rintro ⟨ctx, s⟩ ⟨_, t⟩ ⟨rfl, hip, h⟩
  obtain ⟨hanswer, hnext⟩ :=
    h.state.check_of_other hbuckets h.wired List.mem_cons_self s.now.mono hip
  refine ⟨?_, rfl, hip, { h with state := ?_ }⟩
  · show throttle (global.check s.limiters s.now.mono ctx.client.ip).1 =
      throttle (global.check t.limiters t.now.mono ctx.client.ip).1
    rw [← h.now, hanswer]
  · show OthersAlike buckets counts client generation (global :: s.rules.limiters)
      { s.toRuleState with limiters := (global.check s.limiters s.now.mono ctx.client.ip).2 }
      { t.toRuleState with limiters := (global.check t.limiters t.now.mono ctx.client.ip).2 }
    rw [← h.now]
    exact hnext

variable (hcounts : (X.moka Str Counter).ModelledBy counts)

include hcounts

/-- The rules stage on a request of the client changes no bucket and no count of another client. -/
theorem rulesStage_spares :
    SparesOthers buckets counts client generation global (rulesStage (X := X)) := by
  rintro ⟨ctx, s⟩ t ⟨hip, h⟩
  have hnext := evaluateCounting_of_client hbuckets hcounts h.wired
    (fun _ => List.mem_cons_of_mem global) s.now hip h.state
  exact ⟨hip, { h with state := hnext }⟩

variable (htext : Function.Injective X.ipText) (hfree : ∀ ip, Char.ofNat 1 ∉ X.ipText ip)

include htext hfree

/-- The rules stage answers another client by that client's own buckets and counts. -/
theorem rulesStage_agrees :
    AgreesForOthers buckets counts client generation global (rulesStage (X := X)) := by
  rintro ⟨ctx, s⟩ ⟨_, t⟩ ⟨rfl, hip, h⟩
  obtain ⟨hanswer, hnext⟩ := evaluateCounting_of_other hbuckets hcounts htext hfree h.wired
    (fun _ => List.mem_cons_of_mem global) s.now hip h.state
  refine ⟨?_, rfl, hip, { h with state := ?_ }⟩
  · show (s.rules.evaluateCounting s.now ctx s.toRuleState).1.elim StageResult.cont
        (fun outcome => .brk (outcomeDecision outcome)) =
      (t.rules.evaluateCounting t.now ctx t.toRuleState).1.elim StageResult.cont
        fun outcome => .brk (outcomeDecision outcome)
    rw [hanswer, h.rules, h.now]
  · show OthersAlike buckets counts client generation (global :: s.rules.limiters)
      (s.rules.evaluateCounting s.now ctx s.toRuleState).2
      (t.rules.evaluateCounting t.now ctx t.toRuleState).2
    rw [← h.rules, ← h.now]
    exact hnext

end stages

/-! ## The pipeline -/

section pipeline

variable {s t : Shared X}

/-- A stack of stages that agree answers another client alike. -/
theorem runStages_of_other {stages : List (Stage (World X))}
    (hstages : ∀ stage ∈ stages, AgreesForOthers buckets counts client generation global stage)
    (onError : OnError) {ctx : RequestCtx} (hip : ctx.client.ip ≠ client)
    (h : SharedAlike buckets counts client generation global s t) :
    (runStages onError stages (ctx, s)).decision = (runStages onError stages (ctx, t)).decision ∧
      (runStages onError stages (ctx, s)).panicked = (runStages onError stages (ctx, t)).panicked ∧
        ((runStages onError stages (ctx, s)).ctx.1 = (runStages onError stages (ctx, t)).ctx.1 ∧
          (runStages onError stages (ctx, s)).ctx.1.client.ip ≠ client ∧
            SharedAlike buckets counts client generation global
              (runStages onError stages (ctx, s)).ctx.2
              (runStages onError stages (ctx, t)).ctx.2) :=
  runStages_rel (R := fun w w' : World X => w.1 = w'.1 ∧ w.1.client.ip ≠ client ∧
      SharedAlike buckets counts client generation global w.2 w'.2)
    (List.forall₂_same.mpr fun stage hstage => ⟨rfl, hstages stage hstage⟩) ⟨rfl, hip, h⟩

/-- A stack of stages that spare the others spares them. -/
theorem runStages_of_client {stages : List (Stage (World X))}
    (hstages : ∀ stage ∈ stages, SparesOthers buckets counts client generation global stage)
    (onError : OnError) {ctx : RequestCtx} (hip : ctx.client.ip = client)
    (h : SharedAlike buckets counts client generation global s t) :
    SharedAlike buckets counts client generation global
      (runStages onError stages (ctx, s)).ctx.2 t := by
  have hkept : (runStages onError stages (ctx, s)).ctx.1.client.ip = client ∧
      SharedAlike buckets counts client generation global
        (runStages onError stages (ctx, s)).ctx.2 t :=
    runStages_preserves (I := fun w : World X => w.1.client.ip = client ∧
        SharedAlike buckets counts client generation global w.2 t)
      (fun stage hstage w hw => hstages stage hstage w t hw) ⟨hip, h⟩
  exact hkept.2

variable (hcounts : (X.moka Str Counter).ModelledBy counts)

include hcounts

/-- A response to the client changes nothing for the others. -/
theorem inspectResponse_of_client {rctx : ResponseCtx} (hip : rctx.client.ip = client)
    (h : SharedAlike buckets counts client generation global s t) :
    SharedAlike buckets counts client generation global (inspectResponse rctx s).2 t := by
  have hnext := evaluateResponse_of_client hcounts s.rules s.now hip h.state
  exact { h with state := hnext }

section

variable (hbuckets : (X.moka IpAddr X.Bucket).ModelledBy buckets)

include hbuckets

omit hcounts in
/-- The stages on the head spare the others. -/
theorem earlyStack_spares (geo : Option (GeoStage X)) (cfg : Config) :
    ∀ stage ∈ earlyStack geo cfg, SparesOthers buckets counts client generation
      (globalLimiter cfg.ratelimit) stage := by
  apply forall_mem_earlyStack
  · exact reading_reputationStage.sparesOthers
  · exact fun g => (reading_geoStage g).sparesOthers
  · exact rateLimitStage_spares hbuckets
  · exact (reading_sanityStage cfg.limits).sparesOthers
  · exact reading_normalizeStage.sparesOthers

/-- The stages with the body spare the others on a request of the client. -/
theorem lateStack_spares :
    ∀ stage ∈ lateStack (X := X), SparesOthers buckets counts client generation global stage := by
  apply forall_mem_lateStack
  · exact rulesStage_spares hbuckets hcounts
  · exact reading_signatureStage.sparesOthers

end

variable (htext : Function.Injective X.ipText) (hfree : ∀ ip, Char.ofNat 1 ∉ X.ipText ip)

include htext hfree

/-- A response to another client is judged alike. -/
theorem inspectResponse_of_other {rctx : ResponseCtx} (hip : rctx.client.ip ≠ client)
    (h : SharedAlike buckets counts client generation global s t) :
    (inspectResponse rctx s).1 = (inspectResponse rctx t).1 ∧
      SharedAlike buckets counts client generation global (inspectResponse rctx s).2
        (inspectResponse rctx t).2 := by
  obtain ⟨hanswer, hnext⟩ :=
    evaluateResponse_of_other hcounts htext hfree s.rules s.now hip h.state
  refine ⟨?_, { h with state := ?_ }⟩
  · unfold inspectResponse
    dsimp only
    rw [hanswer, h.rules, h.now]
  · show OthersAlike buckets counts client generation (global :: s.rules.limiters)
      (s.rules.evaluateResponse s.now rctx s.toRuleState).2
      (t.rules.evaluateResponse t.now rctx t.toRuleState).2
    rw [← h.rules, ← h.now]
    exact hnext

variable (hbuckets : (X.moka IpAddr X.Bucket).ModelledBy buckets)

include hbuckets

omit hcounts htext hfree in
/-- The stages on the head agree for the others. -/
theorem earlyStack_agrees (geo : Option (GeoStage X)) (cfg : Config) :
    ∀ stage ∈ earlyStack geo cfg, AgreesForOthers buckets counts client generation
      (globalLimiter cfg.ratelimit) stage := by
  apply forall_mem_earlyStack
  · exact reputationStage_agrees
  · exact geoStage_agrees
  · exact rateLimitStage_agrees hbuckets
  · exact sanityStage_agrees cfg.limits
  · exact normalizeStage_agrees

/-- The stages with the body agree for the others. -/
theorem lateStack_agrees :
    ∀ stage ∈ lateStack (X := X), AgreesForOthers buckets counts client generation global
      stage := by
  apply forall_mem_lateStack
  · exact rulesStage_agrees hbuckets hcounts htext hfree
  · exact signatureStage_agrees

end pipeline

/-! ## The supervisor -/

section supervisor

variable {s t : Shared X}

/-- States that are alike stay so when a load that swapped nothing in has used up its number. -/
theorem SharedAlike.succ (h : SharedAlike buckets counts client generation global s t) :
    SharedAlike buckets counts client (generation + 1) global s t :=
  { h with
    wired := ⟨h.wired.nodup, fun l hl later hlater => h.wired.cells l hl later (by omega)⟩
    state := { h.state with unused := fun later hlater => h.state.unused later (by omega) } }

/-- New rules find no bucket in their cells. -/
theorem SharedAlike.storeRules {later : Nat} (hlater : generation < later)
    (h : SharedAlike buckets counts client generation global s t) (hglobal : global.cell = .global)
    {fs : FileSystem} {path : Str} {scoring : ScoringConfig} {defaultTz : Int} {rules : RuleSet X}
    (hload : RuleSet.load X fs path scoring defaultTz later = .ok rules) :
    SharedAlike buckets counts client later global { s with rules := rules }
      { t with rules := rules } := by
  refine ⟨h.now, h.blocks, h.allowlist, h.signatures, rfl, wired_of_load hload hglobal,
    h.state.counters, ?_, fun later' hlater' => h.state.unused later' (hlater.trans hlater')⟩
  intro l hl
  rcases List.mem_cons.mp hl with rfl | hl
  · exact h.state.buckets l List.mem_cons_self
  · obtain ⟨position, hcell⟩ := (cells_of_load hload).2 l hl
    obtain ⟨hs, ht⟩ := h.state.unused later hlater position
    show (buckets (l.buckets s.limiters)).AgreeOn (· ≠ client) (buckets (l.buckets t.limiters))
    unfold IpRateLimiter.buckets
    rw [hcell, hs, ht]
    exact .refl _

/-- After a reload swapped its parts in on both sides, the states are the same to the others in the
next generation. -/
theorem SharedAlike.swapIn (h : SharedAlike buckets counts client generation global s t)
    (hglobal : global.cell = .global) {fs : FileSystem} {now : Now} {cfg : Config}
    {new : Rebuilt X} (hnew : rebuild X fs now (generation + 1) cfg = .ok new) :
    SharedAlike buckets counts client (generation + 1) global (new.swapIn s) (new.swapIn t) := by
  unfold rebuild at hnew
  obtain ⟨signatures, -, hnew⟩ := bind_ok_iff.mp hnew
  obtain ⟨defaultTz, -, hnew⟩ := bind_ok_iff.mp hnew
  obtain ⟨rules, hrules, hnew⟩ := bind_ok_iff.mp hnew
  obtain ⟨allowlist, -, hnew⟩ := bind_ok_iff.mp hnew
  obtain rfl := Except.ok.inj hnew
  have hstored := h.storeRules (Nat.lt_succ_self _) hglobal (mapError_ok_iff.mp hrules)
  exact { hstored with allowlist := rfl, signatures := rfl }

/-- A refresh of the blocklist, on both sides. -/
theorem SharedAlike.refreshBlocklist (h : SharedAlike buckets counts client generation global s t)
    (fs : FileSystem) (feeds : Feeds) (cfg : Config) :
    SharedAlike buckets counts client generation global
      (Pipeline.refreshBlocklist fs feeds cfg s).2
      (Pipeline.refreshBlocklist fs feeds cfg t).2 := by
  cases hs : rebuildBlocks X fs feeds s.now cfg with
  | error e =>
      rw [refreshBlocklist_of_error hs, refreshBlocklist_of_error (h.now ▸ hs)]
      exact h
  | ok blocks =>
      rw [refreshBlocklist_of_ok hs, refreshBlocklist_of_ok (h.now ▸ hs)]
      exact { h with blocks := rfl }

/-- A reload of the rules on both sides keeps the states alike, since it puts the same rules in
force with new limiters. -/
theorem SharedAlike.apply (h : SharedAlike buckets counts client generation global s t)
    (hglobal : global.cell = .global) (fs : FileSystem) (cfg : Config) :
    SharedAlike buckets counts client (generation + 1) global
      (Pipeline.apply fs (generation + 1) cfg s).2
      (Pipeline.apply fs (generation + 1) cfg t).2 := by
  cases hs : rebuild X fs s.now (generation + 1) cfg with
  | error e =>
      rw [apply_of_error hs, apply_of_error (h.now ▸ hs)]
      exact h.succ
  | ok new =>
      rw [apply_of_ok hs, apply_of_ok (h.now ▸ hs)]
      exact h.swapIn hglobal hs

/-- Sweeping the buckets on both sides keeps the states alike. -/
theorem SharedAlike.sweepBuckets (hbuckets : (X.moka IpAddr X.Bucket).ModelledBy buckets)
    (h : SharedAlike buckets counts client generation global s t) :
    SharedAlike buckets counts client generation global
      { s with
        limiters := s.limiters.set global.cell
          ((X.moka IpAddr X.Bucket).runPendingTasks (global.buckets s.limiters) s.now.mono) }
      { t with
        limiters := t.limiters.set global.cell
          ((X.moka IpAddr X.Bucket).runPendingTasks (global.buckets t.limiters) t.now.mono) } := by
  have hcell : (buckets (global.buckets (s.limiters.set global.cell
        ((X.moka IpAddr X.Bucket).runPendingTasks (global.buckets s.limiters) s.now.mono)))).AgreeOn
      (· ≠ client) (buckets (global.buckets (t.limiters.set global.cell
        ((X.moka IpAddr X.Bucket).runPendingTasks (global.buckets t.limiters) t.now.mono)))) := by
    rw [IpRateLimiter.buckets_set_self, IpRateLimiter.buckets_set_self, hbuckets.runPendingTasks,
      hbuckets.runPendingTasks, ← h.now]
    exact (h.state.buckets global List.mem_cons_self).runPendingTasks s.now.mono
  have hlimiters := h.state.rewrite h.wired List.mem_cons_self hcell
    (fun cell hne => Limiters.set_of_ne hne _ _) fun cell hne => Limiters.set_of_ne hne _ _
  exact { h with state := hlimiters }

/-- The states stay the same to the others where the counters are swept on both sides. -/
theorem SharedAlike.sweepCounters (hcounts : (X.moka Str Counter).ModelledBy counts)
    (h : SharedAlike buckets counts client generation global s t) :
    SharedAlike buckets counts client generation global
      { s with counters := (X.moka Str Counter).runPendingTasks s.counters s.now.mono }
      { t with counters := (X.moka Str Counter).runPendingTasks t.counters t.now.mono } := by
  refine { h with state := { h.state with counters := ?_ } }
  show (counts ((X.moka Str Counter).runPendingTasks s.counters s.now.mono)).AgreeOn _
    (counts ((X.moka Str Counter).runPendingTasks t.counters t.now.mono))
  rw [hcounts.runPendingTasks, hcounts.runPendingTasks, ← h.now]
  exact h.state.counters.runPendingTasks s.now.mono

/-- Expired entries of the blocklist are dropped on both sides. -/
theorem SharedAlike.pruneBlocks (h : SharedAlike buckets counts client generation global s t) :
    SharedAlike buckets counts client generation global
      { s with blocks := pruneExpired s.blocks s.now.wall }
      { t with blocks := pruneExpired t.blocks t.now.wall } := by
  refine { h with blocks := ?_ }
  show pruneExpired s.blocks s.now.wall = pruneExpired t.blocks t.now.wall
  rw [h.blocks, h.now]

/-- Pruning the allowlist on both sides keeps the states alike. -/
theorem SharedAlike.pruneAllowlist (h : SharedAlike buckets counts client generation global s t) :
    SharedAlike buckets counts client generation global
      { s with allowlist := pruneExpired s.allowlist s.now.wall }
      { t with allowlist := pruneExpired t.allowlist t.now.wall } := by
  refine { h with allowlist := ?_ }
  show pruneExpired s.allowlist s.now.wall = pruneExpired t.allowlist t.now.wall
  rw [h.allowlist, h.now]

/-- Collecting garbage on both sides keeps the states alike. -/
theorem SharedAlike.runMaintenance (hbuckets : (X.moka IpAddr X.Bucket).ModelledBy buckets)
    (hcounts : (X.moka Str Counter).ModelledBy counts)
    (h : SharedAlike buckets counts client generation global s t) :
    SharedAlike buckets counts client generation global (Pipeline.runMaintenance global s)
      (Pipeline.runMaintenance global t) :=
  (((h.sweepBuckets hbuckets).sweepCounters hcounts).pruneBlocks).pruneAllowlist

end supervisor

end BuduWaf.Pipeline
