import BuduWaf.Pipeline.Standard
import BuduWaf.Rules.Generations

/-!
# `budu-pipeline`: the pipeline under two loads of one rule file

* **`Loaded`**: what the files give; **`SharedTwins`**: a shared state after some reloads of them,
  and one without the reloads.
* **`runStages_twins`**, **`inspectResponse_twins`**: the pipeline decides alike on both and leaves
  twins.
* **`SharedTwins.reload`**: one more reload keeps them twins, if each rule's buckets in force
  answer like new ones.

Each stage gets a lemma that says it answers alike on twins and leaves twins (`AgreesOnTwins`), and
a stack of such stages is one by the rule for passes. Lists are compared by what they say from an
instant on and not as lists, since a reload reads them at another time, when entries may have
expired.
-/

namespace BuduWaf.Pipeline

open Rules RateLimit Signatures Reputation

variable {X : Crates}

/-- A list that says, from an instant on, what `listed` says. -/
def Current (set : List BlockEntry) (now : Nat) (listed : IpAddr → Nat → Bool) : Prop :=
  ∀ ip, ∀ instant, now ≤ instant → contains set ip instant = listed ip instant

variable (X) in
/-- What the files that are loaded again and again give. -/
structure Loaded where
  /-- When they were loaded first. -/
  start : Nat
  /-- The signatures. -/
  signatures : SignatureDb X
  /-- The rules, of load number 0. -/
  rules : RuleSet X
  /-- What the blocklist says of an address at an instant. -/
  listed : IpAddr → Nat → Bool
  /-- What the allowlist says. -/
  allowed : IpAddr → Nat → Bool

/-- A shared state under load number `generation` of the files, and one under their load number
0, with the same clock. -/
structure SharedTwins (files : Loaded X) (generation : Nat) (s t : Shared X) : Prop where
  /-- The clock. -/
  now : s.now = t.now
  /-- It has not gone back behind the first load. -/
  since : files.start ≤ s.now.wall
  /-- The counters and the buckets. -/
  state : Twins files.rules generation s.now.mono s.toRuleState t.toRuleState
  /-- The signatures. -/
  signatures : s.signatures = files.signatures ∧ t.signatures = files.signatures
  /-- The rules after the reloads. -/
  reloaded : s.rules = files.rules.inGeneration generation
  /-- The rules without them. -/
  loaded : t.rules = files.rules
  /-- The blocklists. -/
  blocks : Current s.blocks s.now.wall files.listed ∧ Current t.blocks s.now.wall files.listed
  /-- The allowlists. -/
  allowlist : Current s.allowlist s.now.wall files.allowed ∧
    Current t.allowlist s.now.wall files.allowed

/-! ## The stages -/

section stages

variable {files : Loaded X} {generation : Nat}

/-- A stage that answers alike on twins and leaves twins. -/
def AgreesOnTwins (files : Loaded X) (generation : Nat) (stage : Stage (World X)) : Prop :=
  ∀ w w' : World X, w.1 = w'.1 ∧ SharedTwins files generation w.2 w'.2 →
    (stage.inspect w).1 = (stage.inspect w').1 ∧ (stage.inspect w).2.1 = (stage.inspect w').2.1 ∧
      SharedTwins files generation (stage.inspect w).2.2 (stage.inspect w').2.2

/-- An address is on the blocklist of both twins or of neither, now. -/
theorem SharedTwins.contains_blocks {s t : Shared X}
    (h : SharedTwins files generation s t) (ip : IpAddr) :
    contains s.blocks ip s.now.wall = contains t.blocks ip t.now.wall := by
  rw [← h.now, h.blocks.1 ip _ (Nat.le_refl _), h.blocks.2 ip _ (Nat.le_refl _)]

/-- An address is on the allowlist of both twins or of neither, now. -/
theorem SharedTwins.isWhitelisted {s t : Shared X}
    (h : SharedTwins files generation s t) (ip : IpAddr) :
    isWhitelisted s ip = isWhitelisted t ip := by
  unfold Pipeline.isWhitelisted
  rw [← h.now, h.allowlist.1 ip _ (Nat.le_refl _), h.allowlist.2 ip _ (Nat.le_refl _)]

/-- The reputation stage answers alike on twins. -/
theorem reputationStage_twins :
    AgreesOnTwins files generation (reputationStage (X := X)) := by
  rintro ⟨ctx, s⟩ ⟨_, t⟩ ⟨rfl, h⟩
  refine ⟨?_, rfl, h⟩
  show Reputation.inspect s.blocks s.now ctx = Reputation.inspect t.blocks t.now ctx
  unfold Reputation.inspect
  rw [h.contains_blocks]

/-- The GeoIP stage answers alike on twins. -/
theorem geoStage_twins (g : GeoStage X) :
    AgreesOnTwins files generation (geoStage g) := by
  rintro ⟨ctx, s⟩ ⟨_, t⟩ ⟨rfl, h⟩
  exact ⟨rfl, rfl, h⟩

/-- The rate-limit stage answers alike on twins, and leaves twins. -/
theorem rateLimitStage_twins (hplaced : Placed 0 files.rules.limiters) (cfg : RateLimitConfig) :
    AgreesOnTwins files generation (rateLimitStage (globalLimiter cfg)) := by
  rintro ⟨ctx, s⟩ ⟨_, t⟩ ⟨rfl, h⟩
  obtain ⟨hanswer, hnext⟩ := h.state.checkGlobal hplaced (l := globalLimiter cfg) rfl ctx.client.ip
  refine ⟨?_, rfl, { h with state := ?_ }⟩
  · show throttle ((globalLimiter cfg).check s.limiters s.now.mono ctx.client.ip).1 =
      throttle ((globalLimiter cfg).check t.limiters t.now.mono ctx.client.ip).1
    rw [← h.now, hanswer]
  · show Twins files.rules generation s.now.mono
      { s.toRuleState with limiters :=
          ((globalLimiter cfg).check s.limiters s.now.mono ctx.client.ip).2 }
      { t.toRuleState with limiters :=
          ((globalLimiter cfg).check t.limiters t.now.mono ctx.client.ip).2 }
    rw [← h.now]
    exact hnext

/-- The sanity stage answers alike on twins. -/
theorem sanityStage_twins (limits : LimitsConfig) :
    AgreesOnTwins files generation (sanityStage (X := X) limits) := by
  rintro ⟨ctx, s⟩ ⟨_, t⟩ ⟨rfl, h⟩
  exact ⟨rfl, rfl, h⟩

/-- The normalizing stage leaves the same context on twins. -/
theorem normalizeStage_twins :
    AgreesOnTwins files generation (normalizeStage (X := X)) := by
  rintro ⟨ctx, s⟩ ⟨_, t⟩ ⟨rfl, h⟩
  exact ⟨rfl, rfl, h⟩

/-- The rules stage answers alike on twins, and leaves twins. -/
theorem rulesStage_twins (hplaced : Placed 0 files.rules.limiters) :
    AgreesOnTwins files generation (rulesStage (X := X)) := by
  rintro ⟨ctx, s⟩ ⟨_, t⟩ ⟨rfl, h⟩
  obtain ⟨hanswer, hnext⟩ := evaluateCounting_twins hplaced ctx h.state
  rw [← h.reloaded] at hanswer hnext
  refine ⟨?_, rfl, { h with state := ?_ }⟩
  · show (s.rules.evaluateCounting s.now ctx s.toRuleState).1.elim StageResult.cont
        (fun outcome => .brk (outcomeDecision outcome)) =
      (t.rules.evaluateCounting t.now ctx t.toRuleState).1.elim StageResult.cont
        fun outcome => .brk (outcomeDecision outcome)
    rw [hanswer, h.loaded, ← h.now]
  · show Twins files.rules generation s.now.mono
      (s.rules.evaluateCounting s.now ctx s.toRuleState).2
      (t.rules.evaluateCounting t.now ctx t.toRuleState).2
    rw [h.loaded, ← h.now]
    exact hnext

/-- The signature stage answers alike on twins. -/
theorem signatureStage_twins :
    AgreesOnTwins files generation (signatureStage (X := X)) := by
  rintro ⟨ctx, s⟩ ⟨_, t⟩ ⟨rfl, h⟩
  refine ⟨?_, rfl, h⟩
  show Signatures.inspect s.signatures ctx = Signatures.inspect t.signatures ctx
  rw [h.signatures.1, h.signatures.2]

end stages

/-! ## The pipeline -/

section pipeline

variable {files : Loaded X} (hplaced : Placed 0 files.rules.limiters) {generation : Nat}

/-- The response phase decides alike on twins, and leaves twins. -/
theorem inspectResponse_twins (rctx : ResponseCtx) {s t : Shared X}
    (h : SharedTwins files generation s t) :
    (inspectResponse rctx s).1 = (inspectResponse rctx t).1 ∧
      SharedTwins files generation (inspectResponse rctx s).2
        (inspectResponse rctx t).2 := by
  obtain ⟨hanswer, hnext⟩ := evaluateResponse_twins rctx h.state
  rw [← h.reloaded] at hanswer hnext
  rw [h.now, ← h.loaded] at hanswer
  refine ⟨?_, { h with state := ?_ }⟩
  · unfold inspectResponse
    dsimp only
    rw [← hanswer, h.now]
  · show Twins files.rules generation s.now.mono
      (s.rules.evaluateResponse s.now rctx s.toRuleState).2
      (t.rules.evaluateResponse t.now rctx t.toRuleState).2
    rw [h.loaded, ← h.now]
    exact hnext

/-- A stack of such stages decides alike on twins, and leaves twins. -/
theorem runStages_twins {stages : List (Stage (World X))}
    (hstages : ∀ stage ∈ stages, AgreesOnTwins files generation stage)
    (onError : OnError) (ctx : RequestCtx) {s t : Shared X}
    (h : SharedTwins files generation s t) :
    (runStages onError stages (ctx, s)).decision = (runStages onError stages (ctx, t)).decision ∧
      (runStages onError stages (ctx, s)).panicked = (runStages onError stages (ctx, t)).panicked ∧
      (runStages onError stages (ctx, s)).ctx.1 = (runStages onError stages (ctx, t)).ctx.1 ∧
      SharedTwins files generation (runStages onError stages (ctx, s)).ctx.2
        (runStages onError stages (ctx, t)).ctx.2 :=
  runStages_rel (R := fun w w' : World X =>
      w.1 = w'.1 ∧ SharedTwins files generation w.2 w'.2)
    (List.forall₂_same.mpr fun stage hstage => ⟨rfl, hstages stage hstage⟩) ⟨rfl, h⟩

include hplaced

/-- Every stage of the early stack agrees on twins. -/
theorem earlyStack_twins (geo : Option (GeoStage X)) (cfg : Config) :
    ∀ stage ∈ earlyStack geo cfg, AgreesOnTwins files generation stage := by
  apply forall_mem_earlyStack
  · exact reputationStage_twins
  · exact geoStage_twins
  · exact rateLimitStage_twins hplaced cfg.ratelimit
  · exact sanityStage_twins cfg.limits
  · exact normalizeStage_twins

/-- Every stage of the late stack answers alike on twins. -/
theorem lateStack_twins :
    ∀ stage ∈ lateStack (X := X), AgreesOnTwins files generation stage := by
  apply forall_mem_lateStack
  · exact rulesStage_twins hplaced
  · exact signatureStage_twins

/-- **One more reload** of unchanged files keeps twins, if the limiters of the rules in force
answer like new ones. -/
theorem SharedTwins.reload {s t : Shared X} (h : SharedTwins files generation s t)
    (hnew : ∀ l ∈ s.rules.limiters, l.LikeNew s.now.mono s.limiters)
    {allowlist blocks : List BlockEntry}
    (hallow : Current allowlist s.now.wall files.allowed)
    (hblocks : Current blocks s.now.wall files.listed) :
    SharedTwins files (generation + 1)
      { s with
        rules := files.rules.inGeneration (generation + 1)
        allowlist := allowlist
        blocks := blocks } t :=
  { h with
    state := h.state.reload hplaced (h.reloaded ▸ hnew)
    reloaded := rfl
    blocks := ⟨hblocks, h.blocks.2⟩
    allowlist := ⟨hallow, h.allowlist.2⟩ }

end pipeline

end BuduWaf.Pipeline
