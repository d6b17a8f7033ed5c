import BuduWaf.Rules.BigStep
import BuduWaf.Traffic.Service

/-!
# `budu`: who writes what

Flights and the supervisor share the clock, the lists, the signatures, the rules and what the
rules and limiters keep.

* **`SameHandles`**: what a flight leaves alone: the clock and everything that is swapped
  (`move_handles`).
* **`Flight.move_asks`**: a move asks one stage about its request, or has its reply judged, or
  touches nothing that is shared.
* **`Configured`**: what holds of the configuration at boot and of those that are read holds of the
  one in force, and of the ones flights were taken in under.
* **`KeepsCell`**: the rules write the caches of their own limiters only.

These are the frame lemmas of the model: for each kind of step, what it does not touch. They are
stated for everything at once that a step leaves alone, as a structure, and each later module takes
the fields that it needs.
-/

namespace BuduWaf.Traffic

open Rules RateLimit Signatures Reputation Pipeline Proxy Supervisor

variable {X : Crates}

/-! ## What stages leave alone -/

/-- The clock, the lists, the signatures and the rules are as they were. -/
def SameHandles (s s' : Shared X) : Prop := s' = { s with toRuleState := s'.toRuleState }

namespace SameHandles

variable {s s' : Shared X}

/-- A state has the same handles as itself. -/
theorem refl (s : Shared X) : SameHandles s s := rfl

/-- Counters and buckets are no handles. -/
theorem of_state (s : Shared X) (state : RuleState X) :
    SameHandles s { s with toRuleState := state } := rfl

/-- With the same handles the clock is the same. -/
theorem now (h : SameHandles s s') : s'.now = s.now := by rw [h]

/-- With the same handles the blocklist is the same. -/
theorem blocks (h : SameHandles s s') : s'.blocks = s.blocks := by rw [h]

/-- With the same handles the allowlist is the same. -/
theorem allowlist (h : SameHandles s s') : s'.allowlist = s.allowlist := by rw [h]

/-- With the same handles the rules are the same. -/
theorem rules (h : SameHandles s s') : s'.rules = s.rules := by rw [h]

end SameHandles

/-- The stages of the standard pipeline leave the handles alone. -/
theorem stage_handles (geo : Option (GeoStage X)) (cfg : Config) :
    ∀ stage ∈ (standard geo cfg).early ++ (standard geo cfg).late, ∀ w : World X,
      SameHandles w.2 (stage.inspect w).2.2 := by
  have hearly : ∀ stage ∈ earlyStack geo cfg, ∀ w : World X,
      SameHandles w.2 (stage.inspect w).2.2 := by
    apply forall_mem_earlyStack
    · exact fun w => .refl w.2
    · exact fun g w => .refl w.2
    · exact fun w => .of_state w.2 _
    · exact fun w => .refl w.2
    · exact fun w => .refl w.2
  have hlate : ∀ stage ∈ lateStack (X := X), ∀ w : World X,
      SameHandles w.2 (stage.inspect w).2.2 := by
    apply forall_mem_lateStack
    · exact fun w => .of_state w.2 _
    · exact fun w => .refl w.2
  intro stage hstage
  rcases List.mem_append.1 hstage with hstage | hstage
  · exact hearly stage hstage
  · exact hlate stage hstage

/-! ## What a move asks -/

/-- What a flight does to what is shared when it moves. -/
inductive Asks (p : Pipeline X) (P : IpAddr → Prop) (s : Shared X) : Moved X Note → Prop
  | stage (stage : Stage (World X)) (ctx : RequestCtx) (r : Moved X Note)
      (there : stage ∈ p.early ++ p.late) (about : P ctx.client.ip)
      (shared : r.shared = (stage.inspect (ctx, s)).2.2)
      (notes : r.notes = [.inspected stage.name ctx (stage.inspect (ctx, s)).1]) : Asks p P s r
  | reply (rctx : ResponseCtx) (r : Moved X Note)
      (shared : r.shared = (Pipeline.inspectResponse rctx s).2)
      (notes : ∃ d, r.notes = [.judged d]) : Asks p P s r
  | nothing (r : Moved X Note) (shared : r.shared = s)
      (notes : ∀ stage ctx result, .inspected stage ctx result ∉ r.notes) : Asks p P s r

/-- A move of another kind asks nothing. -/
theorem Asks.of_silent {p : Pipeline X} {P : IpAddr → Prop} {s : Shared X} {r : Moved X Note}
    (hshared : r.shared = s) (hnotes : r.notes = []) : Asks p P s r := by
  apply Asks.nothing r hshared
  intro stage ctx result hmem
  rw [hnotes] at hmem
  cases hmem

/-- **What a move asks**: one stage of the pipeline about its client, or the rules about its
reply, or nothing. -/
theorem Flight.move_asks {p : Pipeline X} {P : IpAddr → Prop} {f : Flight X}
    (upstream : OutRequest → UpstreamResult) (s : Shared X) (m : Metrics)
    (h : f.point.About p P) : Asks p P s (f.move p upstream s m) := by
  cases hpoint : f.point with
  | arrived =>
      cases hlisted : isWhitelisted s f.client.ip with
      | true =>
          simp only [move, hpoint, hlisted, if_true]
          refine .nothing _ rfl fun _ _ _ => ?_
          simp
      | false =>
          simp only [move, hpoint, hlisted, Bool.false_eq_true, if_false]
          refine .nothing _ rfl fun _ _ _ => ?_
          simp
  | early ctx rest =>
      rw [hpoint] at h
      cases rest with
      | nil =>
          simp only [move, hpoint]
          exact .of_silent rfl rfl
      | cons stage rest =>
          obtain ⟨hctx, hrest⟩ := h
          have hthere : stage ∈ p.early ++ p.late :=
            List.mem_append_left _ (hrest stage List.mem_cons_self)
          simp only [move, hpoint]
          exact .stage stage ctx _ hthere hctx (runStage_shared ..) (runStage_notes ..)
  | gate ctx =>
      simp only [move, hpoint]
      cases bodyGate f.cfg f.req <;> exact .of_silent rfl rfl
  | late ctx body len rest =>
      rw [hpoint] at h
      cases rest with
      | nil =>
          simp only [move, hpoint]
          exact .of_silent rfl rfl
      | cons stage rest =>
          obtain ⟨hctx, hrest⟩ := h
          have hthere : stage ∈ p.early ++ p.late :=
            List.mem_append_right _ (hrest stage List.mem_cons_self)
          simp only [move, hpoint]
          exact .stage stage ctx _ hthere hctx (runStage_shared ..) (runStage_notes ..)
  | admitted inspected body len =>
      simp only [move, hpoint]
      refine .nothing _ rfl fun _ _ _ => ?_
      simp
  | waiting inspected call =>
      simp only [move, hpoint]
      cases forwardResult X f.cfg (quietEnv (X := X) upstream) call <;>
        exact .of_silent rfl rfl
  | replied resp =>
      simp only [move, hpoint]
      cases buffersReply p.engine f.cfg resp s with
      | false => exact .of_silent rfl rfl
      | true =>
          simp only [if_true]
          cases bufferFrames f.cfg.limits.maxInspectBody.toNat resp.body.toStream.failure []
              resp.body.toStream.frames <;> exact .of_silent rfl rfl
  | judging resp held =>
      simp only [move, hpoint]
      exact .reply _ _ rfl ⟨_, rfl⟩
  | answered resp =>
      simp only [move, hpoint]
      exact .of_silent rfl rfl

/-- **A flight leaves the handles alone.** -/
theorem Flight.move_handles {geo : Option (GeoStage X)} {cfg : Config} {P : IpAddr → Prop}
    {f : Flight X} (upstream : OutRequest → UpstreamResult) (s : Shared X) (m : Metrics)
    (h : f.point.About (standard geo cfg) P) :
    SameHandles s (f.move (standard geo cfg) upstream s m).shared := by
  cases f.move_asks upstream s m h with
  | stage stage ctx r there about shared notes =>
      rw [shared]
      exact stage_handles geo cfg stage there (ctx, s)
  | reply rctx r shared notes =>
      rw [shared]
      exact .of_state s _
  | nothing r shared notes =>
      rw [shared]
      exact .refl s

/-! ## The flights of a run -/

/-- Every flight is about its pipeline. -/
def Service.Underway (t : Service X) : Prop :=
  ∀ f ∈ t.flights, f.point.About t.process.pipeline fun _ => True

/-- A step keeps the flights under way. -/
theorem Service.underway_step {t : Service X} (h : t.Underway) (happening : Happening) :
    (t.step happening).1.Underway := by
  intro f' hf'
  obtain ⟨n, hn⟩ := List.getElem?_of_mem hf'
  rw [(t.step_pipeline happening).1]
  obtain ⟨hstay, -⟩ | ⟨-, -, _, _, _, -, rfl⟩ | ⟨f, upstream, -, hthere, rfl, -⟩ :=
    t.step_flight happening hn
  · exact h f' (List.mem_of_getElem? hstay)
  · trivial
  · exact Flight.about_move (fun _ _ _ _ => trivial) trivial (h f (List.mem_of_getElem? hthere))

/-! ## The configuration in force -/

/-- A configuration that loads is valid. -/
theorem validate_of_load {fs : FileSystem} {path : Str} {cfg : Config}
    (h : Config.load X fs path = .ok cfg) : cfg.validate X.ipText = .ok () := by
  unfold Config.load at h
  obtain ⟨text, -, h⟩ := bind_ok_iff.mp h
  obtain ⟨read, -, h⟩ := bind_ok_iff.mp h
  obtain ⟨⟨⟩, hvalid, h⟩ := bind_ok_iff.mp h
  obtain rfl := Except.ok.inj h
  exact hvalid

/-- The configuration a chore carries, if it carries one. -/
def Chore.config? : Chore X → Option Config
  | .rebuild cfg | .lists cfg | .config cfg => some cfg
  | _ => none

/-- The chores that a chore leads to carry no configuration. -/
theorem Chore.config?_act (fs : FileSystem) (feeds : Feeds) (p : Process X) (chore : Chore X) :
    ∀ next ∈ (chore.act fs feeds p).2, next.config? = none := by
  intro next hnext
  cases chore with
  | rebuild cfg =>
      simp only [act] at hnext
      cases hnew : Pipeline.rebuild X fs p.shared.now (p.generation + 1) cfg with
      | error e =>
          rw [hnew] at hnext
          cases hnext
      | ok new =>
          rw [hnew] at hnext
          obtain ⟨swap, -, rfl⟩ := List.mem_map.1 hnext
          rfl
  | lists cfg =>
      simp only [act] at hnext
      cases hset : buildBlocks X fs p.shared.now.wall cfg.reputation with
      | error e =>
          rw [hset] at hnext
          cases hnext
      | ok set =>
          rw [hset] at hnext
          dsimp only at hnext
          split at hnext <;> obtain rfl := List.mem_singleton.1 hnext <;> rfl
  | client urls set =>
      simp only [act] at hnext
      split at hnext <;> obtain rfl := List.mem_singleton.1 hnext <;> rfl
  | fetch urls set =>
      cases urls <;> obtain rfl := List.mem_singleton.1 hnext <;> rfl
  | _ => cases hnext

/-- Such is the configuration in force, and those about to be. -/
structure Service.Configured (P : Config → Prop) (t : Service X) : Prop where
  /-- The one in force. -/
  config : P t.process.config
  /-- Those the supervisor is at. -/
  chores : ∀ chore ∈ t.chores, ∀ cfg ∈ chore.config?, P cfg

/-- **A step keeps what holds of every configuration that is read.** -/
theorem Service.configured_step {P : Config → Prop} {t : Service X} {h : Happening}
    (hread : ∀ fs path cfg, h = .hangup fs path → Config.load X fs path = .ok cfg → P cfg)
    (ht : t.Configured P) : (t.step h).1.Configured P := by
  have hstep := t.stepped h
  generalize t.step h = r at hstep ⊢
  obtain ⟨u, notes⟩ := r
  cases hstep with
  | took _ chores idle event =>
      refine ⟨ht.config, ?_⟩
      obtain ⟨fs, path, cfg, rfl, hload, rfl⟩ | ⟨rfl, rfl⟩ | ⟨rfl, rfl⟩ := event
      · have hcfg := hread fs path cfg rfl hload
        simp only [reloadChores, List.mem_cons, List.not_mem_nil, or_false]
        rintro chore (rfl | rfl | rfl) cfg' hcfg' <;> obtain rfl := Option.some.inj hcfg' <;>
          exact hcfg
      · intro chore hchore cfg hcfg
        obtain rfl := List.mem_singleton.1 hchore
        obtain rfl := Option.some.inj hcfg
        exact ht.config
      · simp [maintenanceChores, Chore.config?]
  | did fs feeds chore rest next =>
      have hall := ht.chores
      rw [next] at hall
      obtain ⟨hchore, hrest⟩ := List.forall_mem_cons.1 hall
      constructor
      · cases chore with
        | config cfg => exact hchore cfg rfl
        | fetch urls set => cases urls <;> exact ht.config
        | _ => exact ht.config
      · intro c hc cfg hcfg
        rcases List.mem_append.1 hc with hc | hc
        · rw [Chore.config?_act fs feeds t.process chore c hc] at hcfg
          cases hcfg
        · exact hrest c hc cfg hcfg
  | _ => exact ⟨ht.config, ht.chores⟩

/-- A flight is taken in under a configuration that was in force. -/
theorem Service.flights_configured {P : Config → Prop} {t : Service X} {h : Happening}
    (ht : t.Configured P) (hflights : ∀ f ∈ t.flights, P f.cfg) :
    ∀ f ∈ (t.step h).1.flights, P f.cfg := by
  intro f' hf'
  obtain ⟨n, hn⟩ := List.getElem?_of_mem hf'
  obtain ⟨hstay, -⟩ | ⟨-, -, _, _, _, -, rfl⟩ | ⟨f, upstream, -, hthere, rfl, -⟩ :=
    t.step_flight h hn
  · exact hflights f' (List.mem_of_getElem? hstay)
  · exact ht.config
  · exact hflights f (List.mem_of_getElem? hthere)

/-! ## What the rules write -/

/-- The cache of a limiter's cell is as it was. -/
def KeepsCell (cell : Cell) (s s' : RuleState X) : Prop := s'.limiters cell = s.limiters cell

section cells

variable {cell : Cell} {rs : RuleSet X} {now : Now}

/-- One rule writes no other cell than that of its own limiter. -/
theorem effect_cell {ctx : RequestCtx} {counting : Bool} {s : RuleState X} {rule : CompiledRule X}
    (hrule : ∀ l, rule.action = .rateLimit l → l.cell ≠ cell) :
    KeepsCell cell s (effect counting now ctx s rule) := by
  unfold effect
  split
  · cases haction : rule.action with
    | rateLimit l => exact Limiters.set_of_ne (hrule l haction).symm _ _
    | log => cases counting <;> exact Eq.refl _
    | _ => exact Eq.refl _
  · exact Eq.refl _

/-- The request rules keep a cell that is none of their limiters'. -/
theorem evaluateCounting_cell (hrs : ∀ l ∈ rs.limiters, l.cell ≠ cell) (ctx : RequestCtx)
    (s : RuleState X) : KeepsCell cell s (rs.evaluateCounting now ctx s).2 := by
  have hscan : KeepsCell cell s (scan (ruleStep true now ctx) rs.rules (s, 0)).2.1 := by
    refine scan_preserves (I := fun s' : RuleState X × UInt32 => KeepsCell cell s s'.1) ?_
      (Eq.refl _)
    rintro rule hrule ⟨s', total⟩ h
    rw [ruleStep_eq]
    exact (effect_cell fun l haction => hrs l (RuleSet.mem_limiters hrule haction)).trans h
  unfold RuleSet.evaluateCounting RuleSet.evaluateInner
  rcases hs : scan (ruleStep true now ctx) rs.rules (s, 0) with ⟨_ | outcome, s', total⟩
  · rw [hs] at hscan
    dsimp only
    split
    · exact hscan
    · exact hscan
  · rw [hs] at hscan
    exact hscan

/-- The response rules write no cell, as none of them has a limiter that is asked. -/
theorem evaluateResponse_cell (rctx : ResponseCtx) (s : RuleState X) :
    KeepsCell cell s (rs.evaluateResponse now rctx s).2 := by
  refine scan_preserves (I := KeepsCell cell s) ?_ (Eq.refl _)
  intro rule _ s' h
  unfold responseStep
  split
  · cases rule.action <;> exact h
  · exact h

end cells

end BuduWaf.Traffic
