import BuduWaf.Pipeline.Twins
import BuduWaf.Proxy.Simulation
import BuduWaf.Supervisor.Process

/-!
# `budu`: reloads of unchanged files and the rate limits

* **`Started`**: what a start says about every later reload of the same files: it succeeds, gives
  the same signatures and lists, and the same rules with new limiters.
* **`Host.step`**: the process with its metrics, answering requests while time passes, garbage is
  collected, the blocklist is refreshed and reloads happen.
* **`reload_invisible`**: a run answers every request as the run without its reloads does, and
  ends with the same counters, if at each reload the limiters of the rules in force answer like
  new ones, as they do right after the start or once their buckets have idled out.
* **`reload_forgets_buckets`**: otherwise a reload gives a throttled client its tokens back.

The run with its reloads and the run without them are compared by `run_hides`, with `HostTwins` as
the relation: the same files, the same counters, and buckets that answer alike from now on. Every
event but the reload keeps the relation because the handler does (`simulates_twins`); a reload keeps
it where the buckets it drops answer like new ones, which is the condition. It is a condition on the
state before the reload, and it is met where buckets were never used or have idled out
(`login_idled_out`).
-/

namespace BuduWaf.Supervisor

open Rules RateLimit Reputation Pipeline Proxy

variable {X : Crates}

/-! ## The same files again -/

/-- Rebuilding the blocklist from the same sources succeeds if it did once, and agrees from then
on. -/
theorem rebuildBlocks_again {fs : FileSystem} {feeds : Feeds} {now : Now} {cfg : Config}
    {set : List BlockEntry} (h : rebuildBlocks X fs feeds now cfg = .ok set) (now' : Now) :
    ∃ set', rebuildBlocks X fs feeds now' cfg = .ok set' ∧
      ∀ ip t, now.wall ≤ t → now'.wall ≤ t → contains set' ip t = contains set ip t := by
  unfold rebuildBlocks at h
  obtain ⟨blocks, hblocks, h⟩ := bind_ok_iff.mp h
  obtain ⟨blocks', hblocks', hsame⟩ := buildList_again X (mapError_ok_iff.mp hblocks) now'.wall
  obtain rfl := Except.ok.inj h
  refine ⟨if X.features.remoteBlocklist then
      blocks' ++ fetchBlocklistUrls X feeds now'.wall cfg.reputation.blocklistUrls
    else blocks', ?_, ?_⟩
  · unfold rebuildBlocks
    exact bind_ok_iff.mpr ⟨blocks', mapError_ok_iff.mpr hblocks', rfl⟩
  · intro ip t hnow hnow'
    split
    · rw [contains_append, contains_append, hsame ip t hnow hnow',
        contains_fetchBlocklistUrls X hnow' hnow]
    · exact hsame ip t hnow hnow'

/-- What a start from some files says about reloads of the same files. -/
structure Started (fs : FileSystem) (feeds : Feeds) (path : Str) (p : Process X) : Prop where
  /-- The configuration file gives the configuration in force. -/
  config : Config.load X fs path = .ok p.config
  /-- The pipeline is the standard one. -/
  pipeline : ∃ geo, p.pipeline = standard geo p.config
  /-- The limiter is the global one. -/
  limiter : p.limiter.cell = .global
  /-- The rules are those of load number 0. -/
  generation : p.generation = 0 ∧ p.shared.rules.inGeneration 0 = p.shared.rules
  /-- Their limiters have cells of their own. -/
  placed : Placed 0 p.shared.rules.limiters
  /-- No limiter was asked. -/
  unused : p.shared.limiters = fun _ => none
  /-- A reload gives the same signatures and rules, and an allowlist that agrees from then on. -/
  rebuild : ∀ (now : Now) (generation : Nat), ∃ allowlist,
    rebuild X fs now generation p.config =
        .ok ⟨p.shared.signatures, p.shared.rules.inGeneration generation, allowlist⟩ ∧
      ∀ ip t, p.shared.now.wall ≤ t → now.wall ≤ t →
        contains allowlist ip t = contains p.shared.allowlist ip t
  /-- It gives a blocklist that agrees from then on. -/
  blocks : ∀ now : Now, ∃ blocks, rebuildBlocks X fs feeds now p.config = .ok blocks ∧
    ∀ ip t, p.shared.now.wall ≤ t → now.wall ≤ t →
      contains blocks ip t = contains p.shared.blocks ip t

/-- A process that has started can reload. -/
theorem started_of_start {fs : FileSystem} {feeds : Feeds} {path : Str} {now : Now}
    {p : Process X} (h : start X fs feeds path now = .ok p) : Started fs feeds path p := by
  unfold start at h
  obtain ⟨cfg, hcfg, h⟩ := bind_ok_iff.mp h
  obtain ⟨⟨pipeline, shared⟩, hbuilt, h⟩ := bind_ok_iff.mp h
  obtain rfl := Except.ok.inj h
  have hbuilt := mapError_ok_iff.mp hbuilt
  obtain ⟨blocks, signatures, defaultTz, rules, allowlist, geo, hblocks, hsignatures, htz, hload,
    hallowlist, rfl, hshared⟩ := fromConfig_ok hbuilt
  obtain ⟨set, hset⟩ : ∃ set, rebuildBlocks X fs feeds shared.now cfg = .ok set := by
    unfold rebuildBlocks
    rw [hshared, hblocks]
    exact ⟨_, rfl⟩
  rw [refreshBlocklist_of_ok hset]
  subst hshared
  constructor
  · exact mapError_ok_iff.mp hcfg
  · exact ⟨geo, rfl⟩
  · rfl
  · refine ⟨rfl, ?_⟩
    have hagain := load_generation X 0 fs cfg.paths.rules cfg.scoring defaultTz
    rw [hload] at hagain
    exact (Except.ok.inj hagain).symm
  · exact placed_of_load hload
  · rfl
  · intro now' generation
    obtain ⟨allowlist', hallowlist', hsame⟩ :=
      buildList_again X hallowlist now'.wall
    refine ⟨allowlist', ?_, hsame⟩
    have hagain := load_generation X generation fs cfg.paths.rules cfg.scoring defaultTz
    rw [hload] at hagain
    unfold Pipeline.rebuild
    refine bind_ok_iff.mpr ⟨signatures, mapError_ok_iff.mpr hsignatures, ?_⟩
    refine bind_ok_iff.mpr ⟨defaultTz, htz, ?_⟩
    refine bind_ok_iff.mpr ⟨rules.inGeneration generation, mapError_ok_iff.mpr hagain, ?_⟩
    exact bind_ok_iff.mpr ⟨allowlist', mapError_ok_iff.mpr hallowlist', rfl⟩
  · exact rebuildBlocks_again hset

/-! ## Requests and reloads -/

/-- The process with its metrics, as requests meet it. -/
structure Host (X : Crates) where
  /-- The process. -/
  process : Process X
  /-- The metrics. -/
  metrics : Metrics

/-- What happens to the process: time passes, a request with an upstream to forward it to, and the
branches of the supervisor's loop. -/
inductive Event where
  | wait (wall mono : Nat)
  | request (generated : Str) (req : Request) (peerIp : IpAddr)
      (upstream : OutRequest → UpstreamResult)
  | maintenance
  | refresh
  | reload

/-- The event is a reload. -/
def Event.isReload : Event → Bool
  | .reload => true
  | _ => false

/-- The only event that is a reload is the reload. -/
theorem Event.eq_reload {e : Event} (h : e.isReload = true) : e = .reload := by
  cases e with
  | reload => rfl
  | _ => cases h

/-- An upstream, and no other tasks while a request is handled. -/
def quietEnv (upstream : OutRequest → UpstreamResult) : Env (Shared X) where
  upstream := upstream
  whileReading := id
  whileForwarding := id
  whileBuffering := id

/-- The shared state after both clocks have advanced. -/
def advance (wall mono : Nat) (s : Shared X) : Shared X :=
  { s with now := ⟨s.now.wall + wall, s.now.mono + mono⟩ }

/-- What the handler starts a request from. -/
def Host.proxyState (h : Host X) : ProxyState (Shared X) where
  shared := h.process.shared
  metrics := h.metrics
  decisions := []
  panicked := []
  forwards := []

/-- One event. A request is answered with a response, and with the pipeline's decisions on it. -/
def Host.step (fs : FileSystem) (feeds : Feeds) (path : Str) (h : Host X) :
    Event → Host X × List (Response × List WafDecision)
  | .wait wall mono =>
    ({ h with process := { h.process with shared := advance wall mono h.process.shared } }, [])
  | .request generated req peerIp upstream =>
    let r := handle X h.process.pipeline.engine h.process.config (quietEnv upstream) generated req
      peerIp h.proxyState
    (⟨{ h.process with shared := r.2.shared }, r.2.metrics⟩, [(r.1, r.2.decisions)])
  | .maintenance => ({ h with process := maintenance h.process }, [])
  | .refresh => ({ h with process := blocklistRefresh fs feeds h.process }, [])
  | .reload => ({ h with process := sighup fs feeds path h.process }, [])

/-- If the event is a reload, the limiters of the rules in force answer like new ones. -/
def BucketsLikeNew (h : Host X) (e : Event) : Prop :=
  e.isReload = true → ∀ l ∈ h.process.shared.rules.limiters,
    l.LikeNew h.process.shared.now.mono h.process.shared.limiters

/-! ## Two runs side by side -/

section twins

variable {files : Loaded X} {generation : Nat}

/-- Twins stay twins while time passes for both. -/
theorem advance_twins (wall mono : Nat) {s t : Shared X} (h : SharedTwins files generation s t) :
    SharedTwins files generation (advance wall mono s) (advance wall mono t) where
  now := by rw [advance, advance, h.now]
  since := Nat.le_trans h.since (Nat.le_add_right _ _)
  state := h.state.later mono
  signatures := h.signatures
  reloaded := h.reloaded
  loaded := h.loaded
  blocks :=
    ⟨fun ip t ht => h.blocks.1 ip t (Nat.le_trans (Nat.le_add_right _ _) ht),
      fun ip t ht => h.blocks.2 ip t (Nat.le_trans (Nat.le_add_right _ _) ht)⟩
  allowlist :=
    ⟨fun ip t ht => h.allowlist.1 ip t (Nat.le_trans (Nat.le_add_right _ _) ht),
      fun ip t ht => h.allowlist.2 ip t (Nat.le_trans (Nat.le_add_right _ _) ht)⟩

/-- A list without its expired entries says the same from then on. -/
theorem current_pruneExpired {set : List BlockEntry} {now : Nat} {listed : IpAddr → Nat → Bool}
    (h : Current set now listed) : Current (pruneExpired set now) now listed := by
  intro ip instant hinstant
  rw [contains_pruneExpired set ip hinstant]
  exact h ip instant hinstant

/-- Garbage is collected on twins alike: the global buckets and the counters are the same on both
sides, and no rule's buckets are touched. -/
theorem runMaintenance_twins (hplaced : Placed 0 files.rules.limiters) {limiter : IpRateLimiter}
    (hlimiter : limiter.cell = .global) {s t : Shared X} (h : SharedTwins files generation s t) :
    SharedTwins files generation (runMaintenance limiter s) (runMaintenance limiter t) := by
  have hstate := h.state.setGlobal hplaced
    ((X.moka IpAddr X.Bucket).runPendingTasks (limiter.buckets s.limiters) s.now.mono)
  have hbuckets : limiter.buckets s.limiters = limiter.buckets t.limiters :=
    h.state.buckets_global hlimiter
  have hcounters : s.counters = t.counters := h.state.counters
  have hblocks : Current t.blocks t.now.wall files.listed := h.now ▸ h.blocks.2
  have hallowlist : Current t.allowlist t.now.wall files.allowed := h.now ▸ h.allowlist.2
  refine { h with state := ?_, blocks := ⟨?_, ?_⟩, allowlist := ⟨?_, ?_⟩ }
  · unfold runMaintenance
    rw [hlimiter, ← hbuckets, ← hcounters, ← h.now]
    exact { hstate with counters := rfl }
  · exact current_pruneExpired h.blocks.1
  · exact h.now ▸ current_pruneExpired hblocks
  · exact current_pruneExpired h.allowlist.1
  · exact h.now ▸ current_pruneExpired hallowlist

/-- The states of the handler on twins. -/
def ProxyTwins (files : Loaded X) (generation : Nat) (s t : ProxyState (Shared X)) : Prop :=
  SharedTwins files generation s.shared t.shared ∧
    s.metrics = t.metrics ∧ s.decisions = t.decisions

/-- A phase of the pipeline decides alike on twins, and leaves twins. -/
theorem runPhase_twins {stages : List (Stage (World X))}
    (hstages : ∀ stage ∈ stages, AgreesOnTwins files generation stage)
    (onError : OnError) (detect : Bool) (ctx : RequestCtx) {s t : ProxyState (Shared X)}
    (h : ProxyTwins files generation s t) :
    (runPhase (fun ctx s => runStages onError stages (ctx, s)) detect ctx s).1 =
        (runPhase (fun ctx s => runStages onError stages (ctx, s)) detect ctx t).1 ∧
      Agrees (ProxyTwins files generation)
        (runPhase (fun ctx s => runStages onError stages (ctx, s)) detect ctx s).2
        (runPhase (fun ctx s => runStages onError stages (ctx, s)) detect ctx t).2 := by
  obtain ⟨hshared, hmetrics, hdecisions⟩ := h
  obtain ⟨hdecision, -, hctx, hnext⟩ := runStages_twins hstages onError ctx hshared
  unfold runPhase Agrees ProxyTwins
  dsimp only
  rw [hdecision, hmetrics, hdecisions]
  exact ⟨rfl, hctx, hnext, rfl, rfl⟩

variable (files generation) in
/-- The handler of the standard pipeline on twins. -/
theorem simulates_twins (hplaced : Placed 0 files.rules.limiters) (geo : Option (GeoStage X))
    (cfg : Config) (detect : Bool) (upstream : OutRequest → UpstreamResult) :
    Simulates detect (standard geo cfg).engine (standard geo cfg).engine (quietEnv upstream)
      (quietEnv upstream) (ProxyTwins files generation) where
  upstream := rfl
  isWhitelisted := fun h ip => h.1.isWhitelisted ip
  needsResponseBody := by
    intro s t h
    show s.shared.rules.needsResponseBody = t.shared.rules.needsResponseBody
    rw [h.1.reloaded, h.1.loaded, RuleSet.needsResponseBody_inGeneration]
  early := fun h ctx =>
    runPhase_twins (earlyStack_twins hplaced geo cfg) cfg.server.onError detect ctx h
  late := fun h ctx => runPhase_twins (lateStack_twins hplaced) cfg.server.onError detect ctx h
  response := by
    rintro s t ⟨hshared, hmetrics, hdecisions⟩ rctx
    obtain ⟨hdecision, hnext⟩ := inspectResponse_twins rctx hshared
    have hdecision' : ((standard geo cfg).engine.evaluateResponse rctx s.shared).1 =
        ((standard geo cfg).engine.evaluateResponse rctx t.shared).1 := hdecision
    unfold judgeResponse Agrees ProxyTwins
    dsimp only
    rw [hdecision', hmetrics, hdecisions]
    exact ⟨rfl, hnext, rfl, rfl⟩
  metrics := fun h f _ => ⟨h.1, congrArg f h.2.1, h.2.2⟩
  reading := fun h => h
  forwarding := fun h _ => h
  buffering := fun h => h

end twins

/-- What the files a process was started from give. -/
def Process.loaded (p : Process X) : Loaded X where
  start := p.shared.now.wall
  signatures := p.shared.signatures
  rules := p.shared.rules
  listed := contains p.shared.blocks
  allowed := contains p.shared.allowlist

/-- Two hosts that were started from the same files, the first one after some reloads. -/
structure HostTwins (p : Process X) (a b : Host X) : Prop where
  /-- The metrics. -/
  metrics : a.metrics = b.metrics
  /-- The configurations. -/
  config : a.process.config = p.config ∧ b.process.config = p.config
  /-- The pipelines. -/
  pipeline : a.process.pipeline = p.pipeline ∧ b.process.pipeline = p.pipeline
  /-- The global limiters. -/
  limiter : a.process.limiter = p.limiter ∧ b.process.limiter = p.limiter
  /-- The shared states. -/
  shared : SharedTwins p.loaded a.process.generation a.process.shared b.process.shared

section run

variable {fs : FileSystem} {feeds : Feeds} {path : Str} {p : Process X}

/-- A process just started is its own twin. -/
theorem HostTwins.refl (h : Started fs feeds path p) (metrics : Metrics) :
    HostTwins p ⟨p, metrics⟩ ⟨p, metrics⟩ := by
  obtain ⟨hgeneration, hrules⟩ := h.generation
  refine ⟨rfl, ⟨rfl, rfl⟩, ⟨rfl, rfl⟩, ⟨rfl, rfl⟩, ?_⟩
  have hblocks : Current p.shared.blocks p.shared.now.wall p.loaded.listed := fun _ _ _ => rfl
  have hallowlist : Current p.shared.allowlist p.shared.now.wall p.loaded.allowed :=
    fun _ _ _ => rfl
  refine ⟨rfl, Nat.le_refl _, ⟨rfl, rfl, rfl, ?_, ?_⟩, ⟨rfl, rfl⟩, ?_, rfl,
    ⟨hblocks, hblocks⟩, ⟨hallowlist, hallowlist⟩⟩
  · intro l hl
    unfold IpRateLimiter.buckets
    rw [h.unused]
    exact .refl _
  · intro later _ position
    rw [h.unused]
  · rw [hgeneration]
    exact hrules.symm

/-- Right after the start every limiter is as good as new. -/
theorem bucketsLikeNew_of_started (h : Started fs feeds path p) (metrics : Metrics) (e : Event) :
    BucketsLikeNew ⟨p, metrics⟩ e := by
  intro _ l _
  exact IpRateLimiter.likeNew_of_unused (congrFun h.unused l.cell) _

/-- A reload of the files a process was started from. -/
theorem sighup_started (h : Started fs feeds path p) (q : Process X) :
    ∃ allowlist blocks, sighup fs feeds path q =
        { q with
          config := p.config
          generation := q.generation + 1
          shared := { q.shared with
            signatures := p.shared.signatures
            rules := p.shared.rules.inGeneration (q.generation + 1)
            allowlist := allowlist
            blocks := blocks } } ∧
      ∀ ip t, p.shared.now.wall ≤ t → q.shared.now.wall ≤ t →
        contains allowlist ip t = p.loaded.allowed ip t ∧
          contains blocks ip t = p.loaded.listed ip t := by
  obtain ⟨allowlist, hrebuild, hallowlist⟩ := h.rebuild q.shared.now (q.generation + 1)
  obtain ⟨blocks, hblocks, hlisted⟩ := h.blocks q.shared.now
  refine ⟨allowlist, blocks, ?_, ?_⟩
  · have hnow : ∀ new : Rebuilt X, (new.swapIn q.shared).now = q.shared.now := fun _ => rfl
    unfold sighup
    rw [h.config]
    dsimp only
    rw [apply_of_ok hrebuild]
    dsimp only
    rw [refreshBlocklist_of_ok ((hnow _).symm ▸ hblocks)]
    rfl
  · intro ip t hstart hreload
    exact ⟨hallowlist ip t hstart hreload, hlisted ip t hstart hreload⟩

/-- A refresh of the blocklist from the configuration a process was started from. -/
theorem blocklistRefresh_started (h : Started fs feeds path p) {q : Process X}
    (hconfig : q.config = p.config) (hsince : p.shared.now.wall ≤ q.shared.now.wall) :
    ∃ blocks, blocklistRefresh fs feeds q =
        { q with shared := { q.shared with blocks := blocks } } ∧
      Current blocks q.shared.now.wall p.loaded.listed := by
  obtain ⟨blocks, hblocks, hlisted⟩ := h.blocks q.shared.now
  refine ⟨blocks, ?_, fun ip t ht => hlisted ip t (Nat.le_trans hsince ht) ht⟩
  unfold blocklistRefresh
  rw [hconfig, refreshBlocklist_of_ok hblocks]

/-- Every other event is answered alike. -/
theorem step_twins (h : Started fs feeds path p) {a b : Host X} (hab : HostTwins p a b)
    (e : Event) (he : e.isReload = false) :
    (a.step fs feeds path e).2 = (b.step fs feeds path e).2 ∧
      HostTwins p (a.step fs feeds path e).1 (b.step fs feeds path e).1 := by
  cases e with
  | reload => cases he
  | wait wall mono =>
      exact ⟨rfl, { hab with shared := advance_twins wall mono hab.shared }⟩
  | maintenance =>
      refine ⟨rfl, { hab with shared := ?_ }⟩
      show SharedTwins p.loaded a.process.generation
        (runMaintenance a.process.limiter a.process.shared)
        (runMaintenance b.process.limiter b.process.shared)
      rw [hab.limiter.1, hab.limiter.2]
      exact runMaintenance_twins h.placed h.limiter hab.shared
  | refresh =>
      have hsince : p.shared.now.wall ≤ b.process.shared.now.wall :=
        hab.shared.now ▸ hab.shared.since
      obtain ⟨blocks, ha, hblocks⟩ :=
        blocklistRefresh_started h hab.config.1 hab.shared.since
      obtain ⟨blocks', hb, hblocks'⟩ := blocklistRefresh_started h hab.config.2 hsince
      refine ⟨rfl, ?_⟩
      unfold Host.step
      dsimp only
      rw [ha, hb]
      exact { hab with
        shared := { hab.shared with blocks := ⟨hblocks, hab.shared.now ▸ hblocks'⟩ } }
  | request generated req peerIp upstream =>
      obtain ⟨geo, hgeo⟩ := h.pipeline
      have hsim := simulates_twins p.loaded a.process.generation h.placed geo p.config
        (decide (p.config.server.enforcement = .detect)) upstream
      have hstates : ProxyTwins p.loaded a.process.generation a.proxyState b.proxyState :=
        ⟨hab.shared, hab.metrics, rfl⟩
      obtain ⟨hanswer, hshared, hmetrics, hdecisions⟩ :=
        hsim.handle req generated peerIp hstates (X := X)
      unfold Host.step
      dsimp only
      rw [hab.pipeline.1, hab.pipeline.2, hgeo, hab.config.1, hab.config.2]
      refine ⟨?_, ⟨hmetrics, ⟨rfl, rfl⟩, ⟨hgeo.symm, hgeo.symm⟩, hab.limiter, hshared⟩⟩
      rw [hanswer, hdecisions]

/-- A reload in the first run only, where the limiters answer like new ones. -/
theorem reload_twins (h : Started fs feeds path p) {a b : Host X} (hab : HostTwins p a b)
    (hnew : BucketsLikeNew a .reload) :
    (a.step fs feeds path .reload).2 = [] ∧ HostTwins p (a.step fs feeds path .reload).1 b := by
  obtain ⟨allowlist, blocks, hsighup, hsame⟩ := sighup_started h a.process
  have hallow : Current allowlist a.process.shared.now.wall p.loaded.allowed :=
    fun ip t ht => (hsame ip t (Nat.le_trans hab.shared.since ht) ht).1
  have hblocks : Current blocks a.process.shared.now.wall p.loaded.listed :=
    fun ip t ht => (hsame ip t (Nat.le_trans hab.shared.since ht) ht).2
  have hreloaded := hab.shared.reload h.placed (hnew rfl) hallow hblocks
  refine ⟨rfl, ?_⟩
  unfold Host.step
  dsimp only
  rw [hsighup]
  exact { hab with
    config := ⟨rfl, hab.config.2⟩
    shared := { hreloaded with signatures := ⟨rfl, hab.shared.signatures.2⟩ } }

/-- **Reloads of unchanged files are invisible to throttling** where the buckets they drop answer
like new ones: each request gets the same response and the same decisions as in the run without
the reloads, and the counters end up the same. -/
theorem reload_invisible {now : Now} (hstart : start X fs feeds path now = .ok p)
    (metrics : Metrics) (events : List Event)
    (hnew : Along (Host.step fs feeds path) BucketsLikeNew ⟨p, metrics⟩ events) :
    let reloaded := run (Host.step fs feeds path) ⟨p, metrics⟩ events
    let unreloaded := run (Host.step fs feeds path) ⟨p, metrics⟩
      (events.filter fun e => !e.isReload)
    reloaded.2 = unreloaded.2 ∧
      reloaded.1.process.shared.counters = unreloaded.1.process.shared.counters := by
  have h := started_of_start hstart
  obtain ⟨hout, htwins⟩ := run_hides (R := HostTwins p) (C := BucketsLikeNew)
    (fun a b e he hab => step_twins h hab e he)
    (fun a b e he hC hab => by
      obtain rfl := Event.eq_reload he
      exact reload_twins h hab hC)
    events ⟨p, metrics⟩ ⟨p, metrics⟩ (.refl h metrics) hnew
  exact ⟨hout, htwins.shared.state.counters⟩

end run

/-! ## A login that is throttled -/

/-- A rule file that lets each client log in once a second. -/
def loginRule : Str :=
  unlines ["[[rule]]", "id = \"login\"", "action = \"rate_limit\"", "rps = 1",
    "when = [\x7b field = \"path\", op = \"eq\", value = \"/login\" \x7d]"]

/-- What the files read as: the minimal configuration with a rule file, and its one rule for
logins. -/
def loginReaders : Readers where
  config _ := .ok { Config.minimal with paths := ⟨"rules.toml", []⟩ }
  rules _ := .ok
    [{ id := "login", action := .rateLimit, rps := 1,
       when := [{ field := "path", op := "eq", value := "/login" }] }]
  signatures _ := .error "not read here"
  json _ := none

/-- A plain build that reads these files. -/
def loginBuild : Crates := .plain .none loginReaders

/-- The files of the scenario, which do not change. -/
def loginFiles : FileSystem where
  read path :=
    if path = ("budu.toml" : Str) then .ok (Str.utf8 tomlWithRules)
    else if path = ("rules.toml" : Str) then .ok (Str.utf8 loginRule)
    else .error "no such file"

/-- The process that was started from these files. -/
def loginProcess : Process loginBuild :=
  (start loginBuild loginFiles noFeeds "budu.toml" ⟨0, 0⟩).toOption.get (by decide +kernel)

/-- The metrics before the first request. -/
def noMetrics : Metrics := ⟨0, 0, 0, 0, 0, 0, 0⟩

/-- A login, with an upstream that answers it. -/
def login : Event :=
  .request "id-1" ⟨⟨"POST", ⟨none, none, "/login", none⟩, ⟨[]⟩⟩, ⟨[], none⟩⟩ (.v4 0xC0000207#32)
    fun _ => .reply ⟨.ok, .empty, .full []⟩

/-- The process of the scenario starts from its files. -/
theorem start_login :
    start loginBuild loginFiles noFeeds "budu.toml" ⟨0, 0⟩ = .ok loginProcess :=
  ok_of_toOption_get _ _

/-- A cache in which the client of the login has a bucket since the begin. -/
def loginBuckets (fresh asked : Plain.Bucket) : Cache.Timed IpAddr Plain.Bucket :=
  let cache := Cache.timed IpAddr Plain.Bucket
  cache.mutate (cache.insert (cache.build (some (300 * nanos))) 0 (.v4 0xC0000207#32) fresh none)
    (.v4 0xC0000207#32) asked

/-- Ten minutes later that bucket has idled out: where it is all a rule's limiter has, the limiter
answers like a new one. -/
theorem login_idled_out {h : Host loginBuild} (hnow : h.process.shared.now.mono = 600 * nanos)
    {fresh asked : Plain.Bucket}
    (hbuckets : h.process.shared.limiters (.rule 1 0) = some (loginBuckets fresh asked))
    (hlimiters : ∀ l ∈ h.process.shared.rules.limiters,
      l.cell = .rule 1 0 ∧ l.timeToIdle = 300 * nanos) : BucketsLikeNew h .reload := by
  intro _ l hl
  obtain ⟨hcell, hidle⟩ := hlimiters l hl
  have hcache : l.buckets h.process.shared.limiters = loginBuckets fresh asked := by
    unfold IpRateLimiter.buckets
    rw [hcell, hbuckets]
    rfl
  have hbuilt : (loginBuckets fresh asked).idle = some l.timeToIdle := by
    rw [hidle]
    rfl
  have hused : ∀ ip e, (loginBuckets fresh asked).entry ip = some e →
      e.used + l.timeToIdle ≤ h.process.shared.now.mono := by
    intro ip e he
    have hbegin : e.used = 0 := by
      simp only [loginBuckets, Cache.timed] at he
      split at he
      · obtain rfl := Option.some.inj he
        rfl
      · cases he
    rw [hbegin, hidle, hnow]
    decide
  exact likeNew_of_used ((congrArg Cache.Timed.idle hcache).trans hbuilt) fun ip e he =>
    hused ip e ((congrFun (congrArg Cache.Timed.entry hcache) ip).symm.trans he)

/-- Ten minutes pass, on both clocks. -/
def tenMinutes : Event := .wait 600 (600 * nanos)

/-- The host ten minutes after a login, with a reload at the begin. -/
def idledHost : Host loginBuild :=
  (run (Host.step loginFiles noFeeds "budu.toml") ⟨loginProcess, noMetrics⟩
    [.reload, login, tenMinutes]).1

set_option maxRecDepth 100000 in
/-- The rule's limiter has a single bucket left of the login, which was used at the begin. -/
theorem bucket_of_login : ∃ fresh asked,
    idledHost.process.shared.limiters (.rule 1 0) = some (loginBuckets fresh asked) := ⟨_, _, rfl⟩

/-- There is no other limiter, and it drops a bucket that was idle for five minutes. -/
theorem limiters_of_login : idledHost.process.shared.now.mono = 600 * nanos ∧
    ∀ l ∈ idledHost.process.shared.rules.limiters,
      l.cell = .rule 1 0 ∧ l.timeToIdle = 300 * nanos := by
  decide +kernel

/-- A reload at the begin drops no bucket, and one ten minutes after a login drops a bucket that has
idled out: both logins are answered as without them. -/
theorem reload_invisible_before_login :
    let reloaded := run (Host.step loginFiles noFeeds "budu.toml") ⟨loginProcess, noMetrics⟩
      [.reload, login, tenMinutes, .reload, login]
    let unreloaded := run (Host.step loginFiles noFeeds "budu.toml") ⟨loginProcess, noMetrics⟩
      ([.reload, login, tenMinutes, .reload, login].filter fun e => !e.isReload)
    reloaded.2 = unreloaded.2 ∧
      reloaded.1.process.shared.counters = unreloaded.1.process.shared.counters := by
  have hnew : Along (Host.step loginFiles noFeeds "budu.toml") BucketsLikeNew
      ⟨loginProcess, noMetrics⟩ [.reload, login, tenMinutes, .reload, login] := by
    obtain ⟨fresh, asked, hbuckets⟩ := bucket_of_login
    have hidled : BucketsLikeNew idledHost .reload :=
      login_idled_out limiters_of_login.1 hbuckets limiters_of_login.2
    have hbegin := bucketsLikeNew_of_started (started_of_start start_login) noMetrics .reload
    refine ⟨hbegin, ?_, ?_, hidled, ?_, trivial⟩
    · exact fun h => absurd h Bool.false_ne_true
    · exact fun h => absurd h Bool.false_ne_true
    · exact fun h => absurd h Bool.false_ne_true
  exact reload_invisible start_login noMetrics [.reload, login, tenMinutes, .reload, login] hnew

/-- A reload between two logins gives the client its token back: the second one passes, and it
does not without the reload. The reload succeeds. -/
theorem reload_forgets_buckets :
    let reloaded := run (Host.step loginFiles noFeeds "budu.toml") ⟨loginProcess, noMetrics⟩
      [login, .reload, login]
    let unreloaded := run (Host.step loginFiles noFeeds "budu.toml") ⟨loginProcess, noMetrics⟩
      ([login, .reload, login].filter fun e => !e.isReload)
    reloaded.1.process.generation = 1 ∧ reloaded.2.map (·.1.status) = [.ok, .ok] ∧
      unreloaded.2.map (·.1.status) = [.ok, .tooManyRequests] := by
  decide +kernel

end BuduWaf.Supervisor
