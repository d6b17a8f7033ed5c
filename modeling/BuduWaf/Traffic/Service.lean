import BuduWaf.Traffic.Flights

/-!
# `budu`: the service under traffic

* **`Chore`**: what the supervisor does is a sequence of steps: it compiles, swaps in one handle
  after the other, waits for one feed after the other, stores the configuration. Requests move in
  between.
* **`Service.step`**: any number of flights, the supervisor and its chores, and the clock. What
  comes next is arbitrary.
* **`chores_reload`**, **`chores_boot`**: the chores of a reload done one after the other are
  `sighup`, those of the process's begin are what `start` gives.
* **`step_flight`**, **`run_flight`**: what a step does to one flight, and the rule for what holds
  of a flight in every run.

A run is any list of happenings; one that is not possible at the moment (a move of a flight that is
not there, an event while the supervisor is at work) changes nothing, so nothing has to be assumed
of schedules. `stepped` says in one place what a step can do, and the invariants of the later
modules are derived from that and not from the definition.

That the supervisor gets done takes a measure, since a chore may lead to others: the lists to read,
then a wait for each feed, then the swap (`Chore.weight_act`).
-/

namespace BuduWaf.Traffic

open Rules RateLimit Signatures Reputation Pipeline Proxy Supervisor

/-! ## The supervisor -/

section definitions

variable (X : Crates)

/-- A step of the supervisor that is still to be done. -/
inductive Chore where
  | rebuild (cfg : Config)
  | store (swap : Store X)
  | lists (cfg : Config)
  | client (urls : List Str) (set : List BlockEntry)
  | fetch (urls : List Str) (set : List BlockEntry)
  | blocks (set : List BlockEntry)
  | config (cfg : Config)
  | buckets
  | counters
  | pruneBlocks
  | pruneAllowlist

/-- The process with its metrics, what the supervisor is at, and the requests taken in so far. -/
structure Service where
  /-- The process. -/
  process : Process X
  /-- The metrics. -/
  metrics : Metrics
  /-- What the supervisor still has to do of the event it is at; it takes the next event once
  this is done. -/
  chores : List (Chore X)
  /-- The flights, in the order of arrival. -/
  flights : List (Flight X)

end definitions

variable {X : Crates}

/-- The chores of a reload.
Source: `budu/src/main.rs` `supervise` (the `sighup.recv()` branch) -/
def reloadChores (cfg : Config) : List (Chore X) := [.rebuild cfg, .lists cfg, .config cfg]

/-- The chores of a maintenance tick.
Source: `budu-pipeline/src/lib.rs` `Reloadable::run_maintenance` -/
def maintenanceChores : List (Chore X) := [.buckets, .counters, .pruneBlocks, .pruneAllowlist]

/-- Do one chore, on the files and the feeds there are; it may lead to others.
Source: `budu-pipeline/src/lib.rs` `Reloadable::apply`, `Reloadable::refresh_blocklist`,
`Reloadable::run_maintenance` -/
def Chore.act (fs : FileSystem) (feeds : Feeds) (p : Process X) :
    Chore X → Process X × List (Chore X)
  | .rebuild cfg =>
    ({ p with generation := p.generation + 1 },
      match Pipeline.rebuild X fs p.shared.now (p.generation + 1) cfg with
      | .error _ => []
      | .ok new => new.stores.map .store)
  | .store swap => ({ p with shared := swap.write p.shared }, [])
  | .lists cfg =>
    (p, match buildBlocks X fs p.shared.now.wall cfg.reputation with
      | .error _ => []
      | .ok set =>
        if X.features.remoteBlocklist then [.client cfg.reputation.blocklistUrls set]
        else [.blocks set])
  | .client urls set => (p, if feeds.clientBuilds then [.fetch urls set] else [.blocks set])
  | .fetch [] set => (p, [.blocks set])
  | .fetch (url :: urls) set =>
    (p, [.fetch urls (set ++ feedEntries X feeds p.shared.now.wall url)])
  | .blocks set => ({ p with shared := { p.shared with blocks := set } }, [])
  | .config cfg => ({ p with config := cfg }, [])
  | .buckets =>
    ({ p with shared := { p.shared with
        limiters := p.shared.limiters.set p.limiter.cell
          ((X.moka IpAddr X.Bucket).runPendingTasks (p.limiter.buckets p.shared.limiters)
            p.shared.now.mono) } }, [])
  | .counters =>
    ({ p with shared := { p.shared with
        counters :=
          (X.moka Str Counter).runPendingTasks p.shared.counters p.shared.now.mono } }, [])
  | .pruneBlocks =>
    ({ p with shared := { p.shared with
        blocks := pruneExpired p.shared.blocks p.shared.now.wall } }, [])
  | .pruneAllowlist =>
    ({ p with shared := { p.shared with
        allowlist := pruneExpired p.shared.allowlist p.shared.now.wall } }, [])

/-! ## Traffic -/

/-- What happens: a request arrives, a flight moves, time goes on, the supervisor takes an event,
or does a chore of the one it is at. -/
inductive Happening where
  | arrive (generated : Str) (req : Request) (peerIp : IpAddr)
  | move (n : Nat) (upstream : OutRequest → UpstreamResult)
  | clock (now : Now)
  | hangup (fs : FileSystem) (path : Str)
  | refresh
  | maintenance
  | supervise (fs : FileSystem) (feeds : Feeds)

namespace Service

/-- The service after a flight has moved. -/
def moved (t : Service X) (n : Nat) (f : Flight X) (r : Moved X Note) : Service X :=
  { t with
    process := { t.process with shared := r.shared }
    metrics := r.metrics
    flights := t.flights.set n { f with point := r.point } }

/-- The supervisor takes an event, if it has done with the one before.
Source: `budu/src/main.rs` `supervise` (the loop) -/
def takes (t : Service X) (chores : List (Chore X)) : Service X :=
  if t.chores.isEmpty then { t with chores := chores } else t

/-- The supervisor does the first of its chores. -/
def supervised (t : Service X) (fs : FileSystem) (feeds : Feeds) : Service X :=
  match t.chores with
  | [] => t
  | chore :: rest =>
    { t with
      process := (chore.act fs feeds t.process).1
      chores := (chore.act fs feeds t.process).2 ++ rest }

/-- One happening, and what can be seen of it. -/
def step (t : Service X) : Happening → Service X × List (Nat × Note)
  | .arrive generated req peerIp =>
    ({ t with flights := t.flights ++ [Flight.start t.process.config generated req peerIp] }, [])
  | .move n upstream =>
    match t.flights[n]? with
    | none => (t, [])
    | some f =>
      let r := f.move t.process.pipeline upstream t.process.shared t.metrics
      (t.moved n f r, (f.seen r).map (n, ·))
  | .clock now =>
    ({ t with process := { t.process with shared := { t.process.shared with now := now } } }, [])
  | .hangup fs path =>
    (match Config.load X fs path with
      | .error _ => t
      | .ok cfg => t.takes (reloadChores cfg), [])
  | .refresh => (t.takes [.lists t.process.config], [])
  | .maintenance => (t.takes maintenanceChores, [])
  | .supervise fs feeds => (t.supervised fs feeds, [])

variable (X) in
/-- The process as it begins to serve: the first refresh of the blocklist is still to be done.
Source: `budu/src/main.rs` `run`, `supervise` (before the loop) -/
def boot (fs : FileSystem) (path : Str) (now : Now) (metrics : Metrics) :
    Except StartError (Service X) := do
  let cfg ← (Config.load X fs path).mapError .config
  let (pipeline, shared) ← (fromConfig X fs now cfg).mapError .build
  return ⟨⟨cfg, pipeline, globalLimiter cfg.ratelimit, shared, 0⟩, metrics, [.lists cfg], []⟩

end Service

/-! ## The supervisor alone -/

/-- What the chores come to, with everything they lead to, when nothing comes in between. -/
def Chore.settle (fs : FileSystem) (feeds : Feeds) (p : Process X) : Chore X → Process X
  | .rebuild cfg =>
    { p with
      generation := p.generation + 1
      shared := (apply fs (p.generation + 1) cfg p.shared).2 }
  | .lists cfg => { p with shared := (refreshBlocklist fs feeds cfg p.shared).2 }
  | .client urls set =>
    { p with shared := { p.shared with
      blocks := set ++ fetchBlocklistUrls X feeds p.shared.now.wall urls } }
  | .fetch urls set =>
    { p with shared := { p.shared with
      blocks := set ++ urls.flatMap (feedEntries X feeds p.shared.now.wall) } }
  | chore => (chore.act fs feeds p).1

/-- What a list of chores comes to, when each is done with all it leads to. -/
def settleAll (fs : FileSystem) (feeds : Feeds) (p : Process X) (chores : List (Chore X)) :
    Process X := chores.foldl (Chore.settle fs feeds) p

/-- Settling some chores and then others is settling all of them in a row. -/
theorem settleAll_append {fs : FileSystem} {feeds : Feeds} {p : Process X}
    (chores chores' : List (Chore X)) :
    settleAll fs feeds p (chores ++ chores') =
      settleAll fs feeds (settleAll fs feeds p chores) chores' := List.foldl_append

/-- **A chore leads to what it comes to.** -/
theorem settleAll_act (fs : FileSystem) (feeds : Feeds) (p : Process X) (chore : Chore X) :
    settleAll fs feeds (chore.act fs feeds p).1 (chore.act fs feeds p).2 =
      chore.settle fs feeds p := by
  cases chore with
  | rebuild cfg =>
      simp only [Chore.act, Chore.settle, Pipeline.apply]
      cases Pipeline.rebuild X fs p.shared.now (p.generation + 1) cfg <;> rfl
  | lists cfg =>
      simp only [Chore.act, Chore.settle, refreshBlocklist, rebuildBlocks]
      cases buildBlocks X fs p.shared.now.wall cfg.reputation with
      | error e => rfl
      | ok set => cases X.features.remoteBlocklist <;> rfl
  | client urls set =>
      simp only [Chore.act, Chore.settle, fetchBlocklistUrls]
      cases feeds.clientBuilds with
      | true => rfl
      | false => simp [settleAll, Chore.settle, Chore.act]
  | fetch urls set =>
      cases urls with
      | nil => simp [Chore.act, settleAll, Chore.settle]
      | cons url urls => simp [Chore.act, settleAll, Chore.settle]
  | _ => rfl

/-- How many acts it takes at most to do a chore with all it leads to. -/
def Chore.weight : Chore X → Nat
  | .rebuild _ => 4
  | .lists cfg => cfg.reputation.blocklistUrls.length + 4
  | .client urls _ => urls.length + 3
  | .fetch urls _ => urls.length + 2
  | _ => 1

/-- Every chore done leaves less to do. -/
theorem Chore.weight_act (fs : FileSystem) (feeds : Feeds) (p : Process X) (chore : Chore X) :
    ((chore.act fs feeds p).2.map Chore.weight).sum < chore.weight := by
  cases chore with
  | rebuild cfg =>
      simp only [act]
      cases Pipeline.rebuild X fs p.shared.now (p.generation + 1) cfg <;>
        simp [weight, Rebuilt.stores]
  | lists cfg =>
      simp only [act]
      cases buildBlocks X fs p.shared.now.wall cfg.reputation with
      | error e => simp [weight]
      | ok set => cases X.features.remoteBlocklist <;> simp [weight]
  | client urls set =>
      simp only [act]
      cases feeds.clientBuilds <;> simp [weight]
  | fetch urls set => cases urls <;> simp [act, weight]
  | _ => simp [act, weight]

namespace Service

/-- How much the supervisor still has to do. -/
def workload (t : Service X) : Nat := (t.chores.map Chore.weight).sum

/-- A step of the supervisor leaves less to do. -/
theorem workload_supervised (t : Service X) (fs : FileSystem) (feeds : Feeds)
    (h : t.chores ≠ []) : (t.supervised fs feeds).workload < t.workload := by
  unfold supervised workload
  cases hchores : t.chores with
  | nil => exact absurd hchores h
  | cons chore rest =>
      have := chore.weight_act fs feeds t.process
      simp only [List.map_append, List.sum_append, List.map_cons, List.sum_cons]
      omega

/-- Doing chores changes nothing about what they come to. -/
theorem settleAll_supervised (t : Service X) (fs : FileSystem) (feeds : Feeds) :
    settleAll fs feeds (t.supervised fs feeds).process (t.supervised fs feeds).chores =
      settleAll fs feeds t.process t.chores := by
  unfold supervised
  cases hchores : t.chores with
  | nil => rw [hchores]
  | cons chore rest =>
      rw [settleAll_append, settleAll_act]
      rfl

/-- **Left alone, the supervisor gets done** with what its chores come to, and touches nothing
else. -/
theorem supervised_iterate (fs : FileSystem) (feeds : Feeds) (t : Service X) {k : Nat}
    (hk : t.workload ≤ k) :
    (fun u : Service X => u.supervised fs feeds)^[k] t =
      { t with process := settleAll fs feeds t.process t.chores, chores := [] } := by
  induction k generalizing t with
  | zero =>
      have hidle : t.chores = [] := by
        by_contra h
        have := t.workload_supervised fs feeds h
        omega
      show t = _
      rw [hidle]
      obtain ⟨process, metrics, chores, flights⟩ := t
      obtain rfl : chores = [] := hidle
      rfl
  | succ k ih =>
      rw [Function.iterate_succ_apply]
      by_cases hidle : t.chores = []
      · have hstay : t.supervised fs feeds = t := by
          unfold supervised
          rw [hidle]
        rw [hstay]
        apply ih
        unfold workload
        rw [hidle]
        exact Nat.zero_le _
      · have hless := t.workload_supervised fs feeds hidle
        rw [ih _ (by omega), settleAll_supervised]
        unfold supervised
        cases t.chores <;> rfl

/-- **The chores of a reload** come to the supervisor's branch. -/
theorem chores_reload (fs : FileSystem) (feeds : Feeds) (path : Str) (t : Service X)
    (hidle : t.chores = []) :
    ∃ k, (fun u : Service X => u.supervised fs feeds)^[k] (t.step (.hangup fs path)).1 =
      { t with process := sighup fs feeds path t.process } := by
  unfold step sighup takes
  dsimp only
  cases Config.load X fs path with
  | error e => exact ⟨0, rfl⟩
  | ok cfg =>
      refine ⟨_, (supervised_iterate fs feeds _ le_rfl).trans ?_⟩
      rw [hidle]
      simp [settleAll, reloadChores, Chore.settle, Chore.act]

/-- The service that boots: the standard pipeline, and one chore. -/
theorem boot_ok {fs : FileSystem} {path : Str} {now : Now} {metrics : Metrics} {t : Service X}
    (h : boot X fs path now metrics = .ok t) :
    ∃ cfg geo shared, Config.load X fs path = .ok cfg ∧
      fromConfig X fs now cfg = .ok (standard geo cfg, shared) ∧
      t = ⟨⟨cfg, standard geo cfg, globalLimiter cfg.ratelimit, shared, 0⟩, metrics,
        [.lists cfg], []⟩ := by
  unfold boot at h
  obtain ⟨cfg, hcfg, h⟩ := bind_ok_iff.mp h
  obtain ⟨⟨pipeline, shared⟩, hbuilt, h⟩ := bind_ok_iff.mp h
  obtain rfl := Except.ok.inj h
  have hbuilt := mapError_ok_iff.mp hbuilt
  obtain ⟨_, _, _, _, _, geo, -, -, -, -, -, rfl, -⟩ := fromConfig_ok hbuilt
  exact ⟨cfg, geo, shared, mapError_ok_iff.mp hcfg, hbuilt, rfl⟩

/-- **The chores of the begin** come to the process that `start` gives. -/
theorem chores_boot (fs : FileSystem) (feeds : Feeds) (path : Str) (now : Now) (metrics : Metrics) :
    (∃ e, boot X fs path now metrics = .error e ∧ start X fs feeds path now = .error e) ∨
      ∃ t k p, boot X fs path now metrics = .ok t ∧ start X fs feeds path now = .ok p ∧
        (fun u : Service X => u.supervised fs feeds)^[k] t = ⟨p, metrics, [], []⟩ := by
  unfold boot start
  cases (Config.load X fs path).mapError StartError.config with
  | error e => exact .inl ⟨e, rfl, rfl⟩
  | ok cfg =>
      dsimp only [bind, Except.bind]
      cases (fromConfig X fs now cfg).mapError StartError.build with
      | error e => exact .inl ⟨e, rfl, rfl⟩
      | ok built =>
          refine .inr ⟨_, _, _, rfl, rfl, (supervised_iterate fs feeds _ le_rfl).trans ?_⟩
          simp [settleAll, Chore.settle]

end Service

/-! ## Runs -/

/-- What was seen of one flight, in its order. -/
def notesOf (n : Nat) (log : List (Nat × Note)) : List Note :=
  log.filterMap fun x => if x.1 = n then some x.2 else none

/-- What was seen of a flight in two logs in a row is what was seen of it in the first, then in the
second. -/
theorem notesOf_append (n : Nat) (xs ys : List (Nat × Note)) :
    notesOf n (xs ++ ys) = notesOf n xs ++ notesOf n ys := List.filterMap_append

/-- All notes about a flight were seen of it. -/
@[simp] theorem notesOf_self (n : Nat) (notes : List Note) :
    notesOf n (notes.map (n, ·)) = notes := by
  simp [notesOf, List.filterMap_map]

/-- Notes about another flight were not seen of it. -/
@[simp] theorem notesOf_other {n k : Nat} (h : k ≠ n) (notes : List Note) :
    notesOf n (notes.map (k, ·)) = [] := by
  simp [notesOf, List.filterMap_map, h]

/-- A note was seen of a flight iff the log has it under the flight's number. -/
theorem mem_notesOf {n : Nat} {note : Note} {log : List (Nat × Note)} :
    note ∈ notesOf n log ↔ (n, note) ∈ log := by
  constructor
  · intro h
    obtain ⟨⟨k, x⟩, hx, heq⟩ := List.mem_filterMap.1 h
    by_cases hk : k = n
    · simp only [hk, if_true, Option.some.injEq] at heq
      rw [← heq, ← hk]
      exact hx
    · simp [hk] at heq
  · intro h
    exact List.mem_filterMap.2 ⟨_, h, if_pos rfl⟩

namespace Service

/-- The chores of an event the supervisor can take. -/
def Event (t : Service X) (h : Happening) (chores : List (Chore X)) : Prop :=
  (∃ fs path cfg, h = .hangup fs path ∧ Config.load X fs path = .ok cfg ∧
      chores = reloadChores cfg) ∨
    h = .refresh ∧ chores = [.lists t.process.config] ∨
    h = .maintenance ∧ chores = maintenanceChores

/-- What a step can do: take in a request, move one, take up an event, do a chore, or let time
pass. -/
inductive Stepped (t : Service X) : Happening → Service X → List (Nat × Note) → Prop
  | arrived (generated : Str) (req : Request) (peerIp : IpAddr) :
      Stepped t (.arrive generated req peerIp)
        { t with flights := t.flights ++ [Flight.start t.process.config generated req peerIp] } []
  | moved (n : Nat) (upstream : OutRequest → UpstreamResult) (f : Flight X)
      (there : t.flights[n]? = some f) :
      Stepped t (.move n upstream)
        (t.moved n f (f.move t.process.pipeline upstream t.process.shared t.metrics))
        ((f.seen (f.move t.process.pipeline upstream t.process.shared t.metrics)).map (n, ·))
  | clock (now : Now) :
      Stepped t (.clock now)
        { t with process := { t.process with shared := { t.process.shared with now := now } } } []
  | took (h : Happening) (chores : List (Chore X)) (idle : t.chores = [])
      (event : t.Event h chores) : Stepped t h { t with chores := chores } []
  | did (fs : FileSystem) (feeds : Feeds) (chore : Chore X) (rest : List (Chore X))
      (next : t.chores = chore :: rest) :
      Stepped t (.supervise fs feeds)
        { t with
          process := (chore.act fs feeds t.process).1
          chores := (chore.act fs feeds t.process).2 ++ rest } []
  | stayed (h : Happening) (still : ∀ n upstream, h = .move n upstream → t.flights[n]? = none) :
      Stepped t h t []

/-- An event of the supervisor is no move of a flight. -/
theorem Event.still {t : Service X} {h : Happening} {chores : List (Chore X)}
    (hevent : t.Event h chores) (n : Nat) (upstream : OutRequest → UpstreamResult) :
    h ≠ .move n upstream := by
  obtain ⟨_, _, _, rfl, -⟩ | ⟨rfl, -⟩ | ⟨rfl, -⟩ := hevent <;> simp

/-- An idle supervisor that is told of an event takes up its chores. -/
theorem stepped_takes (t : Service X) {h : Happening} {chores : List (Chore X)}
    (hevent : t.Event h chores) : Stepped t h (t.takes chores) [] := by
  unfold takes
  cases hempty : t.chores.isEmpty
  · exact .stayed h fun n upstream heq => absurd heq (hevent.still n upstream)
  · exact .took h chores (List.isEmpty_iff.1 hempty) hevent

/-- **What a step does**, in one place. -/
theorem stepped (t : Service X) (h : Happening) : Stepped t h (t.step h).1 (t.step h).2 := by
  cases h with
  | arrive generated req peerIp => exact .arrived generated req peerIp
  | move n upstream =>
      simp only [step]
      cases hn : t.flights[n]? with
      | none =>
          refine .stayed _ fun k _ heq => ?_
          obtain ⟨rfl, -⟩ : n = k ∧ _ := by simpa using heq
          exact hn
      | some f => exact .moved n upstream f hn
  | clock now => exact .clock now
  | hangup fs path =>
      simp only [step]
      cases hload : Config.load X fs path with
      | error e => exact .stayed _ (by simp)
      | ok cfg => exact t.stepped_takes (.inl ⟨fs, path, cfg, rfl, hload, rfl⟩)
  | refresh => exact t.stepped_takes (.inr (.inl ⟨rfl, rfl⟩))
  | maintenance => exact t.stepped_takes (.inr (.inr ⟨rfl, rfl⟩))
  | supervise fs feeds =>
      simp only [step, supervised]
      cases hchores : t.chores with
      | nil => exact .stayed _ (by simp)
      | cons chore rest => exact .did fs feeds chore rest hchores

/-- A chore keeps the pipeline and the limiter. -/
theorem act_pipeline (fs : FileSystem) (feeds : Feeds) (p : Process X) (chore : Chore X) :
    (chore.act fs feeds p).1.pipeline = p.pipeline ∧
      (chore.act fs feeds p).1.limiter = p.limiter := by
  cases chore with
  | fetch urls set => cases urls <;> exact ⟨rfl, rfl⟩
  | _ => exact ⟨rfl, rfl⟩

/-- The pipeline is built once, and its limiter with it. -/
theorem step_pipeline (t : Service X) (h : Happening) :
    (t.step h).1.process.pipeline = t.process.pipeline ∧
      (t.step h).1.process.limiter = t.process.limiter := by
  have hstep := t.stepped h
  generalize t.step h = r at hstep ⊢
  obtain ⟨u, notes⟩ := r
  cases hstep with
  | did fs feeds chore rest next => exact act_pipeline fs feeds t.process chore
  | _ => exact ⟨rfl, rfl⟩

/-- No run builds the pipeline anew, so its stages stay the same. -/
theorem run_pipeline (t : Service X) (hs : List Happening) :
    (run step t hs).1.process.pipeline = t.process.pipeline := by
  refine run_keeps (P := fun u : Service X => u.process.pipeline = t.process.pipeline) ?_ rfl
  intro u h _ hu
  exact (step_pipeline u h).1.trans hu

/-- **What a step does to one flight**: nothing, or it takes it in, or it moves it. -/
theorem step_flight (t : Service X) (h : Happening) {n : Nat} {f : Flight X}
    (hf : (t.step h).1.flights[n]? = some f) :
    (t.flights[n]? = some f ∧ notesOf n (t.step h).2 = [] ∧ ∀ upstream, h ≠ .move n upstream) ∨
      (t.flights[n]? = none ∧ notesOf n (t.step h).2 = [] ∧ ∃ generated req peerIp,
        h = .arrive generated req peerIp ∧
          f = Flight.start t.process.config generated req peerIp) ∨
      ∃ before upstream, h = .move n upstream ∧ t.flights[n]? = some before ∧
        let r := before.move t.process.pipeline upstream t.process.shared t.metrics
        f = { before with point := r.point } ∧ notesOf n (t.step h).2 = before.seen r := by
  have hstep := t.stepped h
  generalize t.step h = r at hstep hf ⊢
  obtain ⟨u, notes⟩ := r
  cases hstep with
  | arrived generated req peerIp =>
      have happend : (t.flights ++ [Flight.start t.process.config generated req peerIp])[n]? =
        some f := hf
      rw [List.getElem?_append] at happend
      split at happend
      · exact .inl ⟨happend, rfl, by simp⟩
      · rename_i hlen
        have hnew : f = Flight.start t.process.config generated req peerIp :=
          List.mem_singleton.1 (List.mem_of_getElem? happend)
        have hgone : t.flights[n]? = none := List.getElem?_eq_none (by omega)
        exact .inr (.inl ⟨hgone, rfl, generated, req, peerIp, rfl, hnew⟩)
  | moved k upstream before there =>
      have hset : (t.flights.set k { before with point := (before.move t.process.pipeline upstream
        t.process.shared t.metrics).point })[n]? = some f := hf
      by_cases hkn : k = n
      · subst hkn
        rw [List.getElem?_set_self (List.getElem?_eq_some_iff.1 there).1] at hset
        exact .inr (.inr ⟨before, upstream, rfl, there, (Option.some.inj hset).symm,
          notesOf_self _ _⟩)
      · rw [List.getElem?_set_ne hkn] at hset
        exact .inl ⟨hset, notesOf_other hkn _, by simp [hkn]⟩
  | clock now => exact .inl ⟨hf, rfl, by simp⟩
  | took _ chores idle event => exact .inl ⟨hf, rfl, event.still n⟩
  | did fs feeds chore rest next => exact .inl ⟨hf, rfl, by simp⟩
  | stayed _ still =>
      refine .inl ⟨hf, rfl, fun upstream heq => ?_⟩
      rw [still n upstream heq] at hf
      cases hf

/-- No step takes a flight away: requests that arrived keep their numbers. -/
theorem step_length (t : Service X) (h : Happening) :
    t.flights.length ≤ (t.step h).1.flights.length := by
  have hstep := t.stepped h
  generalize t.step h = r at hstep ⊢
  obtain ⟨u, notes⟩ := r
  cases hstep with
  | arrived => simp
  | moved => simp
  | _ => exact le_rfl

/-- A flight goes on as the flight of its request. -/
theorem step_keeps (t : Service X) (h : Happening) {n : Nat} {f : Flight X}
    (hf : t.flights[n]? = some f) :
    ∃ point, (t.step h).1.flights[n]? = some { f with point := point } := by
  have hlen : n < (t.step h).1.flights.length :=
    (List.getElem?_eq_some_iff.1 hf).1.trans_le (t.step_length h)
  generalize hf' : (t.step h).1.flights[n] = f'
  have hthere : (t.step h).1.flights[n]? = some f' := by rw [List.getElem?_eq_getElem hlen, hf']
  obtain ⟨hstay, -⟩ | ⟨hgone, -⟩ | ⟨before, upstream, -, hbefore, hmoved, -⟩ :=
    t.step_flight h hthere
  · exact ⟨f.point, hthere.trans (hstay.symm.trans hf)⟩
  · rw [hf] at hgone
    cases hgone
  · obtain rfl := Option.some.inj (hf.symm.trans hbefore)
    exact ⟨_, hmoved ▸ hthere⟩

/-- What is seen is seen of a flight that is there. -/
theorem step_notes (t : Service X) (h : Happening) {n : Nat} (hn : t.flights[n]? = none) :
    notesOf n (t.step h).2 = [] := by
  have hstep := t.stepped h
  generalize t.step h = r at hstep ⊢
  obtain ⟨u, notes⟩ := r
  cases hstep with
  | moved k upstream f there =>
      apply notesOf_other
      rintro rfl
      rw [hn] at there
      cases there
  | _ => rfl

/-- What was seen in a run was seen of a flight that is there. -/
theorem run_notes {t : Service X} {hs : List Happening} {n : Nat}
    (hn : (run step t hs).1.flights[n]? = none) : notesOf n (run step t hs).2 = [] := by
  revert hn
  refine run_history (I := fun (u : Service X) log => u.flights[n]? = none → notesOf n log = [])
    (fun _ => rfl) ?_
  intro before h after _ hbefore hgone
  have hwas : (run step t before).1.flights[n]? = none := by
    rw [List.getElem?_eq_none_iff] at hgone ⊢
    exact (step_length _ h).trans hgone
  rw [notesOf_append, hbefore hwas, step_notes _ h hwas]
  rfl

/-- **The rule for one flight.** What holds of a flight taken in and is kept by its moves, at
whatever shared state, holds in every run. -/
theorem run_flight {I : Flight X → List Note → Prop} {S : Shared X → Prop} {t : Service X}
    {hs : List Happening} (ht : t.flights = [])
    {n : Nat} (hS : ∀ before after, hs = before ++ after →
      n < (run step t before).1.flights.length → S (run step t before).1.process.shared)
    (hnew : ∀ cfg generated req peerIp, I (Flight.start cfg generated req peerIp) [])
    (hmove : ∀ f log upstream s m, S s → I f log →
      let r := f.move t.process.pipeline upstream s m
      I { f with point := r.point } (log ++ f.seen r))
    {f : Flight X} (hf : (run step t hs).1.flights[n]? = some f) :
    I f (notesOf n (run step t hs).2) := by
  revert f
  refine run_history (I := fun (u : Service X) log =>
    ∀ {f}, u.flights[n]? = some f → I f (notesOf n log)) ?_ ?_
  · intro f hf
    rw [ht] at hf
    cases hf
  · intro before h after hes hI f' hf'
    rw [notesOf_append]
    obtain ⟨hstay, hnotes, -⟩ | ⟨hgone, hnotes, _, _, _, -, rfl⟩ |
      ⟨f, upstream, -, hthere, rfl, hnotes⟩ := step_flight _ h hf'
    · rw [hnotes, List.append_nil]
      exact hI hstay
    · rw [hnotes, run_notes hgone]
      exact hnew _ _ _ _
    · rw [hnotes, run_pipeline]
      have hlen : n < (run step t before).1.flights.length :=
        (List.getElem?_eq_some_iff.1 hthere).1
      exact hmove f _ upstream _ _ (hS before (h :: after) hes hlen) (hI hthere)

end Service

/-! ## A login -/

/-- The service of the login scenario, as it boots. -/
def loginService : Service Supervisor.loginBuild :=
  (Service.boot Supervisor.loginBuild loginFiles "budu.toml" ⟨0, 0⟩ noMetrics).toOption.get
    (by decide +kernel)

/-- The service of the scenario boots from its files. -/
theorem boot_login :
    Service.boot Supervisor.loginBuild loginFiles "budu.toml" ⟨0, 0⟩ noMetrics = .ok loginService :=
  ok_of_toOption_get _ _

/-- A hangup that finds the supervisor idle. -/
theorem Service.chores_reload_login :
    ∃ k, (fun u : Service Supervisor.loginBuild => u.supervised loginFiles noFeeds)^[k]
      ((({ loginService with chores := [] } : Service Supervisor.loginBuild).step
        (.hangup loginFiles "budu.toml")).1) =
      { ({ loginService with chores := [] } : Service Supervisor.loginBuild) with
        process := sighup loginFiles noFeeds "budu.toml"
          ({ loginService with chores := [] } : Service Supervisor.loginBuild).process } :=
  Service.chores_reload loginFiles noFeeds "budu.toml" { loginService with chores := [] } rfl

/-- The login arrives, with an id of its own. -/
def loginArrives : Happening := .arrive "id-1" loginRequest (.v4 0xC0000207#32)

/-- It is sent, while the first refresh of the blocklist is done. -/
def loginRun : List Happening :=
  [loginArrives, .supervise loginFiles noFeeds] ++ List.replicate 11 (.move 0 loginUpstream)

/-- The call of `forward` for the login: its body was not selected, so it streams. -/
def loginCall : ForwardCall :=
  (Flight.start loginService.process.config "id-1" loginRequest
    (.v4 0xC0000207#32) : Flight Supervisor.loginBuild).callWith (.stream ⟨[], none⟩) none

/-- In the run of the example the login is sent. -/
theorem login_sent : (0, .sent loginCall) ∈ (run Service.step loginService loginRun).2 := by
  decide +kernel

end BuduWaf.Traffic
