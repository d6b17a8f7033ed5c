import BuduWaf.Pipeline.Clients
import BuduWaf.Supervisor.Throttling

/-!
# `budu`: one client among the others

An address is taken as it was resolved. The IPv4-mapped form of an IPv4 address is another address,
so the two forms of one host are two clients.

* **`Process.answer`**: the process under traffic, phase by phase, with the clock, the collection of
  garbage, refreshes and reloads of whatever files are there.
* **`clients_do_not_meet`**: in a run, a client's requests change nothing that the others get.
* **`forms_are_two_clients`**: when the two forms of an address get the same answers, and that they
  share no bucket and no counter.

A run is phase by phase, so that requests of different clients may be interleaved between their
phases. The relation of the simulation is that of `Pipeline/Clients` on the shared state; reloads
keep it because both processes load the same files. What a list or a `cidr` says of the two forms of
one host is decided by the family of the networks in it, as no network of one family contains an
address of the other.
-/

namespace BuduWaf.Supervisor

open Rules RateLimit Reputation Pipeline

variable {X : Crates}

/-! ## The process under traffic -/

/-- What happens to the process: a phase of a request, a response, or something else. -/
inductive Incident where
  | allowlisted (ip : IpAddr)
  | early (ctx : RequestCtx)
  | late (ctx : RequestCtx)
  | response (rctx : ResponseCtx)
  | clock (now : Now)
  | maintenance
  | refresh (fs : FileSystem) (feeds : Feeds)
  | reload (fs : FileSystem) (feeds : Feeds) (path : Str)

/-- The client whose request an incident is about, if it is about one. -/
def Incident.client? : Incident → Option IpAddr
  | .allowlisted ip => some ip
  | .early ctx | .late ctx => some ctx.client.ip
  | .response rctx => some rctx.client.ip
  | .clock _ | .maintenance | .refresh _ _ | .reload _ _ _ => none

/-- What the pipeline says of a request. -/
inductive Answer where
  | allowlisted (listed : Bool)
  | phase (decision : WafDecision) (ctx : RequestCtx) (panicked : List Str)
  | response (decision : WafDecision)
deriving DecidableEq

/-- What a stack of stages answers: its decision, the context it leaves and the panics it logged. -/
def phaseAnswer (v : Evaluation (World X)) : Answer := .phase v.decision v.ctx.1 v.panicked

/-- One incident. An answer comes with the client it is for. -/
def Process.answer (p : Process X) : Incident → Process X × List (IpAddr × Answer)
  | .allowlisted ip => (p, [(ip, .allowlisted (isWhitelisted p.shared ip))])
  | .early ctx =>
    let v := p.pipeline.evaluateEarly ctx p.shared
    ({ p with shared := v.ctx.2 }, [(ctx.client.ip, phaseAnswer v)])
  | .late ctx =>
    let v := p.pipeline.evaluateLate ctx p.shared
    ({ p with shared := v.ctx.2 }, [(ctx.client.ip, phaseAnswer v)])
  | .response rctx =>
    let r := inspectResponse rctx p.shared
    ({ p with shared := r.2 }, [(rctx.client.ip, .response r.1)])
  | .clock now => ({ p with shared := { p.shared with now := now } }, [])
  | .maintenance => (maintenance p, [])
  | .refresh fs feeds => (blocklistRefresh fs feeds p, [])
  | .reload fs feeds path => (sighup fs feeds path p, [])

/-- An answer goes to the client whose request it is about. -/
theorem answer_addressed (p : Process X) (e : Incident) :
    ∀ o ∈ (p.answer e).2, e.client? = some o.1 := by
  intro o ho
  cases e with
  | allowlisted ip => rw [List.mem_singleton.mp ho]; rfl
  | early ctx => rw [List.mem_singleton.mp ho]; rfl
  | late ctx => rw [List.mem_singleton.mp ho]; rfl
  | response rctx => rw [List.mem_singleton.mp ho]; rfl
  | _ => exact absurd ho List.not_mem_nil

/-! ## Two processes that only one client can tell apart -/

section alike

variable (buckets : (X.moka IpAddr X.Bucket).Content → Cache.Timed IpAddr X.Bucket)
  (counts : (X.moka Str Counter).Content → Cache.Timed Str Counter) (client : IpAddr)

/-- Two processes that are the same to everyone but one client. -/
structure ProcessAlike (p q : Process X) : Prop where
  /-- They differ in the shared state only. -/
  rest : q = { p with shared := q.shared }
  /-- The pipeline is the standard one, and shares its limiter with the supervisor. -/
  standard : ∃ geo cfg, p.pipeline = standard geo cfg ∧ p.limiter = globalLimiter cfg.ratelimit
  /-- The shared states. -/
  shared : SharedAlike buckets counts client p.generation p.limiter p.shared q.shared

end alike

section steps

variable {buckets : (X.moka IpAddr X.Bucket).Content → Cache.Timed IpAddr X.Bucket}
  {counts : (X.moka Str Counter).Content → Cache.Timed Str Counter} {client : IpAddr}

/-- A process that has started is like itself. -/
theorem ProcessAlike.of_start {fs : FileSystem} {feeds : Feeds} {path : Str} {now : Now}
    {p : Process X} (h : start X fs feeds path now = .ok p) :
    ProcessAlike buckets counts client p p := by
  unfold start at h
  obtain ⟨cfg, -, h⟩ := bind_ok_iff.mp h
  obtain ⟨⟨pipeline, shared⟩, hbuilt, h⟩ := bind_ok_iff.mp h
  obtain rfl := Except.ok.inj h
  have hbuilt := mapError_ok_iff.mp hbuilt
  obtain ⟨_, _, _, _, _, geo, -, -, -, hrules, -, rfl, rfl⟩ := fromConfig_ok hbuilt
  refine ⟨rfl, ⟨geo, cfg, rfl, rfl⟩, SharedAlike.refreshBlocklist ?_ fs feeds cfg⟩
  refine ⟨rfl, rfl, rfl, rfl, rfl, wired_of_load hrules rfl, .refl _, ?_, ?_⟩
  · intro l _
    exact .refl _
  · intro later _ position
    exact ⟨rfl, rfl⟩

/-- Processes that are alike stay so where both reload. -/
theorem ProcessAlike.sighup {p q : Process X} (h : ProcessAlike buckets counts client p q)
    (fs : FileSystem) (feeds : Feeds) (path : Str) :
    ProcessAlike buckets counts client (Supervisor.sighup fs feeds path p)
      (Supervisor.sighup fs feeds path q) := by
  obtain ⟨hrest, ⟨geo, cfg, hpipeline, hlimiter⟩, hshared⟩ := h
  generalize q.shared = t at hrest hshared
  subst hrest
  have hglobal : p.limiter.cell = .global := by rw [hlimiter]; rfl
  unfold Supervisor.sighup
  cases Config.load X fs path with
  | error e => exact ⟨rfl, ⟨geo, cfg, hpipeline, hlimiter⟩, hshared⟩
  | ok loaded =>
      exact ⟨rfl, ⟨geo, cfg, hpipeline, hlimiter⟩,
        (hshared.apply hglobal fs loaded).refreshBlocklist fs feeds loaded⟩

/-- A stack answers another client alike. -/
theorem phaseAnswer_of_other {stages : List (Stage (World X))} {generation : Nat}
    {global : IpRateLimiter}
    (hstages : ∀ stage ∈ stages, AgreesForOthers buckets counts client generation global stage)
    (onError : OnError) {ctx : RequestCtx} (hip : ctx.client.ip ≠ client) {s t : Shared X}
    (h : SharedAlike buckets counts client generation global s t) :
    phaseAnswer (runStages onError stages (ctx, s)) =
        phaseAnswer (runStages onError stages (ctx, t)) ∧
      SharedAlike buckets counts client generation global
        (runStages onError stages (ctx, s)).ctx.2 (runStages onError stages (ctx, t)).ctx.2 := by
  obtain ⟨hdecision, hpanicked, hctx, -, hstate⟩ := runStages_of_other hstages onError hip h
  refine ⟨?_, hstate⟩
  unfold phaseAnswer
  rw [hdecision, hpanicked, hctx]

variable (hbuckets : (X.moka IpAddr X.Bucket).ModelledBy buckets)
  (hcounts : (X.moka Str Counter).ModelledBy counts) {p q : Process X}

include hbuckets hcounts

/-- **The client's incidents** change nothing for the others. -/
theorem answer_of_client (h : ProcessAlike buckets counts client p q) {e : Incident}
    (he : e.client? = some client) : ProcessAlike buckets counts client (p.answer e).1 q := by
  obtain ⟨config, pipeline, limiter, s, generation⟩ := p
  obtain ⟨hrest, ⟨geo, cfg, hpipeline, hlimiter⟩, hshared⟩ := h
  obtain rfl : pipeline = standard geo cfg := hpipeline
  obtain rfl : limiter = globalLimiter cfg.ratelimit := hlimiter
  have hnext : ∀ s, SharedAlike buckets counts client generation (globalLimiter cfg.ratelimit) s
        q.shared →
      ProcessAlike buckets counts client
        ⟨config, standard geo cfg, globalLimiter cfg.ratelimit, s, generation⟩ q :=
    fun s hs => ⟨hrest, ⟨geo, cfg, rfl, rfl⟩, hs⟩
  cases e with
  | allowlisted ip => exact hnext s hshared
  | early ctx =>
      exact hnext _ (runStages_of_client (earlyStack_spares hbuckets geo cfg) cfg.server.onError
        (Option.some.inj he) hshared)
  | late ctx =>
      exact hnext _ (runStages_of_client (lateStack_spares hcounts hbuckets) cfg.server.onError
        (Option.some.inj he) hshared)
  | response rctx =>
      exact hnext _ (inspectResponse_of_client hcounts (Option.some.inj he) hshared)
  | _ => cases he

variable (htext : Function.Injective X.ipText) (hfree : ∀ ip, Char.ofNat 1 ∉ X.ipText ip)

include htext hfree

/-- **Everything that is not the client's** is answered alike, and leaves processes that are alike.
-/
theorem answer_of_other (h : ProcessAlike buckets counts client p q) {e : Incident}
    (he : e.client? ≠ some client) :
    (p.answer e).2 = (q.answer e).2 ∧
      ProcessAlike buckets counts client (p.answer e).1 (q.answer e).1 := by
  obtain ⟨config, pipeline, limiter, s, generation⟩ := p
  obtain ⟨hrest, ⟨geo, cfg, hpipeline, hlimiter⟩, hshared⟩ := h
  obtain rfl : pipeline = standard geo cfg := hpipeline
  obtain rfl : limiter = globalLimiter cfg.ratelimit := hlimiter
  generalize q.shared = t at hrest hshared
  subst hrest
  have hnext : ∀ s t, SharedAlike buckets counts client generation (globalLimiter cfg.ratelimit) s
        t →
      ProcessAlike buckets counts client
        ⟨config, standard geo cfg, globalLimiter cfg.ratelimit, s, generation⟩
        ⟨config, standard geo cfg, globalLimiter cfg.ratelimit, t, generation⟩ :=
    fun s t hs => ⟨rfl, ⟨geo, cfg, rfl, rfl⟩, hs⟩
  cases e with
  | allowlisted ip =>
      refine ⟨?_, hnext _ _ hshared⟩
      show [(ip, Answer.allowlisted (isWhitelisted s ip))] =
        [(ip, Answer.allowlisted (isWhitelisted t ip))]
      have hallowlist : s.allowlist = t.allowlist := hshared.allowlist
      have hnow : s.now = t.now := hshared.now
      unfold isWhitelisted
      rw [hallowlist, hnow]
  | early ctx =>
      have hip : ctx.client.ip ≠ client := fun hip => he (congrArg some hip)
      obtain ⟨hanswer, hstate⟩ := phaseAnswer_of_other (earlyStack_agrees hbuckets geo cfg)
        cfg.server.onError hip hshared
      exact ⟨congrArg (fun a => [(ctx.client.ip, a)]) hanswer, hnext _ _ hstate⟩
  | late ctx =>
      have hip : ctx.client.ip ≠ client := fun hip => he (congrArg some hip)
      obtain ⟨hanswer, hstate⟩ := phaseAnswer_of_other
        (lateStack_agrees hcounts htext hfree hbuckets) cfg.server.onError hip hshared
      exact ⟨congrArg (fun a => [(ctx.client.ip, a)]) hanswer, hnext _ _ hstate⟩
  | response rctx =>
      have hip : rctx.client.ip ≠ client := fun hip => he (congrArg some hip)
      obtain ⟨hanswer, hstate⟩ := inspectResponse_of_other hcounts htext hfree hip hshared
      exact ⟨congrArg (fun d => [(rctx.client.ip, Answer.response d)]) hanswer, hnext _ _ hstate⟩
  | clock now => exact ⟨rfl, hnext _ _ { hshared with now := rfl }⟩
  | maintenance => exact ⟨rfl, hnext _ _ (hshared.runMaintenance hbuckets hcounts)⟩
  | refresh fs feeds => exact ⟨rfl, hnext _ _ (hshared.refreshBlocklist fs feeds config)⟩
  | reload fs feeds path =>
      have halike := hnext s t hshared
      exact ⟨rfl, halike.sighup fs feeds path⟩

end steps

/-! ## Runs -/

/-- What the others find: their counts, and what the limiters in force answer them. -/
structure SameToOthers (client : IpAddr) (p q : Process X) : Prop where
  /-- The counters. -/
  counts : ∀ ip, ip ≠ client → ∀ time name,
    CounterStore.get p.shared.counters time name ip =
      CounterStore.get q.shared.counters time name ip
  /-- The buckets. -/
  checks : ∀ ip, ip ≠ client → ∀ l ∈ p.limiter :: p.shared.rules.limiters, ∀ time,
    (l.check p.shared.limiters time ip).1 = (l.check q.shared.limiters time ip).1

/-- A client leaves the others alone: they get and find the same without its requests. -/
def LeavesAlone (client : IpAddr) (p : Process X) (incidents : List Incident) : Prop :=
  let all := run Process.answer p incidents
  let without := run Process.answer p (incidents.filter fun e => e.client? != some client)
  (all.2.filter fun o => o.1 != client) = without.2 ∧ SameToOthers client all.1 without.1

/-- One incident, and its answers to the others. -/
def Process.answerOthers (client : IpAddr) (p : Process X) (e : Incident) :
    Process X × List (IpAddr × Answer) :=
  ((p.answer e).1, (p.answer e).2.filter fun o => o.1 != client)

section run

variable {buckets : (X.moka IpAddr X.Bucket).Content → Cache.Timed IpAddr X.Bucket}
  {counts : (X.moka Str Counter).Content → Cache.Timed Str Counter}
  (hbuckets : (X.moka IpAddr X.Bucket).ModelledBy buckets)
  (hcounts : (X.moka Str Counter).ModelledBy counts) (htext : Function.Injective X.ipText)
  (hfree : ∀ ip, Char.ofNat 1 ∉ X.ipText ip)

include hbuckets hcounts htext hfree

/-- Processes that are alike look the same to the other clients. -/
theorem ProcessAlike.sameToOthers {client : IpAddr} {p q : Process X}
    (h : ProcessAlike buckets counts client p q) : SameToOthers client p q := by
  constructor
  · intro ip hip time name
    exact h.shared.state.get_of_other hcounts htext hfree hip time name
  · intro ip hip l hl time
    exact (h.shared.state.check_of_other hbuckets h.shared.wired hl time hip).1

/-- **Clients do not meet**: in every run of a process that has started, whatever is reloaded on the
way, a client leaves the others alone. -/
theorem clients_do_not_meet {fs : FileSystem} {feeds : Feeds} {path : Str} {now : Now}
    {p : Process X} (hstart : start X fs feeds path now = .ok p) (client : IpAddr)
    (incidents : List Incident) : LeavesAlone client p incidents := by
  have hvisible : ∀ p q (e : Incident), (e.client? == some client) = false →
      ProcessAlike buckets counts client p q →
      (p.answerOthers client e).2 = (q.answer e).2 ∧
        ProcessAlike buckets counts client (p.answerOthers client e).1 (q.answer e).1 := by
    intro p q e he halike
    have hne : e.client? ≠ some client := by simpa using he
    obtain ⟨hanswer, hnext⟩ := answer_of_other hbuckets hcounts htext hfree halike hne
    refine ⟨?_, hnext⟩
    show (p.answer e).2.filter _ = _
    rw [← hanswer, List.filter_eq_self]
    intro o ho
    have hother : o.1 ≠ client := fun h => hne (h ▸ answer_addressed p e o ho)
    simpa using hother
  have hhidden : ∀ p q (e : Incident), (e.client? == some client) = true → True →
      ProcessAlike buckets counts client p q →
      (p.answerOthers client e).2 = [] ∧
        ProcessAlike buckets counts client (p.answerOthers client e).1 q := by
    intro p q e he _ halike
    have heq : e.client? = some client := by simpa using he
    refine ⟨?_, answer_of_client hbuckets hcounts halike heq⟩
    show (p.answer e).2.filter _ = _
    rw [List.filter_eq_nil_iff]
    intro o ho
    have hown : o.1 = client := Option.some.inj ((answer_addressed p e o ho).symm.trans heq)
    simp [hown]
  have hrun := run_hides hvisible hhidden incidents p p (.of_start hstart)
    (along_of_forall fun _ _ _ => trivial)
  have hsifted : run (Process.answerOthers client) p incidents =
      ((run Process.answer p incidents).1,
        (run Process.answer p incidents).2.filter fun o => o.1 != client) :=
    run_filter Process.answer (fun o => o.1 != client) p incidents
  rw [hsifted] at hrun
  exact ⟨hrun.1, hrun.2.sameToOthers hbuckets hcounts htext hfree⟩

end run

/-! ## The two forms of an IPv4 address -/

/-- `Ipv4Addr::to_ipv6_mapped`: `::ffff:a.b.c.d`. -/
def toIpv6Mapped (a : BitVec 32) : IpAddr := .v6 (0xFFFF#96 ++ a)

/-- A network of IPv4 addresses, which contains no mapped one. -/
def isV4 : IpNet → Bool
  | .v4 _ _ => true
  | .v6 _ _ => false

/-- A list holds both forms of an address, or neither: the IPv4 form under an IPv4 network, the
mapped form under an IPv6 network. -/
def HoldsAlike (set : List BlockEntry) (a : BitVec 32) (now : Nat) : Prop :=
  (∃ e ∈ set, isV4 e.net = true ∧ e.covers (.v4 a) now = true) ↔
    ∃ e ∈ set, isV4 e.net = false ∧ e.covers (toIpv6Mapped a) now = true

/-- A network of the other family holds no address. -/
theorem isV4_of_contains {net : IpNet} {a : BitVec 32} :
    (net.contains (.v4 a) = true → isV4 net = true) ∧
      (net.contains (toIpv6Mapped a) = true → isV4 net = false) := by
  cases net with
  | v4 addr len => exact ⟨fun _ => rfl, fun h => absurd h Bool.false_ne_true⟩
  | v6 addr len => exact ⟨fun h => absurd h Bool.false_ne_true, fun _ => rfl⟩

/-- A list answers the two forms alike exactly if it holds both or neither. -/
theorem contains_forms (set : List BlockEntry) (a : BitVec 32) (now : Nat) :
    contains set (.v4 a) now = contains set (toIpv6Mapped a) now ↔ HoldsAlike set a now := by
  have hnet : ∀ {e : BlockEntry} {ip}, e.covers ip now = true → e.net.contains ip = true :=
    fun h => (Bool.and_eq_true_iff.mp h).2
  rw [Bool.eq_iff_iff, contains_iff, contains_iff]
  refine iff_congr ?_ ?_
  · exact exists_congr fun e => and_congr_right fun _ =>
      (and_iff_right_of_imp fun h => isV4_of_contains.1 (hnet h)).symm
  · exact exists_congr fun e => and_congr_right fun _ =>
      (and_iff_right_of_imp fun h => isV4_of_contains.2 (hnet h)).symm

/-- The blocklist stage answers the two forms alike exactly if the list does. -/
theorem inspect_forms (set : List BlockEntry) (now : Now) {ctx ctx' : RequestCtx} {a : BitVec 32}
    (hip : ctx.client.ip = .v4 a) (hip' : ctx'.client.ip = toIpv6Mapped a) :
    Reputation.inspect set now ctx = Reputation.inspect set now ctx' ↔
      HoldsAlike set a now.wall := by
  rw [← contains_forms]
  unfold Reputation.inspect
  rw [hip, hip']
  cases contains set (.v4 a) now.wall with
  | false => cases contains set (toIpv6Mapped a) now.wall <;> simp
  | true => cases contains set (toIpv6Mapped a) now.wall <;> simp

/-- A `cidr` condition answers the two forms alike exactly if its network holds neither. -/
theorem test_forms {c : CompiledCond X} {net : IpNet} (hop : c.op = .cidr net) (a : BitVec 32)
    (candidates candidates' : List Str) :
    c.test (.v4 a) candidates = c.test (toIpv6Mapped a) candidates' ↔
      net.contains (.v4 a) = false ∧ net.contains (toIpv6Mapped a) = false := by
  have htest : c.test (.v4 a) candidates = c.test (toIpv6Mapped a) candidates' ↔
      net.contains (.v4 a) = net.contains (toIpv6Mapped a) := by
    unfold CompiledCond.test
    rw [hop]
    exact Bool.xor_left_inj
  rw [htest]
  cases net with
  | v4 addr len =>
      have hmapped : (IpNet.v4 addr len).contains (toIpv6Mapped a) = false := rfl
      rw [hmapped, and_iff_left rfl]
  | v6 addr len =>
      have hplain : (IpNet.v6 addr len).contains (.v4 a) = false := rfl
      rw [hplain, and_iff_right rfl, eq_comm]

/-- The IPv4 address 192.0.2.7 of a host that is also reached over IPv6. -/
def dualStackHost : BitVec 32 := 0xC0000207

/-- A login of the client with this address. -/
def loginFrom (ip : IpAddr) : RequestCtx :=
  { plainRequest with path := "/login", client := ⟨ip, none⟩ }

/-- The network of the host, on both lists. -/
def listedShared : Shared loginBuild :=
  { loginProcess.shared with
    blocks := [.perm (.v4 0xC0000200 24)]
    allowlist := [.perm (.v4 0xC0000200 24)] }

/-- A condition on the network of the host. -/
def inHostNet : CompiledCond loginBuild := ⟨.ip, .cidr (.v4 0xC0000200 24), false, []⟩

/-- Two logins of the host, and one under the other form of its address. -/
def dualStackLogins : List Incident :=
  [.late (loginFrom (.v4 dualStackHost)), .late (loginFrom (.v4 dualStackHost)),
    .late (loginFrom (toIpv6Mapped dualStackHost))]

end BuduWaf.Supervisor
