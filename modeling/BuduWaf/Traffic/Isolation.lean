import BuduWaf.Supervisor.Clients
import BuduWaf.Traffic.Service

/-!
# `budu`: flights of one client among the others

What a client's requests change in the buckets and counters, and what is seen of the others, under
every interleaving. The other service is one that takes in the client's requests and never handles
them.

* **`move_of_client`**, **`move_of_other`**: one move of a flight on two states that are the same
  to everyone but the client.
* **`Pending`**: where the supervisor is in a reload; the rules that are compiled but not yet in
  force have cells that nobody used.
* **`flights_do_not_meet`**: every other request is handled step by step as if the client's had
  never been handled.

It is a non-interference result with two runs over the same happenings, one of which ignores the
moves of the client's flights. The relation is that the shared states are the same to everyone but
the client and that the flights of the others are the same. A happening is one of three: a move of
the client's, on one side only; a move of another client's, on both; or a step of the supervisor,
on both, which swaps in the same things. During a reload two loads of rules are about, the one in
force and the one to be swapped in, and their limiters must not meet (`Pending`).
-/

namespace BuduWaf.Traffic

open Rules RateLimit Signatures Reputation Pipeline Proxy Supervisor

variable {X : Crates}

/-! ## One move -/

section moves

variable {buckets : (X.moka IpAddr X.Bucket).Content → Cache.Timed IpAddr X.Bucket}
  {counts : (X.moka Str Counter).Content → Cache.Timed Str Counter} {client : IpAddr}
  {generation : Nat} {global : IpRateLimiter} {p : Pipeline X} {f : Flight X}
  {s t : Shared X} {m m' : Metrics} {upstream : OutRequest → UpstreamResult}

/-- Running a stage on a request of the client, on one side only, keeps the states alike to the
others. -/
theorem runStage_of_client {stage : Stage (World X)}
    (hstage : SparesOthers buckets counts client generation global stage) {ctx : RequestCtx}
    {more done : RequestCtx → Point X} (hip : ctx.client.ip = client)
    (hmore : ∀ ctx, ctx.client.ip = client → (more ctx).About p (· = client))
    (hdone : ∀ ctx, ctx.client.ip = client → (done ctx).About p (· = client))
    (h : SharedAlike buckets counts client generation global s t) :
    let r := f.runStage p.onError stage ctx more done s m
    r.point.About p (· = client) ∧
      SharedAlike buckets counts client generation global r.shared t := by
  obtain ⟨hip', hshared⟩ := hstage (ctx, s) t ⟨hip, h⟩
  intro r
  constructor
  · show (f.runStage p.onError stage ctx more done s m).point.About p _
    rw [Flight.runStage_point]
    rcases (stageStep p.onError stage ((ctx, s), [])).1 with _ | d
    · exact hmore _ hip'
    · rw [Option.elim_some]
      rcases (actOn d f.detect m).1 with _ | resp
      · exact hdone _ hip'
      · trivial
  · show SharedAlike _ _ _ _ _ (f.runStage p.onError stage ctx more done s m).shared t
    rw [Flight.runStage_shared]
    exact hshared

/-- A stage on another client's request. -/
theorem runStage_of_other {stage : Stage (World X)}
    (hstage : AgreesForOthers buckets counts client generation global stage) {ctx : RequestCtx}
    {more done : RequestCtx → Point X} (hip : ctx.client.ip ≠ client)
    (hmore : ∀ ctx, ctx.client.ip ≠ client → (more ctx).About p (· ≠ client))
    (hdone : ∀ ctx, ctx.client.ip ≠ client → (done ctx).About p (· ≠ client))
    (h : SharedAlike buckets counts client generation global s t) :
    let r := f.runStage p.onError stage ctx more done s m
    let r' := f.runStage p.onError stage ctx more done t m'
    r.point = r'.point ∧ r.notes = r'.notes ∧ r.point.About p (· ≠ client) ∧
      SharedAlike buckets counts client generation global r.shared r'.shared := by
  obtain ⟨hresult, hctx, hip', hshared⟩ := hstage (ctx, s) (ctx, t) ⟨rfl, hip, h⟩
  have hstep : (stageStep p.onError stage ((ctx, s), [])).1 =
      (stageStep p.onError stage ((ctx, t), [])).1 := stageStep_congr hresult [] []
  intro r r'
  have hpoint : r.point = r'.point := by
    show (f.runStage p.onError stage ctx more done s m).point =
      (f.runStage p.onError stage ctx more done t m').point
    rw [Flight.runStage_point, Flight.runStage_point, ← hstep, ← hctx]
    rcases (stageStep p.onError stage ((ctx, s), [])).1 with _ | d
    · rfl
    · rw [Option.elim_some, Option.elim_some, actOn_congr d f.detect m m']
  refine ⟨hpoint, ?_, ?_, ?_⟩
  · show (f.runStage p.onError stage ctx more done s m).notes =
      (f.runStage p.onError stage ctx more done t m').notes
    rw [Flight.runStage_notes, Flight.runStage_notes, hresult]
  · show (f.runStage p.onError stage ctx more done s m).point.About p _
    rw [Flight.runStage_point]
    rcases (stageStep p.onError stage ((ctx, s), [])).1 with _ | d
    · exact hmore _ hip'
    · rw [Option.elim_some]
      rcases (actOn d f.detect m).1 with _ | resp
      · exact hdone _ hip'
      · trivial
  · show SharedAlike _ _ _ _ _ (f.runStage p.onError stage ctx more done s m).shared
      (f.runStage p.onError stage ctx more done t m').shared
    rw [Flight.runStage_shared, Flight.runStage_shared]
    exact hshared

section client

variable (m upstream)
variable (hearly : ∀ stage ∈ p.early, SparesOthers buckets counts client generation global stage)
  (hlate : ∀ stage ∈ p.late, SparesOthers buckets counts client generation global stage)
  (hcounts : (X.moka Str Counter).ModelledBy counts)

include hearly hlate hcounts

/-- **The client's flight** changes nothing for the others. -/
theorem move_of_client (hip : f.client.ip = client) (habout : f.point.About p (· = client))
    (h : SharedAlike buckets counts client generation global s t) :
    let r := f.move p upstream s m
    r.point.About p (· = client) ∧
      SharedAlike buckets counts client generation global r.shared t := by
  cases hpoint : f.point with
  | arrived =>
      cases hlisted : isWhitelisted s f.client.ip with
      | true =>
          simp only [Flight.move, hpoint, hlisted, if_true]
          exact ⟨trivial, h⟩
      | false =>
          simp only [Flight.move, hpoint, hlisted, Bool.false_eq_true, if_false]
          exact ⟨⟨hip, fun _ hstage => hstage⟩, h⟩
  | early ctx rest =>
      rw [hpoint] at habout
      obtain ⟨hctx, hrest⟩ := habout
      cases rest with
      | nil =>
          simp only [Flight.move, hpoint]
          exact ⟨hctx, h⟩
      | cons stage rest =>
          obtain ⟨hstage, hrest⟩ := List.forall_mem_cons.1 hrest
          simp only [Flight.move, hpoint]
          exact runStage_of_client (hearly stage hstage) hctx (fun _ hctx => ⟨hctx, hrest⟩)
            (fun _ hctx => hctx) h
  | gate ctx =>
      rw [hpoint] at habout
      have hctx : ctx.client.ip = client := habout
      simp only [Flight.move, hpoint]
      cases bodyGate f.cfg f.req with
      | tooLarge => exact ⟨trivial, h⟩
      | buffered bytes => exact ⟨⟨hctx, fun _ hstage => hstage⟩, h⟩
      | streamed => exact ⟨⟨hctx, fun _ hstage => hstage⟩, h⟩
  | late ctx body len rest =>
      rw [hpoint] at habout
      obtain ⟨hctx, hrest⟩ := habout
      cases rest with
      | nil =>
          simp only [Flight.move, hpoint]
          exact ⟨trivial, h⟩
      | cons stage rest =>
          obtain ⟨hstage, hrest⟩ := List.forall_mem_cons.1 hrest
          simp only [Flight.move, hpoint]
          exact runStage_of_client (hlate stage hstage) hctx (fun _ hctx => ⟨hctx, hrest⟩)
            (fun _ _ => trivial) h
  | admitted inspected body len =>
      simp only [Flight.move, hpoint]
      exact ⟨trivial, h⟩
  | waiting inspected call =>
      simp only [Flight.move, hpoint]
      cases forwardResult X f.cfg (quietEnv (X := X) upstream) call with
      | error e => exact ⟨trivial, h⟩
      | ok resp => cases inspected <;> exact ⟨trivial, h⟩
  | replied resp =>
      simp only [Flight.move, hpoint]
      cases buffersReply p.engine f.cfg resp s with
      | false => exact ⟨trivial, h⟩
      | true =>
          simp only [if_true]
          cases bufferFrames f.cfg.limits.maxInspectBody.toNat resp.body.toStream.failure []
              resp.body.toStream.frames <;> exact ⟨trivial, h⟩
  | judging resp held =>
      simp only [Flight.move, hpoint]
      exact ⟨trivial, inspectResponse_of_client hcounts hip h⟩
  | answered resp =>
      simp only [Flight.move, hpoint]
      exact ⟨trivial, h⟩

end client

section other

variable (m m' upstream)
variable (hearly : ∀ stage ∈ p.early, AgreesForOthers buckets counts client generation global stage)
  (hlate : ∀ stage ∈ p.late, AgreesForOthers buckets counts client generation global stage)
  (hcounts : (X.moka Str Counter).ModelledBy counts) (htext : Function.Injective X.ipText)
  (hfree : ∀ ip, Char.ofNat 1 ∉ X.ipText ip)

include hearly hlate hcounts htext hfree

/-- **Another client's flight** moves alike on states that are the same to it, and leaves such
states. -/
theorem move_of_other (hip : f.client.ip ≠ client) (habout : f.point.About p (· ≠ client))
    (h : SharedAlike buckets counts client generation global s t) :
    let r := f.move p upstream s m
    let r' := f.move p upstream t m'
    r.point = r'.point ∧ r.notes = r'.notes ∧ r.point.About p (· ≠ client) ∧
      SharedAlike buckets counts client generation global r.shared r'.shared := by
  cases hpoint : f.point with
  | arrived =>
      have hlisted : isWhitelisted s f.client.ip = isWhitelisted t f.client.ip := by
        unfold isWhitelisted
        rw [h.allowlist, h.now]
      simp only [Flight.move, hpoint, ← hlisted]
      cases isWhitelisted s f.client.ip with
      | true => exact ⟨rfl, rfl, trivial, h⟩
      | false => exact ⟨rfl, rfl, ⟨hip, fun _ hstage => hstage⟩, h⟩
  | early ctx rest =>
      rw [hpoint] at habout
      obtain ⟨hctx, hrest⟩ := habout
      cases rest with
      | nil =>
          simp only [Flight.move, hpoint]
          exact ⟨trivial, trivial, hctx, h⟩
      | cons stage rest =>
          obtain ⟨hstage, hrest⟩ := List.forall_mem_cons.1 hrest
          simp only [Flight.move, hpoint]
          exact runStage_of_other (hearly stage hstage) hctx (fun _ hctx => ⟨hctx, hrest⟩)
            (fun _ hctx => hctx) h
  | gate ctx =>
      rw [hpoint] at habout
      have hctx : ctx.client.ip ≠ client := habout
      simp only [Flight.move, hpoint]
      cases bodyGate f.cfg f.req with
      | tooLarge => exact ⟨congrArg Point.answered rfl, rfl, trivial, h⟩
      | buffered bytes => exact ⟨rfl, rfl, ⟨hctx, fun _ hstage => hstage⟩, h⟩
      | streamed => exact ⟨rfl, rfl, ⟨hctx, fun _ hstage => hstage⟩, h⟩
  | late ctx body len rest =>
      rw [hpoint] at habout
      obtain ⟨hctx, hrest⟩ := habout
      cases rest with
      | nil =>
          simp only [Flight.move, hpoint]
          exact ⟨trivial, trivial, trivial, h⟩
      | cons stage rest =>
          obtain ⟨hstage, hrest⟩ := List.forall_mem_cons.1 hrest
          simp only [Flight.move, hpoint]
          exact runStage_of_other (hlate stage hstage) hctx (fun _ hctx => ⟨hctx, hrest⟩)
            (fun _ _ => trivial) h
  | admitted inspected body len =>
      simp only [Flight.move, hpoint]
      exact ⟨trivial, trivial, trivial, h⟩
  | waiting inspected call =>
      simp only [Flight.move, hpoint]
      cases forwardResult X f.cfg (quietEnv (X := X) upstream) call with
      | error e => exact ⟨rfl, rfl, trivial, h⟩
      | ok resp => cases inspected <;> exact ⟨rfl, rfl, trivial, h⟩
  | replied resp =>
      have hbuffers : buffersReply p.engine f.cfg resp s = buffersReply p.engine f.cfg resp t := by
        show (s.rules.needsResponseBody && _ && _) = (t.rules.needsResponseBody && _ && _)
        rw [h.rules]
      simp only [Flight.move, hpoint, ← hbuffers]
      cases buffersReply p.engine f.cfg resp s with
      | false => exact ⟨rfl, rfl, trivial, h⟩
      | true =>
          simp only [if_true]
          cases bufferFrames f.cfg.limits.maxInspectBody.toNat resp.body.toStream.failure []
              resp.body.toStream.frames <;> exact ⟨rfl, rfl, trivial, h⟩
  | judging resp held =>
      have hrctx : (⟨resp.status, resp.headers, f.client, f.req.parts.uri.path,
          held.elim .notBuffered .buffered⟩ : ResponseCtx).client.ip ≠ client := hip
      obtain ⟨hanswer, hnext⟩ := inspectResponse_of_other hcounts htext hfree hrctx h
      simp only [Flight.move, hpoint, Flight.judge]
      refine ⟨?_, ?_, trivial, hnext⟩
      · rw [hanswer, actOn_congr _ _ m m']
      · rw [hanswer]
  | answered resp =>
      simp only [Flight.move, hpoint]
      exact ⟨trivial, trivial, trivial, h⟩

end other

end moves

/-! ## The supervisor -/

/-- A step that neither compiles rules nor swaps anything in for a reload. -/
def Chore.Plain : Chore X → Prop
  | .rebuild _ => False
  | .store _ => False
  | _ => True

/-- Where the supervisor is in a reload: the rules it is about to store are those of the last load,
and the ones in force are of an earlier one. -/
inductive Pending (inForce loaded : Nat) : List (Chore X) → Prop
  | rebuild (cfg : Config) {rest : List (Chore X)} (le : inForce ≤ loaded)
      (plain : ∀ chore ∈ rest, chore.Plain) : Pending inForce loaded (.rebuild cfg :: rest)
  | signatures {fs : FileSystem} {now : Now} {cfg : Config} {new : Rebuilt X}
      {rest : List (Chore X)} (lt : inForce < loaded)
      (compiled : Pipeline.rebuild X fs now loaded cfg = .ok new)
      (plain : ∀ chore ∈ rest, chore.Plain) :
      Pending inForce loaded (.store (.signatures new.signatures) :: .store (.rules new.rules) ::
        .store (.allowlist new.allowlist) :: rest)
  | rules {fs : FileSystem} {now : Now} {cfg : Config} {new : Rebuilt X} {rest : List (Chore X)}
      (lt : inForce < loaded) (compiled : Pipeline.rebuild X fs now loaded cfg = .ok new)
      (plain : ∀ chore ∈ rest, chore.Plain) :
      Pending inForce loaded (.store (.rules new.rules) :: .store (.allowlist new.allowlist) ::
        rest)
  | allowlist (set : List BlockEntry) {rest : List (Chore X)} (le : inForce ≤ loaded)
      (plain : ∀ chore ∈ rest, chore.Plain) :
      Pending inForce loaded (.store (.allowlist set) :: rest)
  | plain {rest : List (Chore X)} (le : inForce ≤ loaded)
      (plain : ∀ chore ∈ rest, chore.Plain) : Pending inForce loaded rest

/-- The rules in force are of no later generation than those that were loaded last. -/
theorem Pending.le {inForce loaded : Nat} {chores : List (Chore X)}
    (h : Pending inForce loaded chores) : inForce ≤ loaded := by
  cases h with
  | rebuild cfg le => exact le
  | signatures lt => exact lt.le
  | rules lt => exact lt.le
  | allowlist set le => exact le
  | plain le => exact le

/-- A chore that neither compiles rules nor swaps anything in leads to such chores only, and the
number of loads stays. -/
theorem plain_act (fs : FileSystem) (feeds : Feeds) (p : Process X) {chore : Chore X}
    (h : chore.Plain) :
    (chore.act fs feeds p).1.generation = p.generation ∧
      ∀ chore' ∈ (chore.act fs feeds p).2, chore'.Plain := by
  have hnone : ∀ chore' ∈ ([] : List (Chore X)), chore'.Plain := by simp
  cases chore with
  | rebuild cfg => exact h.elim
  | store swap => exact h.elim
  | lists cfg =>
      refine ⟨rfl, ?_⟩
      simp only [Chore.act]
      cases buildBlocks X fs p.shared.now.wall cfg.reputation with
      | error e => exact hnone
      | ok set => cases X.features.remoteBlocklist <;> simp [Chore.Plain]
  | client urls set =>
      refine ⟨rfl, ?_⟩
      simp only [Chore.act]
      cases feeds.clientBuilds <;> simp [Chore.Plain]
  | fetch urls set => cases urls <;> simp [Chore.act, Chore.Plain]
  | _ => exact ⟨rfl, hnone⟩

section chores

variable {buckets : (X.moka IpAddr X.Bucket).Content → Cache.Timed IpAddr X.Bucket}
  {counts : (X.moka Str Counter).Content → Cache.Timed Str Counter} {client : IpAddr}
  (hbuckets : (X.moka IpAddr X.Bucket).ModelledBy buckets)
  (hcounts : (X.moka Str Counter).ModelledBy counts)

include hbuckets hcounts

/-- Such a chore, done on both sides, keeps the states alike and leads to the same chores. -/
theorem plain_alike {p : Process X} {t : Shared X} {generation : Nat} {chore : Chore X}
    (hplain : chore.Plain)
    (h : SharedAlike buckets counts client generation p.limiter p.shared t) (fs : FileSystem)
    (feeds : Feeds) :
    let r := chore.act fs feeds p
    let r' := chore.act fs feeds { p with shared := t }
    r.2 = r'.2 ∧ r'.1 = { r.1 with shared := r'.1.shared } ∧
      SharedAlike buckets counts client generation p.limiter r.1.shared r'.1.shared := by
  have hnow : t.now = p.shared.now := h.now.symm
  cases chore with
  | rebuild cfg => exact hplain.elim
  | store swap => exact hplain.elim
  | lists cfg =>
      simp only [Chore.act, hnow]
      exact ⟨trivial, trivial, h⟩
  | client urls set => exact ⟨rfl, rfl, h⟩
  | fetch urls set =>
      cases urls with
      | nil => exact ⟨rfl, rfl, h⟩
      | cons url urls =>
          simp only [Chore.act, hnow]
          exact ⟨trivial, trivial, h⟩
  | blocks set => exact ⟨rfl, rfl, { h with blocks := rfl }⟩
  | config cfg => exact ⟨rfl, rfl, h⟩
  | buckets => exact ⟨rfl, rfl, h.sweepBuckets hbuckets⟩
  | counters => exact ⟨rfl, rfl, h.sweepCounters hcounts⟩
  | pruneBlocks => exact ⟨rfl, rfl, h.pruneBlocks⟩
  | pruneAllowlist => exact ⟨rfl, rfl, h.pruneAllowlist⟩

/-- **A chore done on both sides**: it leads to the same chores, and to states that are the same to
the others. -/
theorem act_alike {p : Process X} {t : Shared X} {inForce : Nat} {chore : Chore X}
    {rest : List (Chore X)} (hglobal : p.limiter.cell = .global)
    (hpending : Pending inForce p.generation (chore :: rest))
    (h : SharedAlike buckets counts client inForce p.limiter p.shared t) (fs : FileSystem)
    (feeds : Feeds) :
    let r := chore.act fs feeds p
    let r' := chore.act fs feeds { p with shared := t }
    r.2 = r'.2 ∧ r'.1 = { r.1 with shared := r'.1.shared } ∧
      ∃ inForce', Pending inForce' r.1.generation (r.2 ++ rest) ∧
        SharedAlike buckets counts client inForce' p.limiter r.1.shared r'.1.shared := by
  cases hpending with
  | rebuild cfg le plain =>
      have hnow : t.now = p.shared.now := h.now.symm
      simp only [Chore.act, hnow]
      refine ⟨trivial, trivial, inForce, ?_, h⟩
      cases hnew : Pipeline.rebuild X fs p.shared.now (p.generation + 1) cfg with
      | error e => exact .plain (le.trans (Nat.le_succ _)) plain
      | ok new => exact .signatures (Nat.lt_succ_of_le le) hnew plain
  | signatures lt compiled plain =>
      exact ⟨rfl, rfl, inForce, .rules lt compiled plain, { h with signatures := rfl }⟩
  | rules lt compiled plain =>
      refine ⟨rfl, rfl, p.generation, .allowlist _ le_rfl plain, ?_⟩
      unfold Pipeline.rebuild at compiled
      obtain ⟨signatures, -, compiled⟩ := bind_ok_iff.mp compiled
      obtain ⟨defaultTz, -, compiled⟩ := bind_ok_iff.mp compiled
      obtain ⟨rules, hrules, compiled⟩ := bind_ok_iff.mp compiled
      obtain ⟨allowlist, -, compiled⟩ := bind_ok_iff.mp compiled
      obtain rfl := Except.ok.inj compiled
      exact h.storeRules lt hglobal (mapError_ok_iff.mp hrules)
  | allowlist set le plain =>
      exact ⟨rfl, rfl, inForce, .plain le plain, { h with allowlist := rfl }⟩
  | plain le plain =>
      obtain ⟨hchore, hrest⟩ := List.forall_mem_cons.1 plain
      obtain ⟨hchores, hprocess, hshared⟩ := plain_alike hbuckets hcounts hchore h fs feeds
      obtain ⟨hgeneration, hact⟩ := plain_act fs feeds p hchore
      refine ⟨hchores, hprocess, inForce, .plain (hgeneration ▸ le) ?_, hshared⟩
      intro chore' hmem
      rcases List.mem_append.1 hmem with hmem | hmem
      · exact hact chore' hmem
      · exact hrest chore' hmem

end chores

/-! ## Two services -/

namespace Service

/-- The service that takes in a client's requests and never handles them. -/
def stepWithout (client : IpAddr) (t : Service X) (h : Happening) :
    Service X × List (Nat × Note) :=
  match h with
  | .move n _ =>
    if (t.flights[n]?.map fun f => f.client.ip) = some client then (t, []) else t.step h
  | _ => t.step h

end Service

/-- Flights that are the same, or both the client's. -/
def FlightsAlike (p : Pipeline X) (client : IpAddr) (f g : Flight X) : Prop :=
  (f.client.ip ≠ client ∧ g = f ∧ f.point.About p (· ≠ client)) ∨
    (f.client.ip = client ∧ g.client.ip = client ∧ f.point.About p (· = client))

section alike

variable (buckets : (X.moka IpAddr X.Bucket).Content → Cache.Timed IpAddr X.Bucket)
  (counts : (X.moka Str Counter).Content → Cache.Timed Str Counter) (client : IpAddr)

/-- Two services that are the same to everyone but one client. -/
structure ServiceAlike (t u : Service X) : Prop where
  /-- The processes differ in the shared state only. -/
  process : u.process = { t.process with shared := u.process.shared }
  /-- The pipeline is the standard one, and shares its limiter with the supervisor. -/
  standard : ∃ geo cfg, t.process.pipeline = standard geo cfg ∧
    t.process.limiter = globalLimiter cfg.ratelimit
  /-- The supervisors are at the same point. -/
  chores : u.chores = t.chores
  /-- The shared states are alike, at a load that the chores fit. -/
  shared : ∃ inForce, Pending inForce t.process.generation t.chores ∧
    SharedAlike buckets counts client inForce t.process.limiter t.process.shared u.process.shared
  /-- There are as many flights. -/
  length : u.flights.length = t.flights.length
  /-- Each is like its counterpart. -/
  flights : ∀ (n : Nat) (f g : Flight X), t.flights[n]? = some f → u.flights[n]? = some g →
    FlightsAlike t.process.pipeline client f g

/-- It is not one of the client's flights. -/
def NotOf (n : Nat) (t : Service X) : Prop := ∀ f, t.flights[n]? = some f → f.client.ip ≠ client

end alike

section steps

variable {buckets : (X.moka IpAddr X.Bucket).Content → Cache.Timed IpAddr X.Bucket}
  {counts : (X.moka Str Counter).Content → Cache.Timed Str Counter} {client : IpAddr}

/-- A service that boots is like itself. -/
theorem ServiceAlike.of_boot {fs : FileSystem} {path : Str} {now : Now} {metrics : Metrics}
    {t : Service X} (h : Service.boot X fs path now metrics = .ok t) :
    ServiceAlike buckets counts client t t := by
  obtain ⟨cfg, geo, shared, -, hbuilt, rfl⟩ := Service.boot_ok h
  obtain ⟨_, _, _, _, _, _, -, -, -, hrules, -, -, rfl⟩ := fromConfig_ok hbuilt
  refine ⟨rfl, ⟨geo, cfg, rfl, rfl⟩, rfl, ⟨0, ?_, ?_⟩, rfl, ?_⟩
  · exact .plain le_rfl (by simp [Chore.Plain])
  · refine ⟨rfl, rfl, rfl, rfl, rfl, wired_of_load hrules rfl, .refl _, ?_, ?_⟩
    · exact fun _ _ => .refl _
    · exact fun _ _ _ => ⟨rfl, rfl⟩
  · intro n f g hf
    cases hf

/-- The supervisors take the same event. -/
theorem ServiceAlike.takes {t u : Service X} (h : ServiceAlike buckets counts client t u)
    {chores : List (Chore X)}
    (hchores : ∀ inForce, inForce ≤ t.process.generation →
      Pending inForce t.process.generation chores) :
    ServiceAlike buckets counts client (t.takes chores) (u.takes chores) := by
  unfold Service.takes
  rw [h.chores]
  cases hidle : t.chores.isEmpty with
  | false => exact h
  | true =>
      obtain ⟨inForce, hpending, hshared⟩ := h.shared
      have hle : inForce ≤ t.process.generation := hpending.le
      exact { h with chores := rfl, shared := ⟨inForce, hchores inForce hle, hshared⟩ }

/-- Services that are alike have the same flights, alike one by one. -/
theorem ServiceAlike.exists_flight {t u : Service X} (h : ServiceAlike buckets counts client t u)
    {n : Nat} {f : Flight X} (hf : t.flights[n]? = some f) :
    ∃ g, u.flights[n]? = some g ∧ FlightsAlike t.process.pipeline client f g := by
  have hlen : n < u.flights.length := by
    rw [h.length]
    exact (List.getElem?_eq_some_iff.1 hf).1
  exact ⟨_, List.getElem?_eq_getElem hlen, h.flights n f _ hf (List.getElem?_eq_getElem hlen)⟩

/-- A flight is replaced on both sides, or on the first only. -/
theorem alike_set {p : Pipeline X} {fs gs : List (Flight X)} {n : Nat} {f g : Flight X}
    (h : ∀ (k : Nat) (f g : Flight X), fs[k]? = some f → gs[k]? = some g →
      FlightsAlike p client f g)
    (hfg : FlightsAlike p client f g)
    (k : Nat) (f' g' : Flight X) (hf' : (fs.set n f)[k]? = some f')
    (hg' : (gs.set n g)[k]? = some g') : FlightsAlike p client f' g' := by
  rw [List.getElem?_set] at hf' hg'
  by_cases hk : n = k
  · rw [if_pos hk] at hf' hg'
    split at hf'
    · split at hg'
      · obtain rfl := Option.some.inj hf'
        obtain rfl := Option.some.inj hg'
        exact hfg
      · cases hg'
    · cases hf'
  · rw [if_neg hk] at hf' hg'
    exact h k f' g' hf' hg'

variable (hbuckets : (X.moka IpAddr X.Bucket).ModelledBy buckets)
  (hcounts : (X.moka Str Counter).ModelledBy counts) (htext : Function.Injective X.ipText)
  (hfree : ∀ ip, Char.ofNat 1 ∉ X.ipText ip)

include hbuckets hcounts htext hfree

/-- **One flight moves**: services that are alike stay so, and the same is seen of every other
client's flight. -/
theorem alike_move {t u : Service X} (h : ServiceAlike buckets counts client t u) (n : Nat)
    (upstream : OutRequest → UpstreamResult) :
    let r := t.step (.move n upstream)
    let r' := u.stepWithout client (.move n upstream)
    ServiceAlike buckets counts client r.1 r'.1 ∧
      ∀ k, NotOf client k r.1 → notesOf k r.2 = notesOf k r'.2 := by
  cases hf : t.flights[n]? with
  | none =>
      have hg : u.flights[n]? = none := by
        rw [List.getElem?_eq_none_iff] at hf ⊢
        exact h.length.le.trans hf
      have hstep : t.step (.move n upstream) = (t, []) := by simp only [Service.step, hf]
      have hstep' : u.stepWithout client (.move n upstream) = (u, []) := by
        simp [Service.stepWithout, Service.step, hg]
      rw [hstep, hstep']
      exact ⟨h, fun _ _ => rfl⟩
  | some f =>
      obtain ⟨g, hg, halike⟩ := h.exists_flight hf
      obtain ⟨⟨config, pipeline, limiter, s, generation⟩, metrics, chores, fs⟩ := t
      obtain ⟨process, metrics', chores', gs⟩ := u
      obtain ⟨hprocess, ⟨geo, cfg, hpipeline, hlimiter⟩, hchores, ⟨inForce, hpending, hshared⟩,
        hlength, hflights⟩ := h
      dsimp only at hpipeline hlimiter hf hg halike hflights hpending hshared hchores hlength
      subst hpipeline hlimiter hchores
      generalize process.shared = s' at hprocess hshared
      obtain rfl : process = ⟨config, standard geo cfg, globalLimiter cfg.ratelimit, s',
        generation⟩ := hprocess
      obtain ⟨hother, rfl, habout⟩ | ⟨hown, hown', habout⟩ := halike
      · have hstep : ∀ s metrics (fs : List (Flight X)), fs[n]? = some g →
            Service.stepWithout client ⟨⟨config, standard geo cfg, globalLimiter cfg.ratelimit, s,
              generation⟩, metrics, chores', fs⟩ (.move n upstream) =
            Service.step ⟨⟨config, standard geo cfg, globalLimiter cfg.ratelimit, s,
              generation⟩, metrics, chores', fs⟩ (.move n upstream) := by
          intro s metrics fs hfs
          simp [Service.stepWithout, hfs, hother]
        rw [hstep s' metrics' gs hg]
        simp only [Service.step, hf, hg]
        obtain ⟨hpoint, hnotes, habout', hshared'⟩ := move_of_other metrics metrics'
          upstream (earlyStack_agrees hbuckets geo cfg)
          (lateStack_agrees hcounts htext hfree hbuckets)
          hcounts htext hfree hother habout hshared
        have hseen : g.seen (g.move (standard geo cfg) upstream s metrics) =
            g.seen (g.move (standard geo cfg) upstream s' metrics') := by
          unfold Flight.seen
          rw [hpoint, hnotes]
        refine ⟨⟨rfl, ⟨geo, cfg, rfl, rfl⟩, rfl, ⟨inForce, hpending, hshared'⟩, ?_, ?_⟩, ?_⟩
        · simp [Service.moved, hlength]
        · refine alike_set hflights (.inl ⟨hother, ?_, habout'⟩)
          rw [hpoint]
        · intro k _
          rw [hseen]
      · have hstep' : Service.stepWithout client ⟨⟨config, standard geo cfg,
            globalLimiter cfg.ratelimit, s', generation⟩, metrics', chores', gs⟩
            (.move n upstream) = (⟨⟨config, standard geo cfg, globalLimiter cfg.ratelimit, s',
              generation⟩, metrics', chores', gs⟩, []) := by
          simp [Service.stepWithout, hg, hown']
        rw [hstep']
        simp only [Service.step, hf]
        obtain ⟨habout', hshared'⟩ := move_of_client metrics upstream
          (earlyStack_spares hbuckets geo cfg) (lateStack_spares hcounts hbuckets) hcounts hown
          habout hshared
        have hfg : FlightsAlike (standard geo cfg) client
            { f with point := (f.move (standard geo cfg) upstream s metrics).point } g :=
          .inr ⟨hown, hown', habout'⟩
        have hstay : gs.set n g = gs := by
          obtain ⟨hlen, heq⟩ := List.getElem?_eq_some_iff.1 hg
          rw [← heq, List.set_getElem_self]
        refine ⟨⟨rfl, ⟨geo, cfg, rfl, rfl⟩, rfl, ⟨inForce, hpending, hshared'⟩, ?_, ?_⟩, ?_⟩
        · simp [Service.moved, hlength]
        · intro k f' g' hf' hg'
          rw [← hstay] at hg'
          exact alike_set hflights hfg k f' g' hf' hg'
        · intro k hk
          apply notesOf_other
          rintro rfl
          refine hk { f with point := (f.move (standard geo cfg) upstream s metrics).point } ?_ hown
          exact List.getElem?_set_self (List.getElem?_eq_some_iff.1 hf).1

/-- **One happening**, with and without the client's requests, keeps the services alike, and the
same is seen of the others. -/
theorem alike_step {t u : Service X} (h : ServiceAlike buckets counts client t u) (e : Happening) :
    ServiceAlike buckets counts client (t.step e).1 (u.stepWithout client e).1 ∧
      ∀ k, NotOf client k (t.step e).1 →
        notesOf k (t.step e).2 = notesOf k (u.stepWithout client e).2 := by
  cases e with
  | move n upstream => exact alike_move hbuckets hcounts htext hfree h n upstream
  | arrive generated req peerIp =>
      refine ⟨{ h with length := ?_, flights := ?_ }, fun _ _ => rfl⟩
      · show (u.flights ++ [_]).length = (t.flights ++ [_]).length
        simp [h.length]
      · intro k f g hf hg
        have hf' : (t.flights ++ [Flight.start t.process.config generated req peerIp])[k]? =
          some f := hf
        have hg' : (u.flights ++ [Flight.start u.process.config generated req peerIp])[k]? =
          some g := hg
        rw [List.getElem?_append] at hf' hg'
        rw [h.length] at hg'
        by_cases hk : k < t.flights.length
        · rw [if_pos hk] at hf' hg'
          exact h.flights k f g hf' hg'
        · rw [if_neg hk] at hf' hg'
          obtain rfl := List.mem_singleton.1 (List.mem_of_getElem? hf')
          obtain rfl := List.mem_singleton.1 (List.mem_of_getElem? hg')
          rw [h.process]
          by_cases hip : (Flight.start (X := X) t.process.config generated req peerIp).client.ip =
            client
          · exact .inr ⟨hip, hip, trivial⟩
          · exact .inl ⟨hip, rfl, trivial⟩
  | clock now =>
      obtain ⟨inForce, hpending, hshared⟩ := h.shared
      refine ⟨{ h with process := ?_, shared := ⟨inForce, hpending, { hshared with now := rfl }⟩ },
        fun _ _ => rfl⟩
      show ({ u.process with shared := { u.process.shared with now := now } } : Process X) = _
      rw [h.process]
      rfl
  | hangup fs path =>
      refine ⟨?_, fun _ _ => rfl⟩
      show ServiceAlike buckets counts client (t.step (.hangup fs path)).1
        (u.step (.hangup fs path)).1
      simp only [Service.step]
      cases Config.load X fs path with
      | error e => exact h
      | ok cfg =>
          exact h.takes fun inForce le => .rebuild cfg le (by simp [Chore.Plain])
  | refresh =>
      refine ⟨?_, fun _ _ => rfl⟩
      show ServiceAlike buckets counts client (t.takes [.lists t.process.config])
        (u.takes [.lists u.process.config])
      rw [show u.process.config = t.process.config by rw [h.process]]
      exact h.takes fun inForce le => .plain le (by simp [Chore.Plain])
  | maintenance =>
      refine ⟨?_, fun _ _ => rfl⟩
      exact h.takes fun inForce le => .plain le (by simp [maintenanceChores, Chore.Plain])
  | supervise fs feeds =>
      refine ⟨?_, fun _ _ => rfl⟩
      show ServiceAlike buckets counts client (t.supervised fs feeds) (u.supervised fs feeds)
      unfold Service.supervised
      rw [h.chores]
      cases hchores : t.chores with
      | nil => exact h
      | cons chore rest =>
          obtain ⟨hprocess, ⟨geo, cfg, hpipeline, hlimiter⟩, -, ⟨inForce, hpending, hshared⟩,
            hlength, hflights⟩ := h
          rw [hchores] at hpending
          have hglobal : t.process.limiter.cell = .global := by rw [hlimiter]; rfl
          obtain ⟨hact, hprocess', inForce', hpending', hshared'⟩ :=
            act_alike hbuckets hcounts hglobal hpending hshared fs feeds
          rw [← hprocess] at hact hprocess' hshared'
          obtain ⟨hpipeline', hlimiter'⟩ := Service.act_pipeline fs feeds t.process chore
          refine ⟨hprocess', ⟨geo, cfg, hpipeline'.trans hpipeline, hlimiter'.trans hlimiter⟩, ?_,
            ⟨inForce', hpending', ?_⟩, hlength, ?_⟩
          · show _ ++ rest = _ ++ rest
            rw [hact]
          · show SharedAlike _ _ _ _ (chore.act fs feeds t.process).1.limiter _ _
            rw [hlimiter']
            exact hshared'
          · intro n f g hf hg
            show FlightsAlike (chore.act fs feeds t.process).1.pipeline client f g
            rw [hpipeline']
            exact hflights n f g hf hg

/-- **Flights do not meet.** From the boot on, in every interleaving of requests with each other,
with reloads, refreshes, maintenance and the clock: a request that is not the client's is handled
step by step, sent and answered as if the client's requests had never been handled. -/
theorem flights_do_not_meet {fs : FileSystem} {path : Str} {now : Now} {metrics : Metrics}
    {t : Service X} (hboot : Service.boot X fs path now metrics = .ok t) (client : IpAddr)
    (hs : List Happening) {n : Nat} {f : Flight X}
    (hf : (run Service.step t hs).1.flights[n]? = some f) (hother : f.client.ip ≠ client) :
    (run (Service.stepWithout client) t hs).1.flights[n]? = some f ∧
      notesOf n (run Service.step t hs).2 =
        notesOf n (run (Service.stepWithout client) t hs).2 := by
  have hrun : ServiceAlike buckets counts client (run Service.step t hs).1
        (run (Service.stepWithout client) t hs).1 ∧
      ∀ k, NotOf client k (run Service.step t hs).1 → notesOf k (run Service.step t hs).2 =
        notesOf k (run (Service.stepWithout client) t hs).2 := by
    refine run_histories (I := fun (a : Service X) log b log' =>
      ServiceAlike buckets counts client a b ∧
        ∀ k, NotOf client k a → notesOf k log = notesOf k log')
      ⟨ServiceAlike.of_boot hboot, fun _ _ => rfl⟩ ?_ hs
    rintro a log b log' e ⟨halike, hlogs⟩
    obtain ⟨hnext, hnotes⟩ := alike_step hbuckets hcounts htext hfree halike e
    refine ⟨hnext, fun k hk => ?_⟩
    rw [notesOf_append, notesOf_append, hnotes k hk, hlogs k]
    intro f hf
    obtain ⟨point, hpoint⟩ := a.step_keeps e hf
    exact hk { f with point := point } hpoint
  obtain ⟨halike, hlogs⟩ := hrun
  obtain ⟨g, hg, ⟨-, rfl, -⟩ | ⟨hown, -⟩⟩ := halike.exists_flight hf
  · refine ⟨hg, hlogs n ?_⟩
    intro f' hf'
    rw [hf] at hf'
    obtain rfl := Option.some.inj hf'
    exact hother
  · exact absurd hown hother

end steps

/-! ## Two logins -/

/-- Another client logs in. -/
def otherArrives : Happening := .arrive "id-2" loginRequest (.v4 0xC6336401#32)

/-- Two logins, step by step in turn, the second client's among the first one's. -/
theorem flights_do_not_meet_login :
    let hs := [loginArrives, otherArrives] ++
      (List.replicate 14 [.move 0 loginUpstream, .move 1 loginUpstream]).flatten
    ∃ f, (run Service.step loginService hs).1.flights[1]? = some f ∧
      (run (Service.stepWithout (.v4 0xC0000207#32)) loginService hs).1.flights[1]? = some f ∧
      notesOf 1 (run Service.step loginService hs).2 =
        notesOf 1 (run (Service.stepWithout (.v4 0xC0000207#32)) loginService hs).2 := by
  intro hs
  have hthere : ((run Service.step loginService hs).1.flights[1]?.map fun f => f.client.ip) =
      some (.v4 0xC6336401#32) := by decide +kernel
  obtain ⟨f, hf, hip⟩ := Option.map_eq_some_iff.1 hthere
  have hother : f.client.ip ≠ .v4 0xC0000207#32 := by
    rw [hip]
    decide
  exact ⟨f, hf, flights_do_not_meet .self .self Plain.ipText_injective
    Plain.separator_not_mem_ipText boot_login _ hs hf hother⟩

end BuduWaf.Traffic
