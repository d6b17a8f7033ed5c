import BuduWaf.Lib.Split
import BuduWaf.Traffic.Accounts
import BuduWaf.Traffic.Handles

/-!
# `budu`: where requests are sent

A request names a path and a query; where it goes to is for the configuration to say, and that may
change while the request is under way.

* **`Flight.asked`**: the request the upstream is asked for a call of `forward`.
* **`UpstreamNamed`**: a valid configuration names an upstream.
* **`sent_to_upstream`**: whatever is sent goes to the upstream of a configuration that was read,
  the one in force when the request arrived, with the method, path and query of the request.

The configuration a request was taken in under is part of its flight, so a reload does not move a
request to another upstream. A configuration in force was read and validated, at boot or by a hangup
of the run, and validation asks for an upstream with scheme and authority; the rest of the target is
the request's own.
-/

namespace BuduWaf.Traffic

open Rules RateLimit Reputation Pipeline Proxy Supervisor

variable {X : Crates}

/-- What the upstream is asked.
Source: `budu-proxy/src/lib.rs` `Proxy::forward` (`let out`) -/
def Flight.asked (f : Flight X) (call : ForwardCall) : Except Str OutRequest :=
  (rewriteUri X f.cfg.server.upstream call.parts.uri).map fun uri =>
    ⟨⟨call.parts.method, uri, sanitizeForwardHeaders call.parts.headers call.bufferedLen⟩,
      call.body⟩

variable (X) in
/-- A URI that is built has the parts it was built from. -/
def BuildsParts : Prop :=
  ∀ scheme authority pathAndQuery uri, X.uriBuild scheme authority pathAndQuery = .ok uri →
    uri.scheme = scheme ∧ uri.authority = some authority ∧ uri.pathAndQuery = pathAndQuery

/-- The upstream is an HTTP server with an authority, which a valid configuration guarantees. -/
def UpstreamNamed (cfg : Config) : Prop :=
  (cfg.server.upstream.scheme = some "http" ∨ cfg.server.upstream.scheme = some "https") ∧
    cfg.server.upstream.authority.isSome = true

/-- A configuration that is accepted names an upstream with scheme and authority. -/
theorem upstreamNamed_of_validate {ipText : IpAddr → Str} {cfg : Config}
    (h : cfg.validate ipText = .ok ()) : UpstreamNamed cfg := by
  unfold Config.validate at h
  obtain ⟨hscheme, h⟩ := refuse_ok_iff.mp h
  obtain ⟨hauthority, -⟩ := refuse_ok_iff.mp h
  constructor
  · by_contra hnone
    exact hscheme (not_or.1 hnone)
  · rw [← Option.not_isNone]
    exact Bool.not_eq_true' _ ▸ eq_false_of_ne_true hauthority

/-- The path and query of a URI, `/` where there are none. -/
def Uri.target (u : Uri) : Str :=
  if u.pathAndQuery.isEmpty then "/" else u.pathAndQuery

/-- **What is asked of a named upstream**: it is the upstream, and the path and query are those
that came in. -/
theorem asked_of_named (hbuild : BuildsParts X) {f : Flight X} (hnamed : UpstreamNamed f.cfg)
    (body : RespBody) (len : Option Nat) :
    f.asked (f.callWith body len) ≠ .error "upstream has no authority" ∧
      ∀ out, f.asked (f.callWith body len) = .ok out →
        out.parts.uri.scheme = f.cfg.server.upstream.scheme ∧
          out.parts.uri.authority = f.cfg.server.upstream.authority ∧
          out.parts.uri.pathAndQuery = Uri.target f.req.parts.uri ∧
          out.parts.method = f.req.parts.method ∧ out.body = body := by
  obtain ⟨authority, hauthority⟩ := Option.isSome_iff_exists.1 hnamed.2
  have hasked : f.asked (f.callWith body len) =
      ((X.uriBuild f.cfg.server.upstream.scheme authority (Uri.target f.req.parts.uri)).mapError
        (("building upstream uri: " : Str) ++ ·)).map fun uri =>
          ⟨⟨f.req.parts.method, uri,
              sanitizeForwardHeaders (f.callWith body len).parts.headers len⟩,
            body⟩ := by
    unfold Flight.asked rewriteUri
    rw [hauthority]
    rfl
  rw [hasked]
  generalize hbuilt : X.uriBuild f.cfg.server.upstream.scheme authority
    (Uri.target f.req.parts.uri) = built
  cases built with
  | error e =>
      refine ⟨?_, fun out hout => by cases hout⟩
      intro heq
      have hmsg : ("building upstream uri: " : Str) ++ e = "upstream has no authority" :=
        Except.error.inj heq
      cases congrArg List.head? hmsg
  | ok uri =>
      obtain ⟨hscheme, hhost, htarget⟩ := hbuild _ _ _ _ hbuilt
      refine ⟨(by rintro ⟨⟩), ?_⟩
      intro out hout
      obtain rfl := Except.ok.inj hout
      exact ⟨hscheme, hhost.trans hauthority.symm, htarget, rfl, rfl⟩

/-- The result of a call depends on the upstream at the one request that is asked of it. -/
theorem forwardResult_congr {σ : Type} {f : Flight X} {call : ForwardCall} {env env' : Env σ}
    (h : ∀ out, f.asked call = .ok out → env.upstream out = env'.upstream out) :
    forwardResult X f.cfg env call = forwardResult X f.cfg env' call := by
  unfold forwardResult
  unfold Flight.asked at h
  rcases hbuilt : rewriteUri X f.cfg.server.upstream call.parts.uri with e | uri
  · rfl
  · rw [hbuilt] at h
    dsimp only
    rw [h _ rfl]

/-! ## Every run -/

/-- A configuration that was read: the one the service booted with, or that of a reload. -/
def WasRead (t : Service X) (hs : List Happening) (cfg : Config) : Prop :=
  cfg = t.process.config ∨
    ∃ fs path, .hangup fs path ∈ hs ∧ Config.load X fs path = .ok cfg

/-- Flights are taken in under such configurations. -/
theorem run_wasRead {t : Service X} (hs : List Happening) (hflights : t.flights = [])
    (hchores : t.chores = [.lists t.process.config]) :
    ∀ f ∈ (run Service.step t hs).1.flights, WasRead t hs f.cfg := by
  have hrun : (run Service.step t hs).1.Configured (WasRead t hs) ∧
      ∀ f ∈ (run Service.step t hs).1.flights, WasRead t hs f.cfg := by
    refine run_keeps (P := fun u : Service X => u.Configured (WasRead t hs) ∧
      ∀ f ∈ u.flights, WasRead t hs f.cfg) ?_ ⟨⟨.inl rfl, ?_⟩, ?_⟩
    · rintro u h hmem ⟨hconfigured, hall⟩
      refine ⟨Service.configured_step ?_ hconfigured, Service.flights_configured hconfigured hall⟩
      rintro fs path cfg rfl hload
      exact .inr ⟨fs, path, hmem, hload⟩
    · rw [hchores]
      intro chore hchore cfg hcfg
      obtain rfl := List.mem_singleton.1 hchore
      obtain rfl := Option.some.inj hcfg
      exact .inl rfl
    · rw [hflights]
      exact fun f hf => absurd hf List.not_mem_nil
  exact hrun.2

/-- **Requests go to the configured upstream.** From the boot on, in every interleaving: for every
call of `forward`, what the upstream is asked goes to the HTTP server that a configuration names,
the one in force when the request arrived, with the method, path and query that came in and the
body of the call; it is asked nothing else, and the failure of an upstream without a host never
happens. -/
theorem sent_to_upstream (hbuild : BuildsParts X) {fs : FileSystem} {path : Str} {now : Now}
    {metrics : Metrics} {t : Service X} (hboot : Service.boot X fs path now metrics = .ok t)
    (hs : List Happening) {n : Nat} {call : ForwardCall}
    (hsent : (n, .sent call) ∈ (run Service.step t hs).2) :
    ∃ f, (run Service.step t hs).1.flights[n]? = some f ∧ WasRead t hs f.cfg ∧
      UpstreamNamed f.cfg ∧ f.asked call ≠ .error "upstream has no authority" ∧
      (∀ out, f.asked call = .ok out →
        out.parts.uri.scheme = f.cfg.server.upstream.scheme ∧
          out.parts.uri.authority = f.cfg.server.upstream.authority ∧
          out.parts.uri.pathAndQuery = Uri.target f.req.parts.uri ∧
          out.parts.method = f.req.parts.method ∧ out.body = call.body) ∧
      ∀ upstream upstream', (∀ out, f.asked call = .ok out → upstream out = upstream' out) →
        forwardResult X f.cfg (quietEnv (X := X) upstream) call =
          forwardResult X f.cfg (quietEnv (X := X) upstream') call := by
  obtain ⟨hflights, hchores, hvalid⟩ : t.flights = [] ∧ t.chores = [.lists t.process.config] ∧
      t.process.config.validate X.ipText = .ok () := by
    obtain ⟨cfg, geo, shared, hload, -, rfl⟩ := Service.boot_ok hboot
    exact ⟨rfl, rfl, validate_of_load hload⟩
  obtain ⟨f, inspected, body, len, before, rest, hf, -, -, rfl⟩ := sent_was_admitted hflights hsent
  have hread : WasRead t hs f.cfg :=
    run_wasRead hs hflights hchores f (List.mem_of_getElem? hf)
  have hnamed : UpstreamNamed f.cfg := by
    obtain hcfg | ⟨fs', path', -, hload⟩ := hread
    · rw [hcfg]
      exact upstreamNamed_of_validate hvalid
    · exact upstreamNamed_of_validate (validate_of_load hload)
  obtain ⟨hnever, hasked⟩ := asked_of_named hbuild hnamed body len
  refine ⟨f, hf, hread, hnamed, hnever, hasked, ?_⟩
  intro upstream upstream' hsame
  exact forwardResult_congr hsame

/-! ## A login -/

/-- The request builder of a plain build keeps the parts it is given. -/
theorem plain_buildsParts (features : Features) (readers : Readers) :
    BuildsParts (.plain features readers) := by
  intro scheme authority pathAndQuery uri h
  cases hsplit : Str.splitOnce '?' pathAndQuery with
  | none =>
      simp only [Crates.plain, hsplit] at h
      obtain rfl := Except.ok.inj h
      exact ⟨rfl, rfl, rfl⟩
  | some parts =>
      obtain ⟨before, after⟩ := parts
      simp only [Crates.plain, hsplit] at h
      obtain rfl := Except.ok.inj h
      obtain ⟨hparts, -⟩ := Str.splitOnce_eq_some_iff.1 hsplit
      exact ⟨rfl, rfl, hparts.symm⟩

/-- The login, sent while the first refresh of the blocklist is done. -/
theorem sent_to_upstream_login :
    ∃ f, (run Service.step loginService loginRun).1.flights[0]? = some f ∧
      WasRead loginService loginRun f.cfg ∧ UpstreamNamed f.cfg ∧
      f.asked loginCall ≠ .error "upstream has no authority" ∧
      (∀ out, f.asked loginCall = .ok out →
        out.parts.uri.scheme = f.cfg.server.upstream.scheme ∧
          out.parts.uri.authority = f.cfg.server.upstream.authority ∧
          out.parts.uri.pathAndQuery = Uri.target f.req.parts.uri ∧
          out.parts.method = f.req.parts.method ∧ out.body = loginCall.body) ∧
      ∀ upstream upstream', (∀ out, f.asked loginCall = .ok out → upstream out = upstream' out) →
        forwardResult Supervisor.loginBuild f.cfg
            (quietEnv (X := Supervisor.loginBuild) upstream) loginCall =
          forwardResult Supervisor.loginBuild f.cfg
            (quietEnv (X := Supervisor.loginBuild) upstream') loginCall := by
  have hbuild : BuildsParts Supervisor.loginBuild := plain_buildsParts .none loginReaders
  exact sent_to_upstream hbuild boot_login loginRun login_sent

end BuduWaf.Traffic
