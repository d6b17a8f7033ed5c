import BuduWaf.Pipeline.Reload

/-!
# `budu`: the supervised process

* **`Process`**: the configuration in force, the pipeline, and the state they share with the
  supervisor. `start` is the way to the supervisor's loop; **`sighup`**, **`blocklistRefresh`** and
  **`maintenance`** are the loop's branches.
* **`reload_atomic_iff`**: a reload leaves all five components new or all five as they were,
  exactly if both rebuilding calls succeed, or if whatever was replaced was replaced by what was
  there. The configuration is stored whether or not the calls succeeded.

The five components are what a request can see of a reload: configuration, rules, signatures,
allowlist and blocklist. The two rebuilding calls may each fail, which makes four cases, and in each
of them what is new afterwards is read off (`components_sighup`). Storing the configuration is in
none of the branches.
-/

namespace BuduWaf

open Rules RateLimit Signatures Reputation Pipeline

namespace Supervisor

/-! ## The process -/

/-- The running process: its handles, and what the supervisor holds. -/
structure Process (X : Crates) where
  /-- The configuration handle. -/
  config : Config
  /-- The pipeline; built once. -/
  pipeline : Pipeline X
  /-- The supervisor's handle on the global limiter. -/
  limiter : IpRateLimiter
  /-- What the pipeline and the supervisor share. -/
  shared : Shared X
  /-- How many reloads were tried: the number of the rule set's load. -/
  generation : Nat

variable (X : Crates)

/-- Why the process does not start: for its configuration, or for what that names. -/
inductive StartError where
  | config (e : ConfigError)
  | build (e : BuildError)

/-- Load the configuration, build the pipeline, and fetch the blocklist once; a failure of that
last step is only logged.
Source: `budu/src/main.rs` `run`, `supervise` (before the loop) -/
def start (fs : FileSystem) (feeds : Feeds) (path : Str) (now : Now) :
    Except StartError (Process X) := do
  let cfg ← (Config.load X fs path).mapError .config
  let (pipeline, shared) ← (fromConfig X fs now cfg).mapError .build
  return ⟨cfg, pipeline, globalLimiter cfg.ratelimit, (refreshBlocklist fs feeds cfg shared).2, 0⟩

variable {X}

/-- Reload: each of the two calls keeps what it had if it fails, and the configuration is stored
in any case.
Source: `budu/src/main.rs` `supervise` (the `sighup.recv()` branch) -/
def sighup (fs : FileSystem) (feeds : Feeds) (path : Str) (p : Process X) : Process X :=
  match Config.load X fs path with
  | .error _ => p
  | .ok cfg =>
    let applied := (apply fs (p.generation + 1) cfg p.shared).2
    let refreshed := (refreshBlocklist fs feeds cfg applied).2
    { p with config := cfg, shared := refreshed, generation := p.generation + 1 }

/-- Refresh the blocklist from the configuration in force.
Source: `budu/src/main.rs` `supervise` (the `blocklist_refresh` branch) -/
def blocklistRefresh (fs : FileSystem) (feeds : Feeds) (p : Process X) : Process X :=
  { p with shared := (refreshBlocklist fs feeds p.config p.shared).2 }

/-- Collect garbage.
Source: `budu/src/main.rs` `supervise` (the `maintenance.tick()` branch) -/
def maintenance (p : Process X) : Process X :=
  { p with shared := runMaintenance p.limiter p.shared }

/-! ## All or nothing -/

/-- The five components a reload is about. -/
structure Components (X : Crates) where
  /-- The configuration. -/
  config : Config
  /-- Signatures, rules and allowlist. -/
  rebuilt : Rebuilt X
  /-- The blocklist. -/
  blocks : List BlockEntry

/-- The components in force, each of which a reload may replace: configuration, signatures, rules,
allowlist and blocklist. -/
def Process.components (p : Process X) : Components X :=
  ⟨p.config, ⟨p.shared.signatures, p.shared.rules, p.shared.allowlist⟩, p.shared.blocks⟩

/-- The configuration is one of the components. -/
@[simp] theorem components_config (p : Process X) : p.components.config = p.config := rfl

/-- All components are what the new configuration makes them. -/
def Components.AllNew (c : Components X) (fs : FileSystem) (feeds : Feeds) (now : Now)
    (generation : Nat) (cfg : Config) : Prop :=
  c.config = cfg ∧ rebuild X fs now generation cfg = .ok c.rebuilt ∧
    rebuildBlocks X fs feeds now cfg = .ok c.blocks

/-- After the reload branch all components are new, or all are what they were. -/
def AllOrNothing (fs : FileSystem) (feeds : Feeds) (path : Str) (cfg : Config) (p : Process X) :
    Prop :=
  (sighup fs feeds path p).components.AllNew fs feeds p.shared.now (p.generation + 1) cfg ∨
    (sighup fs feeds path p).components = p.components

/-- Both rebuilding calls of a reload succeed on these files. -/
def BothSucceed (fs : FileSystem) (feeds : Feeds) (cfg : Config) (p : Process X) : Prop :=
  (∃ new, rebuild X fs p.shared.now (p.generation + 1) cfg = .ok new) ∧
    ∃ blocks, rebuildBlocks X fs feeds p.shared.now cfg = .ok blocks

/-- The new configuration is the running one, and what can be rebuilt from it is what runs. -/
def NothingToChange (fs : FileSystem) (feeds : Feeds) (cfg : Config) (p : Process X) : Prop :=
  cfg = p.config ∧
    (∀ new, rebuild X fs p.shared.now (p.generation + 1) cfg = .ok new →
      new = p.components.rebuilt) ∧
    ∀ blocks, rebuildBlocks X fs feeds p.shared.now cfg = .ok blocks →
      blocks = p.components.blocks

/-- The components after the reload branch, for each outcome of the two calls. -/
theorem components_sighup {fs : FileSystem} {path : Str} {cfg : Config}
    (hload : Config.load X fs path = .ok cfg) (feeds : Feeds) (p : Process X) :
    (sighup fs feeds path p).components =
      { config := cfg
        rebuilt := match rebuild X fs p.shared.now (p.generation + 1) cfg with
          | .ok new => new
          | .error _ => p.components.rebuilt
        blocks := match rebuildBlocks X fs feeds p.shared.now cfg with
          | .ok blocks => blocks
          | .error _ => p.components.blocks } := by
  unfold sighup
  simp only [hload]
  cases hnew : rebuild X fs p.shared.now (p.generation + 1) cfg with
  | error e =>
      rw [apply_of_error hnew]
      cases hblocks : rebuildBlocks X fs feeds p.shared.now cfg with
      | error e' => rw [refreshBlocklist_of_error hblocks]; rfl
      | ok set => rw [refreshBlocklist_of_ok hblocks]; rfl
  | ok new =>
      rw [apply_of_ok hnew]
      have hnow : (new.swapIn p.shared).now = p.shared.now := rfl
      cases hblocks : rebuildBlocks X fs feeds p.shared.now cfg with
      | error e' => rw [refreshBlocklist_of_error (hnow ▸ hblocks)]; rfl
      | ok set => rw [refreshBlocklist_of_ok (hnow ▸ hblocks)]; rfl

/-- **A reload is all-or-nothing** exactly if both rebuilding calls succeed, or the configuration
and everything that could be rebuilt equal what is running. -/
theorem reload_atomic_iff {fs : FileSystem} {path : Str} {cfg : Config}
    (hload : Config.load X fs path = .ok cfg) (feeds : Feeds) (p : Process X) :
    AllOrNothing fs feeds path cfg p ↔
      BothSucceed fs feeds cfg p ∨ NothingToChange fs feeds cfg p := by
  unfold AllOrNothing Components.AllNew BothSucceed NothingToChange
  rw [components_sighup hload]
  cases rebuild X fs p.shared.now (p.generation + 1) cfg with
  | error e =>
      cases rebuildBlocks X fs feeds p.shared.now cfg with
      | error e' => simp [Process.components]
      | ok blocks => simp [Process.components]
  | ok new =>
      cases rebuildBlocks X fs feeds p.shared.now cfg with
      | error e' => simp [Process.components]
      | ok blocks => simp

/-! ## A broken rule file -/

/-- A rule file that is no TOML: a bracket is missing. -/
def brokenRules : Str := unlines ["[[rule]"]

/-- The configuration file with a rule file added. -/
def tomlWithRules : Str := minimalToml ++ unlines ["[paths]", "rules = \"rules.toml\""]

/-- What these files read as: the configurations without and with a rule file, which does not
parse. -/
def brokenReaders : Readers where
  config text :=
    if text = minimalToml then .ok Config.minimal
    else .ok { Config.minimal with paths := ⟨"rules.toml", []⟩ }
  rules _ := .error "expected `]]`"
  signatures _ := .error "not read here"
  json _ := none

/-- A plain build that reads these files. -/
def brokenBuild : Crates := .plain .none brokenReaders

/-- The files before and after the administrator adds the rule file. -/
def brokenFiles (edited : Bool) : FileSystem where
  read path :=
    if path = ("budu.toml" : Str) then
      .ok (Str.utf8 (if edited then tomlWithRules else minimalToml))
    else if path = ("rules.toml" : Str) ∧ edited then .ok (Str.utf8 brokenRules)
    else .error "no such file"

/-- Feeds of which none answers. -/
def noFeeds : Feeds := ⟨true, fun _ => none⟩

/-- The process that was started before the edit. -/
def brokenProcess : Process brokenBuild :=
  (start brokenBuild (brokenFiles false) noFeeds "budu.toml" ⟨0, 0⟩).toOption.get
    (by decide +kernel)

/-- The configuration after the edit, which names the rule file. -/
def brokenConfig : Config := { Config.minimal with paths := ⟨"rules.toml", []⟩ }

/-- The configuration of the example loads, though its rules do not. -/
theorem load_brokenConfig :
    Config.load brokenBuild (brokenFiles true) "budu.toml" = .ok brokenConfig := by
  have hparse : brokenBuild.tomlConfig tomlWithRules = .ok brokenConfig := by decide +kernel
  have hvalid : brokenConfig.validate brokenBuild.ipText = .ok () := by decide +kernel
  exact Config.load_of_text rfl hparse hvalid

/-- The new configuration file loads, so the equivalence applies to it. -/
theorem reload_atomic_iff_broken_rules :
    AllOrNothing (brokenFiles true) noFeeds "budu.toml" brokenConfig brokenProcess ↔
      BothSucceed (brokenFiles true) noFeeds brokenConfig brokenProcess ∨
        NothingToChange (brokenFiles true) noFeeds brokenConfig brokenProcess :=
  reload_atomic_iff load_brokenConfig noFeeds brokenProcess

/-- The new configuration is in force and the rules it names are not. -/
theorem reload_not_atomic_broken_rules :
    Config.load brokenBuild (brokenFiles true) "budu.toml" = .ok brokenConfig ∧
      ¬ AllOrNothing (brokenFiles true) noFeeds "budu.toml" brokenConfig brokenProcess := by
  refine ⟨load_brokenConfig, ?_⟩
  rintro (⟨-, hrules, -⟩ | hsame)
  · have hfails : (rebuild brokenBuild (brokenFiles true) brokenProcess.shared.now
        (brokenProcess.generation + 1) brokenConfig).isOk = false := by decide +kernel
    rw [hrules] at hfails
    cases hfails
  · have hconfig : brokenConfig ≠ brokenProcess.config := by decide +kernel
    have hkept := congrArg Components.config hsame
    rw [components_sighup load_brokenConfig, components_config] at hkept
    exact hconfig hkept

end Supervisor

end BuduWaf
