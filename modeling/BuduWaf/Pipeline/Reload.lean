import BuduWaf.Lib.Runs
import BuduWaf.Pipeline.Standard
import BuduWaf.Plain

/-!
# `budu-pipeline`: reloading under traffic

* **`rebuild`** compiles everything `apply` swaps in, **`Rebuilt.stores`** are the swaps, one a
  handle, in the code's order, and **`apply`** does the one and then the other.
* **`refreshBlocklist`**, **`runMaintenance`**: the other two operations on the handles.
* **A request during a reload** (`underReload`): the late stages and the swaps in any merge of
  their orders. A stage is one step: it loads its handle and works on what it loaded, and the
  swaps touch nothing else it uses.
* **`no_gap_iff`**: a request that the old and the new generation both block is blocked in
  every merge exactly if the old rules block it or the new signatures match it. The one mixed
  generation a request can meet is old rules with new signatures.

Everything that can fail is done before the first swap, so a reload either makes all its swaps or
none. A request that is in its late stages loads two of the swapped handles, in a fixed order; a
merge is therefore determined by two numbers, how many swaps were made before each of the two loads
(`ReloadMerge.split`), and the first is not greater than the second. As the signatures are swapped
before the rules, that leaves three mixtures (`underReload_mixture`).
-/

namespace BuduWaf.Pipeline

open Rules RateLimit Signatures Reputation

variable {X : Crates}

/-! ## The supervisor's operations -/

variable (X) in
/-- One `ArcSwap::store` on a handle of the pipeline. -/
inductive Store where
  | signatures (db : SignatureDb X)
  | rules (rules : RuleSet X)
  | allowlist (set : List BlockEntry)

/-- The shared state after one swap: the other parts stay as they are. -/
def Store.write : Store X → Shared X → Shared X
  | .signatures db, s => { s with signatures := db }
  | .rules rs, s => { s with rules := rs }
  | .allowlist set, s => { s with allowlist := set }

variable (X) in
/-- What a reload swaps in, built before the first swap. -/
structure Rebuilt where
  /-- The new signatures. -/
  signatures : SignatureDb X
  /-- The new rules. -/
  rules : RuleSet X
  /-- The new allowlist. -/
  allowlist : List BlockEntry

/-- The swaps of a reload, in order.
Source: `budu-pipeline/src/lib.rs` `Reloadable::apply` -/
def Rebuilt.stores (new : Rebuilt X) : List (Store X) :=
  [.signatures new.signatures, .rules new.rules, .allowlist new.allowlist]

/-- The shared state once some of the swaps were made, in their order. -/
def writeAll (stores : List (Store X)) (s : Shared X) : Shared X :=
  stores.foldl (fun s store => store.write s) s

/-- The state once all swaps of a reload were made. -/
def Rebuilt.swapIn (new : Rebuilt X) (s : Shared X) : Shared X := writeAll new.stores s

variable (X) in
/-- Compile what a reload swaps in; the rules are those of load number `generation`.
Source: `budu-pipeline/src/lib.rs` `Reloadable::apply` -/
def rebuild (fs : FileSystem) (now : Now) (generation : Nat) (cfg : Config) :
    Except BuildError (Rebuilt X) := do
  let signatures ← (SignatureDb.load X fs cfg.paths.signatures).mapError .signatures
  let defaultTz ← parseDefaultTz X cfg.server.timezone
  let rules ←
    (RuleSet.load X fs cfg.paths.rules cfg.scoring defaultTz generation).mapError .rules
  let allowlist ← (buildAllowlist X fs now.wall cfg.reputation).mapError .list
  return ⟨signatures, rules, allowlist⟩

/-- Recompile and swap; on an error nothing is swapped.
Source: `budu-pipeline/src/lib.rs` `Reloadable::apply` -/
def apply (fs : FileSystem) (generation : Nat) (cfg : Config) (s : Shared X) :
    Except BuildError Unit × Shared X :=
  match rebuild X fs s.now generation cfg with
  | .error e => (.error e, s)
  | .ok new => (.ok (), new.swapIn s)

variable (X) in
/-- The blocklist of a configuration: inline and file, then the feeds in a build that has them.
Source: `budu-pipeline/src/lib.rs` `Reloadable::refresh_blocklist` -/
def rebuildBlocks (fs : FileSystem) (feeds : Feeds) (now : Now) (cfg : Config) :
    Except BuildError (List BlockEntry) := do
  let blocks ← (buildBlocks X fs now.wall cfg.reputation).mapError .list
  return if X.features.remoteBlocklist then
      blocks ++ fetchBlocklistUrls X feeds now.wall cfg.reputation.blocklistUrls
    else blocks

/-- Rebuild the blocklist and swap it in; on an error nothing is swapped.
Source: `budu-pipeline/src/lib.rs` `Reloadable::refresh_blocklist` -/
def refreshBlocklist (fs : FileSystem) (feeds : Feeds) (cfg : Config) (s : Shared X) :
    Except BuildError Unit × Shared X :=
  match rebuildBlocks X fs feeds s.now cfg with
  | .error e => (.error e, s)
  | .ok blocks => (.ok (), { s with blocks := blocks })

section unfold

variable {fs : FileSystem} {feeds : Feeds} {generation : Nat} {cfg : Config} {s : Shared X}

/-- Where all parts are rebuilt, `apply` swaps all of them in. -/
theorem apply_of_ok {new : Rebuilt X} (h : rebuild X fs s.now generation cfg = .ok new) :
    apply fs generation cfg s = (.ok (), new.swapIn s) := by
  simp only [apply, h]

/-- Where some part is not rebuilt, `apply` leaves the state and fails. -/
theorem apply_of_error {e : BuildError} (h : rebuild X fs s.now generation cfg = .error e) :
    apply fs generation cfg s = (.error e, s) := by
  simp only [apply, h]

/-- Where the blocklist is rebuilt, it is swapped in. -/
theorem refreshBlocklist_of_ok {set : List BlockEntry}
    (h : rebuildBlocks X fs feeds s.now cfg = .ok set) :
    refreshBlocklist fs feeds cfg s = (.ok (), { s with blocks := set }) := by
  simp only [refreshBlocklist, h]

/-- Where the blocklist is not rebuilt, the state stays. -/
theorem refreshBlocklist_of_error {e : BuildError}
    (h : rebuildBlocks X fs feeds s.now cfg = .error e) :
    refreshBlocklist fs feeds cfg s = (.error e, s) := by
  simp only [refreshBlocklist, h]

end unfold

/-- Garbage collection of the buckets, the counters and the timed list entries.
Source: `budu-pipeline/src/lib.rs` `Reloadable::run_maintenance` -/
def runMaintenance (limiter : IpRateLimiter) (s : Shared X) : Shared X :=
  { s with
    limiters := s.limiters.set limiter.cell
      ((X.moka IpAddr X.Bucket).runPendingTasks (limiter.buckets s.limiters) s.now.mono)
    counters := (X.moka Str Counter).runPendingTasks s.counters s.now.mono
    blocks := pruneExpired s.blocks s.now.wall
    allowlist := pruneExpired s.allowlist s.now.wall }

/-! ## A request during a reload -/

variable (X) in
/-- One atomic step while a request is in the late stages. -/
inductive ReloadStep where
  | store (store : Store X)
  | stage (stage : Stage (World X))

variable (X) in
/-- The request's decision so far, its context with the shared state, and the panics logged. -/
abbrev InFlight := Option WafDecision × (World X × List Str)

/-- One step; the stages after a decision are not run. -/
def ReloadStep.exec (onError : OnError) (r : InFlight X) : ReloadStep X → InFlight X
  | .store swap => (r.1, (r.2.1.1, swap.write r.2.1.2), r.2.2)
  | .stage stg =>
    match r.1 with
    | some _ => r
    | none => stageStep onError stg r.2

/-- The decision of a request whose late stages ran in the midst of the given steps. -/
def underReload (onError : OnError) (steps : List (ReloadStep X)) (ctx : RequestCtx)
    (s : Shared X) : WafDecision :=
  (steps.foldl (ReloadStep.exec onError) (none, ((ctx, s), []))).1.getD .allow

/-- The decision of the late stages with no reload in between. -/
def lateDecision (onError : OnError) (ctx : RequestCtx) (s : Shared X) : WafDecision :=
  (runStages onError lateStack (ctx, s)).decision

/-- The merges of a reload's swaps with a request's late stages. -/
def ReloadMerge (new : Rebuilt X) (steps : List (ReloadStep X)) : Prop :=
  Interleaving (new.stores.map .store) ((lateStack (X := X)).map .stage) steps

/-- The request is blocked whatever the merge. -/
def NoGap (onError : OnError) (ctx : RequestCtx) (s : Shared X) (new : Rebuilt X) : Prop :=
  ∀ steps, ReloadMerge new steps → (underReload onError steps ctx s).isBlock = true

/-! ## What the late stages decide -/

/-- The decision of the rules stage, where it makes one. -/
def rulesDecision (ctx : RequestCtx) (s : Shared X) : Option WafDecision :=
  (s.rules.evaluateCounting s.now ctx s.toRuleState).1.map outcomeDecision

/-- Whether some signature of a database matches the request. -/
def signatureHit (db : SignatureDb X) (ctx : RequestCtx) : Bool :=
  (db.scan (haystack ctx)).isSome

/-- Whether the late stages block under the rules in `s` and a signature database. -/
def lateBlocks (ctx : RequestCtx) (s : Shared X) (db : SignatureDb X) : Bool :=
  (rulesDecision ctx s).elim (signatureHit db ctx) WafDecision.isBlock

/-- The rules stage ends the pass where it decides, and hands on the context. -/
theorem stageStep_rules (onError : OnError) (ctx : RequestCtx) (s : Shared X) (log : List Str) :
    stageStep onError rulesStage ((ctx, s), log) =
      (rulesDecision ctx s, (ctx, { s with toRuleState :=
        (s.rules.evaluateCounting s.now ctx s.toRuleState).2 }), log) := by
  unfold stageStep rulesDecision
  simp only [rulesStage_inspect]
  rcases s.rules.evaluateCounting s.now ctx s.toRuleState with ⟨_ | outcome, state⟩ <;> rfl

/-- The signature stage blocks exactly on a hit, and changes nothing. -/
theorem stageStep_signatures (onError : OnError) (ctx : RequestCtx) (s : Shared X)
    (log : List Str) :
    stageStep onError signatureStage ((ctx, s), log) =
      ((s.signatures.scan (haystack ctx)).map fun hit =>
          .block hit.ruleId hit.status hit.reason,
        ((ctx, s), log)) := by
  unfold stageStep
  simp only [signatureStage_inspect, Signatures.inspect]
  rcases s.signatures.scan (haystack ctx) with _ | hit <;> rfl

/-- The rules decide first; where they do not, a matching signature blocks. -/
theorem lateDecision_eq (onError : OnError) (ctx : RequestCtx) (s : Shared X) :
    lateDecision onError ctx s =
      (rulesDecision ctx s).getD ((s.signatures.scan (haystack ctx)).elim .allow fun hit =>
        .block hit.ruleId hit.status hit.reason) := by
  have hrules := stageStep_rules onError ctx s []
  unfold lateDecision runStages lateStack
  cases hd : rulesDecision ctx s with
  | some d =>
      rw [hd] at hrules
      rw [scan_cons_of_some _ hrules]
      rfl
  | none =>
      rw [hd] at hrules
      rw [scan_cons_of_none _ hrules, scan, stageStep_signatures]
      cases s.signatures.scan (haystack ctx) <;> rfl

/-- The pass of the late stages blocks as `lateBlocks` says. -/
theorem isBlock_lateDecision (onError : OnError) (ctx : RequestCtx) (s : Shared X) :
    (lateDecision onError ctx s).isBlock = lateBlocks ctx s s.signatures := by
  rw [lateDecision_eq]
  unfold lateBlocks signatureHit
  cases rulesDecision ctx s with
  | some d => rfl
  | none => cases s.signatures.scan (haystack ctx) <;> rfl

/-- What the rules stage decides depends on the rules and on what they read, not on the
signatures or the allowlist. -/
theorem lateBlocks_congr {ctx : RequestCtx} {s t : Shared X} (hrules : s.rules = t.rules)
    (hnow : s.now = t.now) (hstate : s.toRuleState = t.toRuleState) (db : SignatureDb X) :
    lateBlocks ctx s db = lateBlocks ctx t db := by
  unfold lateBlocks rulesDecision
  rw [hrules, hnow, hstate]

/-! ## Which mixtures a request can meet -/

/-- Swaps leave the decision so far alone and write the shared state. -/
theorem foldl_stores (onError : OnError) (stores : List (Store X)) (r : InFlight X) :
    (stores.map ReloadStep.store).foldl (ReloadStep.exec onError) r =
      (r.1, (r.2.1.1, writeAll stores r.2.1.2), r.2.2) := by
  induction stores generalizing r with
  | nil => rfl
  | cons store stores ih => exact ih _

/-- The swaps that were made before each of the two stages loaded its handle. -/
theorem ReloadMerge.split {new : Rebuilt X} {steps : List (ReloadStep X)}
    (h : ReloadMerge new steps) :
    ∃ first second third : List (Store X), new.stores = first ++ (second ++ third) ∧
      steps = first.map .store ++ .stage rulesStage ::
        (second.map .store ++ .stage signatureStage :: third.map .store) := by
  obtain ⟨before, after, rest, hstores, rfl, h1⟩ := Interleaving.cons_right_iff.mp h
  obtain ⟨between, last, rest, rfl, rfl, h2⟩ := Interleaving.cons_right_iff.mp h1
  obtain rfl := Interleaving.nil_right_iff.mp h2
  obtain ⟨first, tail, hsplit, rfl, htail⟩ := List.map_eq_append_iff.mp hstores
  obtain ⟨second, third, rfl, rfl, rfl⟩ := List.map_eq_append_iff.mp htail
  exact ⟨first, second, third, hsplit, rfl⟩

/-- Writing some stores and then others is writing all of them in a row. -/
theorem writeAll_append (xs ys : List (Store X)) (s : Shared X) :
    writeAll (xs ++ ys) s = writeAll ys (writeAll xs s) := List.foldl_append

/-- Which signatures are in force after some swaps does not depend on anything but the
signatures before. -/
theorem writeAll_signatures {s t : Shared X} (h : s.signatures = t.signatures)
    (stores : List (Store X)) :
    (writeAll stores s).signatures = (writeAll stores t).signatures := by
  induction stores generalizing s t with
  | nil => exact h
  | cons store stores ih =>
      refine ih ?_
      cases store with
      | signatures db => rfl
      | rules rs => exact h
      | allowlist set => exact h

/-- **The decision of a request in a merge** is that of the rules loaded first and the
signatures loaded second. -/
theorem underReload_split (onError : OnError) (ctx : RequestCtx) (s : Shared X)
    (first second third : List (Store X)) :
    (underReload onError (first.map .store ++ .stage rulesStage ::
        (second.map .store ++ .stage signatureStage :: third.map .store)) ctx s).isBlock =
      lateBlocks ctx (writeAll first s) (writeAll (first ++ second) s).signatures := by
  have hsig := writeAll_signatures (s := { writeAll first s with toRuleState :=
    ((writeAll first s).rules.evaluateCounting (writeAll first s).now ctx
      (writeAll first s).toRuleState).2 }) (t := writeAll first s) rfl second
  unfold underReload lateBlocks signatureHit
  simp only [List.foldl_append, List.foldl_cons, foldl_stores, ReloadStep.exec, stageStep_rules]
  rw [writeAll_append, ← hsig]
  cases rulesDecision ctx (writeAll first s) with
  | some d => rfl
  | none =>
      simp only [stageStep_signatures, Option.elim_none]
      cases SignatureDb.scan _ (haystack ctx) <;> rfl

/-- After the first `n` swaps the rules are still the old ones while `n < 2`. -/
theorem lateBlocks_take (ctx : RequestCtx) (s : Shared X) (new : Rebuilt X)
    (db : SignatureDb X) (n : Nat) :
    lateBlocks ctx (writeAll (new.stores.take n) s) db =
      if n < 2 then lateBlocks ctx s db else lateBlocks ctx (new.swapIn s) db := by
  rcases n with _ | _ | _ | n
  · rfl
  · exact lateBlocks_congr rfl rfl rfl db
  · exact lateBlocks_congr rfl rfl rfl db
  · rw [if_neg (by omega), Rebuilt.swapIn, List.take_of_length_le (by simp [Rebuilt.stores])]

/-- After the first `n` swaps the signatures are the old ones only if `n = 0`. -/
theorem signatures_take (s : Shared X) (new : Rebuilt X) (n : Nat) :
    (writeAll (new.stores.take n) s).signatures =
      if n = 0 then s.signatures else new.signatures := by
  rcases n with _ | _ | _ | n
  · rfl
  · rfl
  · rfl
  · rw [if_neg (by omega), List.take_of_length_le (by simp [Rebuilt.stores])]
    rfl

/-- **A request meets one of three mixtures**: the old generation, the new one, or the old rules
with the new signatures. No merge pairs new rules with old signatures, since the signatures are
swapped first and loaded last. -/
theorem underReload_mixture (onError : OnError) (ctx : RequestCtx) (s : Shared X)
    (new : Rebuilt X) {steps : List (ReloadStep X)} (h : ReloadMerge new steps) :
    (underReload onError steps ctx s).isBlock = lateBlocks ctx s s.signatures ∨
      (underReload onError steps ctx s).isBlock = lateBlocks ctx s new.signatures ∨
        (underReload onError steps ctx s).isBlock =
          lateBlocks ctx (new.swapIn s) new.signatures := by
  obtain ⟨first, second, third, hstores, rfl⟩ := h.split
  obtain ⟨i, j, hij, hfirst, hsecond⟩ : ∃ i j, i ≤ j ∧ first = new.stores.take i ∧
      first ++ second = new.stores.take j := by
    refine ⟨first.length, (first ++ second).length, by simp, by simp [hstores], ?_⟩
    rw [hstores, ← List.append_assoc, List.take_left]
  rw [underReload_split, hsecond, hfirst, lateBlocks_take, signatures_take]
  by_cases hrules : i < 2
  · by_cases hsigs : j = 0
    · exact .inl (by rw [if_pos hrules, if_pos hsigs])
    · exact .inr (.inl (by rw [if_pos hrules, if_neg hsigs]))
  · exact .inr (.inr (by rw [if_neg hrules, if_neg (by omega)]))

/-- The merge in which the whole reload falls between the two stages. -/
theorem reloadMerge_between (new : Rebuilt X) :
    ReloadMerge new (.stage rulesStage ::
      (new.stores.map .store ++ [.stage signatureStage])) := by
  refine Interleaving.cons_right_iff.mpr ⟨[], _, _, rfl, rfl, ?_⟩
  refine Interleaving.cons_right_iff.mpr ⟨_, [], [], (List.append_nil _).symm, rfl, ?_⟩
  exact .nil

/-- **No gap during a reload** of a request that both generations block, exactly if the old rules
block it or the new signatures match it. -/
theorem no_gap_iff (onError : OnError) (ctx : RequestCtx) (s : Shared X) (new : Rebuilt X)
    (hold : (lateDecision onError ctx s).isBlock = true)
    (hnew : (lateDecision onError ctx (new.swapIn s)).isBlock = true) :
    NoGap onError ctx s new ↔
      (rulesDecision ctx s).any WafDecision.isBlock = true ∨
        signatureHit new.signatures ctx = true := by
  rw [isBlock_lateDecision] at hold hnew
  have hmixed : lateBlocks ctx s new.signatures = true ↔
      (rulesDecision ctx s).any WafDecision.isBlock = true ∨
        signatureHit new.signatures ctx = true := by
    unfold lateBlocks at hold ⊢
    cases hd : rulesDecision ctx s with
    | none => simp
    | some d =>
        rw [hd, Option.elim_some] at hold
        simp [hold]
  rw [← hmixed]
  constructor
  · intro h
    have hbetween := h _ (reloadMerge_between new)
    have hsplit := underReload_split onError ctx s [] new.stores []
    exact hsplit.symm.trans hbetween
  · intro h steps hmerge
    rcases underReload_mixture onError ctx s new hmerge with h' | h' | h' <;> rw [h']
    · exact hold
    · exact h
    · exact hnew

/-! ## A signature that becomes a rule -/

/-- The signature file before the reload, which looks for `/probe`. -/
def probeSignature : Str := unlines ["[[signature]]", "id = \"probe\"", "literal = \"/probe\""]

/-- The signature file after it, which looks for `/other`. -/
def otherSignature : Str := unlines ["[[signature]]", "id = \"other\"", "literal = \"/other\""]

/-- The rule file after it: the probe is now a rule. -/
def probeRule : Str :=
  unlines ["[[rule]]", "id = \"probe\"",
    "when = [\x7b field = \"path\", op = \"eq\", value = \"/probe\" \x7d]"]

/-- What these files read as: the signature files before and after, and the rule for the probed
path. -/
def movedReaders : Readers where
  config _ := .error "not read here"
  signatures text :=
    if text = probeSignature then .ok [{ id := "probe", literal := some "/probe" }]
    else .ok [{ id := "other", literal := some "/other" }]
  rules _ := .ok [{ id := "probe", when := [{ field := "path", op := "eq", value := "/probe" }] }]
  json _ := none

/-- A plain build that reads these files. -/
def movedBuild : Crates := .plain .none movedReaders

/-- The files before and after the reload, in which the probed path moves from signatures to
rules. -/
def movedFiles (reloaded : Bool) : FileSystem where
  read path :=
    if path = ("signatures.toml" : Str) then
      .ok (Str.utf8 (if reloaded then otherSignature else probeSignature))
    else if path = ("rules.toml" : Str) ∧ reloaded then .ok (Str.utf8 probeRule)
    else .error "no such file"

/-- The configuration, with or without the rule file. -/
def movedConfig (reloaded : Bool) : Config :=
  { Config.minimal with
    paths := ⟨if reloaded then ("rules.toml" : Str) else ("" : Str), "signatures.toml"⟩ }

/-- The state a start with the old files gives. -/
def movedOld : Shared movedBuild :=
  ((fromConfig movedBuild (movedFiles false) ⟨0, 0⟩ (movedConfig false)).toOption.get
    (by decide)).2

/-- What a reload of the new files swaps in. -/
def movedNew : Rebuilt movedBuild :=
  (rebuild movedBuild (movedFiles true) ⟨0, 0⟩ 1 (movedConfig true)).toOption.get (by decide)

/-- A request for the path that both files are about. -/
def probeRequest : RequestCtx := { plainRequest with path := "/probe" }

/-- The old rules and signatures block the request of the example. -/
theorem probe_blocked_before : (lateDecision .closed probeRequest movedOld).isBlock = true := by
  decide +kernel

/-- The new rules and signatures block it too. -/
theorem probe_blocked_after :
    (lateDecision .closed probeRequest (movedNew.swapIn movedOld)).isBlock = true := by
  decide +kernel

/-- Both generations block the probe, so the equivalence applies to it. -/
theorem no_gap_iff_moved_signature :
    NoGap .closed probeRequest movedOld movedNew ↔
      (rulesDecision probeRequest movedOld).any WafDecision.isBlock = true ∨
        signatureHit movedNew.signatures probeRequest = true :=
  no_gap_iff .closed probeRequest movedOld movedNew probe_blocked_before probe_blocked_after

/-- Both generations block the probe, and a request that loads the old rules and then the new
signatures passes. -/
theorem gap_of_moved_signature :
    (lateDecision .closed probeRequest movedOld).isBlock = true ∧
      (lateDecision .closed probeRequest (movedNew.swapIn movedOld)).isBlock = true ∧
        ¬ NoGap .closed probeRequest movedOld movedNew := by
  refine ⟨probe_blocked_before, probe_blocked_after, ?_⟩
  intro h
  have hpass : (underReload .closed (.stage rulesStage ::
      (movedNew.stores.map .store ++ [.stage signatureStage])) probeRequest movedOld).isBlock
        = false := by decide +kernel
  have hblocked := h _ (reloadMerge_between movedNew)
  rw [hpass] at hblocked
  cases hblocked

end BuduWaf.Pipeline
