import BuduWaf.Lib.Decimal
import BuduWaf.Lib.Runs
import BuduWaf.Plain
import BuduWaf.Rules.Evaluate
import Mathlib.Data.List.Chain

/-!
# Counting rules

Two rules: one counts the requests of an address that match some conditions, and one blocks an
address once its count is above a limit.

* **`Counted`**: the invariant of a run; the store holds for an address how often it was counted.
* **`evaluate_spec`**: what one request does, whatever the conditions are.
* **`kth_hit_blocked_iff`**: so the k-th counted request of an address, if no two in a row are a
  window apart, is blocked exactly if k is above the limit and the count still reads as an `i64`,
  whatever other requests come in between.

The conditions of the counting rule are arbitrary: they are evaluated on each request, in the state
the earlier ones left, and the theorem counts the requests on which they held. `Counted.visit` is
the step lemma, for the address's own requests and for those of others; `Counted.run` is the
induction over the run, which carries the number of the last counted request and its instant.

The counter is read back as an `i64`, so a count from `2 ^ 63` on is above no limit.
-/

namespace BuduWaf.Rules

open RateLimit

variable {X : Crates}

/-! ## The rules -/

/-- Count the requests that match some conditions.
Source: `budu-rules/src/ruleset.rs` `stateful_counter_brute_force` -/
def countRule (id counter : Str) (windowSecs : UInt64) (conds : List CondDef) : RuleDef where
  id := id
  action := .incr
  counter := counter
  ttlSecs := windowSecs
  when := conds

/-- Block once the count is above a limit.
Source: `budu-rules/src/ruleset.rs` `stateful_counter_brute_force` -/
def limitRule (id counter : Str) (limit : Nat) (status : UInt16) (msg : Str) : RuleDef where
  id := id
  status := status
  msg := msg
  when := [{ field := "counter", name := counter, op := "gt", value := Str.ofNat limit }]

/-- The compiled form of the second rule's condition. -/
def overLimit (X : Crates) (counter : Str) (limit : Nat) : CompiledCond X :=
  ⟨.counter counter, .gt limit, false, []⟩

/-- The condition that a counter is over a limit compiles to that test. -/
theorem compile_overLimit {rule counter : Str} {limit : Nat} (hlimit : limit < 2 ^ 63)
    {defaultTz : Int} {cond : CompiledCond X}
    (h : compileCond X rule
      { field := "counter", name := counter, op := "gt", value := Str.ofNat limit } defaultTz =
        .ok cond) : cond = overLimit X counter limit := by
  obtain ⟨hfield, hop, hnegate, htransforms⟩ := compileCond_spec h
  have hcounter := compileField_named (c := ⟨"counter", counter, "gt", Str.ofNat limit, [], false,
    [], []⟩) rfl rfl hfield
  obtain ⟨n, hn, hgt⟩ := compileOp_numeric (c := ⟨"counter", counter, "gt", Str.ofNat limit, [],
    false, [], []⟩) rfl rfl hop
  rw [Str.trim_ofNat, Str.parseInt_ofNat, if_pos hlimit] at hn
  obtain rfl := Option.some.inj hn
  obtain ⟨field, op, negate, transforms⟩ := cond
  obtain rfl : field = .counter counter := hcounter
  obtain rfl : op = .gt limit := hgt
  obtain rfl : negate = false := hnegate
  obtain rfl : [] = transforms := Except.ok.inj htransforms
  rfl

/-- The counting rule compiles to an increment by one. -/
theorem action_of_countRule {id counter : Str} {windowSecs : UInt64} {conds : List CondDef}
    {cell : Cell} {action : Action}
    (h : compileAction (countRule id counter windowSecs conds) cell = .ok action) :
    action = .incr counter 1 windowSecs := by
  unfold compileAction countRule at h
  dsimp only at h
  split at h
  · cases h
  · exact (Except.ok.inj h).symm

/-- The limiting rule compiles to a block. -/
theorem action_of_limitRule {id counter : Str} {limit : Nat} {status : UInt16} {msg : Str}
    {cell : Cell} {action : Action}
    (h : compileAction (limitRule id counter limit status msg) cell = .ok action) :
    ∃ status' msg', action = .block status' msg' := by
  unfold compileAction limitRule at h
  dsimp only at h
  split at h
  · exact ⟨_, _, (Except.ok.inj h).symm⟩
  · cases h

/-- The compiled form of the two rules. -/
theorem compile_counting {id id' counter : Str} {windowSecs : UInt64} {conds : List CondDef}
    {limit : Nat} (hlimit : limit < 2 ^ 63) {status : UInt16} {msg : Str}
    {scoring : ScoringConfig} {defaultTz : Int} {generation : Nat} {rs : RuleSet X}
    (h : compileWithTz X [countRule id counter windowSecs conds,
      limitRule id' counter limit status msg] scoring defaultTz generation = .ok rs) :
    ∃ conds' status' msg', rs.rules =
      [⟨id, .incr counter 1 windowSecs, conds'⟩,
        ⟨id', .block status' msg', [overLimit X counter limit]⟩] := by
  unfold compileWithTz at h
  obtain ⟨⟨req, resp⟩, hrules, h⟩ := bind_ok_iff.mp h
  rw [rules_of_applyScoring h]
  unfold compileRules compileRules compileRules at hrules
  obtain ⟨rule, hrule, hrules⟩ := bind_ok_iff.mp hrules
  obtain ⟨⟨req', resp'⟩, hrest, hrules⟩ := bind_ok_iff.mp hrules
  obtain ⟨rule', hrule', hrest⟩ := bind_ok_iff.mp hrest
  obtain ⟨rfl, rfl⟩ := Prod.mk.inj (Except.ok.inj hrest)
  obtain ⟨rfl, rfl⟩ := Prod.mk.inj (Except.ok.inj hrules)
  obtain ⟨hid, haction, -⟩ := compileRule_spec hrule
  obtain ⟨hid', haction', hconds'⟩ := compileRule_spec hrule'
  obtain ⟨_, action, conds'⟩ := rule
  obtain ⟨_, action', conds''⟩ := rule'
  obtain rfl : _ = id := hid
  obtain rfl : _ = id' := hid'
  obtain rfl : action = .incr counter 1 windowSecs := action_of_countRule haction
  obtain ⟨status', msg', rfl⟩ := action_of_limitRule haction'
  obtain ⟨cond, hcond, rfl⟩ := singleton_of_mapM hconds'
  obtain rfl := compile_overLimit hlimit hcond
  exact ⟨conds', status', msg', rfl⟩

/-! ## One request -/

/-- The outcome is a block, of whatever rule. -/
def Outcome.isBlock : Outcome → Bool
  | .block _ _ _ => true
  | _ => false

/-- The first rule of the set matches, in the state it is asked in. -/
def RuleSet.firstMatches (rs : RuleSet X) (now : Now) (ctx : RequestCtx) (s : RuleState X) : Bool :=
  rs.rules.head?.any fun rule => rule.matchesRequest now ctx s.counters

/-- The count is over the limit where it reads as a number above it. -/
theorem overLimit_matches (counter : Str) (limit : Nat) (now : Now) (ctx : RequestCtx)
    (counters : CounterStore X) :
    (overLimit X counter limit).matchesRequest now ctx counters = true ↔
      limit < (CounterStore.get counters now.mono counter ctx.client.ip).toNat ∧
        (CounterStore.get counters now.mono counter ctx.client.ip).toNat < 2 ^ 63 := by
  have hcandidates : (overLimit X counter limit).matchesRequest now ctx counters =
      numericTest (fun v => (limit : Int) < v)
        (Str.ofNat (CounterStore.get counters now.mono counter ctx.client.ip).toNat) := by
    simp [overLimit, CompiledCond.matchesRequest, CompiledCond.test, CompiledCond.evalCandidates,
      collectCandidates, evalOp]
  rw [hcandidates, numericTest, Str.trim_ofNat, Str.parseInt_ofNat]
  by_cases hfits : (CounterStore.get counters now.mono counter ctx.client.ip).toNat < 2 ^ 63
  · rw [if_pos hfits, Option.any_some, decide_eq_true_eq, Int.ofNat_lt]
    exact (and_iff_left hfits).symm
  · rw [if_neg hfits, Option.any_none]
    exact iff_of_false Bool.false_ne_true (fun h => hfits h.2)

section evaluate

variable {rs : RuleSet X} {id id' counter msg : Str} {windowSecs : UInt64} {limit : Nat}
  {conds : List (CompiledCond X)} {status : StatusCode}

/-- **What one request does**: it is counted if it matches, and then the address is blocked if its
count is over the limit. -/
theorem evaluate_spec
    (hrules : rs.rules = [⟨id, .incr counter 1 windowSecs, conds⟩,
      ⟨id', .block status msg, [overLimit X counter limit]⟩])
    (counting : Bool) (now : Now) (ctx : RequestCtx) (s : RuleState X) :
    (rs.evaluateInner counting now ctx s).2.counters =
        (if rs.firstMatches now ctx s then
          (CounterStore.incr s.counters now.mono counter ctx.client.ip 1 windowSecs).2
        else s.counters) ∧
      ((rs.evaluateInner counting now ctx s).1.any Outcome.isBlock = true ↔
        limit < (CounterStore.get (rs.evaluateInner counting now ctx s).2.counters now.mono counter
            ctx.client.ip).toNat ∧
          (CounterStore.get (rs.evaluateInner counting now ctx s).2.counters now.mono counter
            ctx.client.ip).toNat < 2 ^ 63) := by
  -- The first rule never ends the pass, and leaves the score at zero.
  obtain ⟨counted, hcounted, hfirst⟩ : ∃ s' : RuleState X,
      s'.counters = (if rs.firstMatches now ctx s then
        (CounterStore.incr s.counters now.mono counter ctx.client.ip 1 windowSecs).2
      else s.counters) ∧
      ruleStep counting now ctx ⟨id, .incr counter 1 windowSecs, conds⟩ (s, 0) =
        (none, (s', 0)) := by
    have hhead : rs.firstMatches now ctx s =
        CompiledRule.matchesRequest ⟨id, .incr counter 1 windowSecs, conds⟩ now ctx s.counters := by
      rw [RuleSet.firstMatches, hrules]
      rfl
    rw [hhead]
    unfold ruleStep
    split
    · exact ⟨_, rfl, rfl⟩
    · exact ⟨_, rfl, rfl⟩
  have hzero : ¬ (0 < rs.threshold ∧ rs.threshold ≤ 0) := by
    rw [UInt32.lt_iff_toNat_lt, UInt32.le_iff_toNat_le]
    omega
  have hlimit := overLimit_matches counter limit now ctx counted.counters
  have hmatches : CompiledRule.matchesRequest
      ⟨id', .block status msg, [overLimit X counter limit]⟩ now ctx counted.counters =
        (overLimit X counter limit).matchesRequest now ctx counted.counters := Bool.and_true _
  have hresult : rs.evaluateInner counting now ctx s =
      (if (overLimit X counter limit).matchesRequest now ctx counted.counters = true then
        some (.block id' status msg) else none, counted) := by
    unfold RuleSet.evaluateInner
    rw [hrules, scan_cons_of_none _ hfirst]
    by_cases hover : (overLimit X counter limit).matchesRequest now ctx counted.counters = true
    · have hsecond : ruleStep counting now ctx
          ⟨id', .block status msg, [overLimit X counter limit]⟩ (counted, 0) =
            (some (.block id' status msg), (counted, 0)) := by
        rw [ruleStep, if_pos (hmatches.trans hover)]
        rfl
      rw [scan_cons_of_some _ hsecond, if_pos hover]
    · have hsecond : ruleStep counting now ctx
          ⟨id', .block status msg, [overLimit X counter limit]⟩ (counted, 0) =
            (none, (counted, 0)) := by
        rw [ruleStep, if_neg (fun h => hover (hmatches.symm.trans h))]
      rw [scan_cons_of_none _ hsecond, scan, if_neg hover]
      exact if_neg hzero
  rw [hresult]
  refine ⟨hcounted, ?_⟩
  rw [← hlimit]
  split
  · exact iff_of_true rfl ‹_›
  · exact iff_of_false Bool.false_ne_true ‹_›

end evaluate

/-! ## Runs -/

/-- What is seen of one request to a counting rule set. -/
structure Visit where
  /-- The client. -/
  ip : IpAddr
  /-- When it came, in nanoseconds. -/
  mono : Nat
  /-- Whether it was counted. -/
  counted : Bool
  /-- Whether it was blocked. -/
  blocked : Bool
deriving DecidableEq

/-- One request, some time after the one before. -/
structure Arrival where
  /-- The time since the request before, in nanoseconds. -/
  elapsed : Nat
  /-- The wall clock. -/
  wall : Nat
  /-- The request. -/
  ctx : RequestCtx

/-- Evaluate the rules on one request after another. -/
def RuleSet.visit (rs : RuleSet X) (counting : Bool) (s : RuleState X × Nat) (a : Arrival) :
    (RuleState X × Nat) × List Visit :=
  let now : Now := ⟨a.wall, s.2 + a.elapsed⟩
  let r := rs.evaluateInner counting now a.ctx s.1
  ((r.2, now.mono),
    [⟨a.ctx.client.ip, now.mono, rs.firstMatches now a.ctx s.1, r.1.any Outcome.isBlock⟩])

/-- The counted requests of an address. -/
def countedOf (ip : IpAddr) (visits : List Visit) : List Visit :=
  visits.filter fun v => decide (v.ip = ip) && v.counted

/-- No two requests in a row are as far apart as the window. -/
def Spaced (window : Nat) (visits : List Visit) : Prop :=
  visits.IsChain fun v w => w.mono < v.mono + window

section store

variable {abs : (X.moka Str Counter).Content → Cache.Timed Str Counter}

/-- What the store holds for an address that was counted so often: the count, saturated, until a
window after the last time. -/
structure Counted (abs : (X.moka Str Counter).Content → Cache.Timed Str Counter) (counter : Str)
    (window : Nat) (ip : IpAddr) (visits : List Visit) (store : CounterStore X) : Prop where
  /-- No entry idles out. -/
  idle : (abs store).idle = none
  /-- The address's entry. -/
  entry : ((abs store).entry (CounterStore.key X counter ip)).map
      (fun e => (e.value, e.deadline)) =
    visits.getLast?.map fun v =>
      (⟨UInt64.ofNat (min visits.length (2 ^ 64 - 1)), window⟩, some (v.mono + window))

variable {counter : Str} {window : Nat} {ip : IpAddr} {visits : List Visit} {store : CounterStore X}

/-- A number that was cut to the largest `u64` is held as it is. -/
theorem toNat_saturated (n : Nat) :
    (UInt64.ofNat (min n (2 ^ 64 - 1))).toNat = min n (2 ^ 64 - 1) := by
  have hsize : UInt64.size = 2 ^ 64 := rfl
  exact UInt64.toNat_ofNat_of_lt' (by omega)

/-- In a store that was never written nothing was counted. -/
theorem counted_new (hmoka : (X.moka Str Counter).ModelledBy abs) :
    Counted abs counter window ip [] (CounterStore.new (X := X)) := by
  have hbuild : abs (CounterStore.new (X := X)) = (Cache.timed Str Counter).build none :=
    hmoka.build none
  exact ⟨by rw [hbuild]; rfl, by rw [hbuild]; rfl⟩

/-- Within the window the count is read. -/
theorem Counted.get (hmoka : (X.moka Str Counter).ModelledBy abs)
    (h : Counted abs counter window ip visits store) {now : Nat}
    (hnow : ∀ v ∈ visits.getLast?, now < v.mono + window) :
    (CounterStore.get store now counter ip).toNat = min visits.length (2 ^ 64 - 1) := by
  have hentry := h.entry
  have hget : CounterStore.get store now counter ip =
      ((((abs store).entry (CounterStore.key X counter ip)).filter
        (Cache.Entry.live (abs store).idle now)).map fun e => e.value.count).getD 0 := by
    unfold CounterStore.get
    rw [hmoka.get]
    show (Option.map _ (Option.map _ _)).getD 0 = _
    rw [Option.map_map]
    rfl
  rw [hget]
  cases hlast : visits.getLast? with
  | none =>
      rw [hlast, Option.map_none, Option.map_eq_none_iff] at hentry
      rw [hentry, List.getLast?_eq_none_iff.mp hlast]
      rfl
  | some v =>
      rw [hlast, Option.map_some] at hentry
      obtain ⟨e, he, hvalue⟩ := Option.map_eq_some_iff.mp hentry
      obtain ⟨hcount, hdeadline⟩ := Prod.mk.inj hvalue
      have hlive : e.live (abs store).idle now = true := by
        have hbefore := hnow v hlast
        unfold Cache.Entry.live
        rw [hdeadline, h.idle]
        simpa using hbefore
      rw [he, Option.filter_some, if_pos hlive, Option.map_some, Option.getD_some, hcount]
      exact toNat_saturated _

/-- Adding one to a saturated count gives the saturated count of one more. -/
theorem saturatingAdd64_one {count : UInt64} {n : Nat} (h : count.toNat = min n (2 ^ 64 - 1)) :
    saturatingAdd64 count 1 = UInt64.ofNat (min (n + 1) (2 ^ 64 - 1)) := by
  have hone : (1 : UInt64).toNat = 1 := rfl
  apply UInt64.toNat_inj.mp
  rw [toNat_saturated, toNat_saturatingAdd64, hone, h]
  omega

/-- One more counted request, within the window of the last one, is counted with those before. -/
theorem Counted.incr (hmoka : (X.moka Str Counter).ModelledBy abs) {windowSecs : UInt64}
    (hwindow : window = max windowSecs.toNat 1 * nanos)
    (h : Counted abs counter window ip visits store) {v : Visit}
    (hnow : ∀ w ∈ visits.getLast?, v.mono < w.mono + window) :
    Counted abs counter window ip (visits ++ [v])
      (CounterStore.incr store v.mono counter ip 1 windowSecs).2 := by
  have hcount := saturatingAdd64_one (h.get hmoka hnow)
  have hinsert := hmoka.insert store v.mono (CounterStore.key X counter ip)
    ⟨UInt64.ofNat (min (visits.length + 1) (2 ^ 64 - 1)), window⟩ (some window)
  unfold CounterStore.incr
  simp only [counterExpiry, hcount, ← hwindow]
  refine ⟨?_, ?_⟩
  · rw [hinsert]
    exact h.idle
  · rw [hinsert, List.getLast?_concat, List.length_append, List.length_singleton]
    show Option.map _ (if _ = _ then _ else _) = _
    rw [if_pos rfl]
    rfl

/-- A counted request of another address. -/
theorem Counted.incr_other (hmoka : (X.moka Str Counter).ModelledBy abs)
    (hip : Function.Injective X.ipText) (h : Counted abs counter window ip visits store)
    {other : IpAddr} (hother : other ≠ ip) (now : Nat) (windowSecs : UInt64) :
    Counted abs counter window ip visits
      (CounterStore.incr store now counter other 1 windowSecs).2 := by
  have hkey : CounterStore.key X counter ip ≠ CounterStore.key X counter other := by
    intro heq
    have htail := List.append_cancel_left heq
    exact hother (hip (List.cons.inj htail).2).symm
  unfold CounterStore.incr
  simp only
  refine ⟨?_, ?_⟩
  · rw [hmoka.insert]
    exact h.idle
  · rw [hmoka.insert]
    show Option.map _ (if _ = _ then _ else _) = _
    rw [if_neg hkey]
    exact h.entry

/-! ### The run -/

section run

variable {rs : RuleSet X} {id id' msg : Str} {windowSecs : UInt64} {limit : Nat}
  {conds : List (CompiledCond X)} {status : StatusCode}

/-- What one request leaves of the invariant, whoever sent it, and when it is blocked. -/
theorem Counted.visit (hmoka : (X.moka Str Counter).ModelledBy abs)
    (hip : Function.Injective X.ipText) (hwindow : window = max windowSecs.toNat 1 * nanos)
    (hrules : rs.rules = [⟨id, .incr counter 1 windowSecs, conds⟩,
      ⟨id', .block status msg, [overLimit X counter limit]⟩])
    (counting : Bool) {s : RuleState X} (h : Counted abs counter window ip visits s.counters)
    (now : Nat) (a : Arrival) {v : Visit} {s' : RuleState X × Nat}
    (hvisit : rs.visit counting (s, now) a = (s', [v]))
    (hspaced : v.ip = ip → v.counted = true →
      ∀ w ∈ visits.getLast?, v.mono < w.mono + window) :
    Counted abs counter window ip (visits ++ countedOf ip [v]) s'.1.counters ∧
      (v.ip = ip → v.counted = true →
        (v.blocked = true ↔ limit < visits.length + 1 ∧ visits.length + 1 < 2 ^ 63)) := by
  obtain ⟨hcounters, hblocked⟩ :=
    evaluate_spec hrules counting ⟨a.wall, now + a.elapsed⟩ a.ctx s
  unfold RuleSet.visit at hvisit
  obtain ⟨rfl, hv⟩ := Prod.mk.inj hvisit
  obtain rfl := List.singleton_inj.mp hv
  dsimp only at hspaced ⊢
  rw [hcounters] at hblocked ⊢
  cases hfirst : rs.firstMatches ⟨a.wall, now + a.elapsed⟩ a.ctx s with
  | false =>
      rw [if_neg Bool.false_ne_true]
      refine ⟨?_, fun _ hcounted => absurd hcounted Bool.false_ne_true⟩
      simpa [countedOf] using h
  | true =>
      rw [hfirst, if_pos rfl] at hblocked
      rw [if_pos rfl]
      by_cases hclient : a.ctx.client.ip = ip
      · have hnow := hspaced hclient hfirst
        have hnext := h.incr hmoka hwindow (v := ⟨a.ctx.client.ip, now + a.elapsed, true,
          (rs.evaluateInner counting ⟨a.wall, now + a.elapsed⟩ a.ctx s).1.any Outcome.isBlock⟩) hnow
        rw [hclient] at hblocked ⊢
        refine ⟨?_, ?_⟩
        · have hkept : ∀ v : Visit, v.ip = ip → v.counted = true → countedOf ip [v] = [v] := by
            intro v hvip hvcounted
            simp [countedOf, hvip, hvcounted]
          rw [hkept _ rfl rfl]
          simpa [hclient] using hnext
        · intro _ _
          rw [hblocked]
          -- The count was written just now, so it is read.
          have hpositive : 0 < window := by
            rw [hwindow]
            exact Nat.mul_pos (by omega) (by decide)
          have hfresh : ∀ w ∈ (visits ++ [(⟨a.ctx.client.ip, now + a.elapsed, true,
              (rs.evaluateInner counting ⟨a.wall, now + a.elapsed⟩ a.ctx s).1.any
                Outcome.isBlock⟩ : Visit)]).getLast?, now + a.elapsed < w.mono + window := by
            intro w hw
            rw [List.getLast?_concat] at hw
            obtain rfl := Option.some.inj hw
            exact Nat.lt_add_of_pos_right hpositive
          have hread := hnext.get hmoka hfresh
          rw [List.length_append, List.length_singleton] at hread
          rw [hread]
          omega
      · refine ⟨?_, fun hip' => absurd hip' hclient⟩
        have hother := h.incr_other hmoka hip hclient (now + a.elapsed) windowSecs
        simpa [countedOf, hclient] using hother

/-- **Every counted request of a run**: the one that makes the count `k` is blocked exactly if
`k` is over the limit and reads as an `i64`. -/
theorem Counted.run (hmoka : (X.moka Str Counter).ModelledBy abs)
    (hip : Function.Injective X.ipText) (hwindow : window = max windowSecs.toNat 1 * nanos)
    (hrules : rs.rules = [⟨id, .incr counter 1 windowSecs, conds⟩,
      ⟨id', .block status msg, [overLimit X counter limit]⟩])
    (counting : Bool) (arrivals : List Arrival) {s : RuleState X} {now : Nat}
    {visits : List Visit} (h : Counted abs counter window ip visits s.counters)
    (hspaced : Spaced window
      (visits ++ countedOf ip (BuduWaf.run (rs.visit counting) (s, now) arrivals).2))
    {i : Nat} {v : Visit}
    (hv : (countedOf ip (BuduWaf.run (rs.visit counting) (s, now) arrivals).2)[i]? = some v) :
    v.blocked = true ↔ limit < visits.length + i + 1 ∧ visits.length + i + 1 < 2 ^ 63 := by
  induction arrivals generalizing s now visits i with
  | nil => cases hv
  | cons a arrivals ih =>
      obtain ⟨first, hfirst⟩ : ∃ first, (rs.visit counting (s, now) a).2 = [first] := ⟨_, rfl⟩
      have hsplit : countedOf ip (BuduWaf.run (rs.visit counting) (s, now) (a :: arrivals)).2 =
          countedOf ip [first] ++
            countedOf ip (BuduWaf.run (rs.visit counting) (rs.visit counting (s, now) a).1
              arrivals).2 := by
        rw [run_cons, hfirst]
        exact List.filter_append _ _
      rw [hsplit] at hspaced hv
      have hstep := h.visit hmoka hip hwindow hrules counting now a (v := first)
        (Prod.ext rfl hfirst) (by
          intro hfip hfcounted w hw
          have hkept : countedOf ip [first] = [first] := by
            simp [countedOf, hfip, hfcounted]
          rw [hkept] at hspaced
          exact (List.isChain_append.mp hspaced).2.2 w hw first rfl)
      rw [← List.append_assoc] at hspaced
      obtain ⟨hnext, hblocked⟩ := hstep
      by_cases hcounted : first.ip = ip ∧ first.counted = true
      · have hkept : countedOf ip [first] = [first] := by
          simp [countedOf, hcounted.1, hcounted.2]
        rw [hkept] at hspaced hv hnext
        cases i with
        | zero =>
            obtain rfl := Option.some.inj hv
            exact hblocked hcounted.1 hcounted.2
        | succ i =>
            have hrest := ih hnext hspaced hv
            rw [List.length_append, List.length_singleton] at hrest
            rw [hrest]
            omega
      · have hdropped : countedOf ip [first] = [] := by
          simp only [countedOf, List.filter_cons, List.filter_nil]
          rw [if_neg]
          simpa using hcounted
        rw [hdropped, List.append_nil] at hspaced hnext
        rw [hdropped, List.nil_append] at hv
        exact ih hnext hspaced hv

end run

end store

/-- **Brute-force counting.** For the two rules as compiled, in every run from an empty store in
which no two counted requests in a row of an address are a window apart, the `k`-th counted
request of the address, as long as `k` reads as an `i64`, is blocked exactly if `k` is over the
limit, whatever other requests come in between. -/
theorem kth_hit_blocked_iff (X : Crates)
    {abs : (X.moka Str Counter).Content → Cache.Timed Str Counter}
    (hmoka : (X.moka Str Counter).ModelledBy abs) (hip : Function.Injective X.ipText)
    (id id' counter msg : Str) (windowSecs : UInt64) (hwindow : windowSecs ≠ 0)
    (conds : List CondDef) (limit : Nat) (hlimit : limit < 2 ^ 63 - 1) (status : UInt16)
    (scoring : ScoringConfig) (defaultTz : Int) (generation : Nat) (rs : RuleSet X)
    (hcompile : compileWithTz X [countRule id counter windowSecs conds,
      limitRule id' counter limit status msg] scoring defaultTz generation = .ok rs)
    (counting : Bool) (s : RuleState X) (hnew : s.counters = CounterStore.new) (now : Nat)
    (arrivals : List Arrival) (ip : IpAddr)
    (hspaced : Spaced (windowSecs.toNat * nanos)
      (countedOf ip (BuduWaf.run (rs.visit counting) (s, now) arrivals).2))
    (k : Nat) (hk : k + 1 < 2 ^ 63) (v : Visit)
    (hv : (countedOf ip (BuduWaf.run (rs.visit counting) (s, now) arrivals).2)[k]? = some v) :
    v.blocked = true ↔ limit < k + 1 := by
  obtain ⟨conds', status', msg', hrules⟩ := compile_counting (by omega) hcompile
  have hpositive : 0 < windowSecs.toNat := by
    have hzero : windowSecs.toNat ≠ (0 : UInt64).toNat :=
      fun h => hwindow (UInt64.toNat_inj.mp h)
    have hconst : (0 : UInt64).toNat = 0 := rfl
    omega
  have hmax : max windowSecs.toNat 1 = windowSecs.toNat := by omega
  have hempty : Counted abs counter (windowSecs.toNat * nanos) ip [] s.counters := by
    rw [hnew]
    exact counted_new hmoka
  have hrun := hempty.run hmoka hip (by rw [hmax]) hrules counting arrivals hspaced hv
  rw [List.length_nil, Nat.zero_add] at hrun
  rw [hrun]
  exact and_iff_left hk

/-! ## Logins -/

/-- A plain build, without optional features. -/
def loginBuild : Crates := .plain .none .none

/-- The conditions of a rule about logins: the path is `/login`. -/
def loginConds : List CondDef := [{ field := "path", op := "eq", value := "/login" }]

/-- More than three logins within five minutes of each other are blocked. -/
def loginRules : RuleSet loginBuild :=
  (compileWithTz loginBuild [countRule "count-login" "login" 300 loginConds,
    limitRule "block-bruteforce" "login" 3 429 ""] .default 0 0).toOption.get (by decide)

/-- The two rules of the example compile. -/
theorem loginRules_compiled :
    compileWithTz loginBuild [countRule "count-login" "login" 300 loginConds,
      limitRule "block-bruteforce" "login" 3 429 ""] .default 0 0 = .ok loginRules := rfl

/-- The client 203.0.113.50, who tries to log in. -/
def loginClient : IpAddr := .v4 0xCB007132#32

/-- A login of this client. -/
def loginRequest : RequestCtx :=
  ⟨"POST", "/login", none, .empty, ⟨loginClient, none⟩, .notBuffered, .default⟩

/-- The state before the first login, in which nothing was counted. -/
def loginState : RuleState loginBuild := ⟨CounterStore.new, fun _ => none, 0⟩

/-- What is seen of so many logins at one instant. -/
def loginVisits (n : Nat) : List Visit :=
  (BuduWaf.run (loginRules.visit true) (loginState, 0)
    (List.replicate n ⟨0, 0, loginRequest⟩)).2

/-- The fourth login of the example is blocked. -/
theorem fourth_login_blocked :
    ∃ v, (countedOf loginClient (loginVisits 4))[3]? = some v ∧ (v.blocked = true ↔ 3 < 3 + 1) :=
  ⟨⟨loginClient, 0, true, true⟩, by decide +kernel,
    kth_hit_blocked_iff loginBuild .self Plain.ipText_injective "count-login" "block-bruteforce"
      "login" "" 300 (by decide) loginConds 3 (by decide) 429 .default 0 0 loginRules
      loginRules_compiled true loginState rfl 0 (List.replicate 4 ⟨0, 0, loginRequest⟩) loginClient
      (by unfold Spaced; decide +kernel) 3 (by decide) _ (by decide +kernel)⟩

/-- Every login is counted, at the instant it comes. -/
theorem login_visits (n : Nat) (s : RuleState loginBuild) :
    let visits := (BuduWaf.run (loginRules.visit true) (s, 0)
      (List.replicate n ⟨0, 0, loginRequest⟩)).2
    visits.length = n ∧ ∀ v ∈ visits, v.ip = loginClient ∧ v.mono = 0 ∧ v.counted = true := by
  induction n generalizing s with
  | zero =>
      refine ⟨rfl, ?_⟩
      intro v hv
      cases hv
  | succ n ih =>
      obtain ⟨hlength, hall⟩ :=
        ih (loginRules.evaluateInner true ⟨0, 0⟩ loginRequest s).2
      refine ⟨congrArg (· + 1) hlength, ?_⟩
      intro v hv
      rcases List.mem_cons.mp hv with rfl | hv
      · exact ⟨rfl, rfl, rfl⟩
      · exact hall v hv

/-- All visits of the example are counted. -/
theorem countedOf_logins (n : Nat) : countedOf loginClient (loginVisits n) = loginVisits n := by
  unfold countedOf
  rw [List.filter_eq_self]
  intro v hv
  obtain ⟨hip, -, hcounted⟩ := (login_visits n loginState).2 v hv
  simp [hip, hcounted]

/-- The visits of the example come within the window of each other. -/
theorem spaced_logins (n : Nat) :
    Spaced (300 * nanos) (countedOf loginClient (loginVisits n)) := by
  rw [countedOf_logins]
  apply List.Pairwise.isChain
  rw [List.pairwise_iff_getElem]
  intro i j hi hj _
  have hmono := fun v hv => ((login_visits n loginState).2 v hv).2.1
  rw [hmono _ (List.getElem_mem hi), hmono _ (List.getElem_mem hj)]
  decide

/-- Of the logins of the example, those from the fourth on are blocked, until the counter is beyond
an `i64`. -/
theorem login_blocked_iff {n k : Nat} {v : Visit}
    (hv : (countedOf loginClient (loginVisits n))[k]? = some v) :
    v.blocked = true ↔ 3 < k + 1 ∧ k + 1 < 2 ^ 63 := by
  obtain ⟨conds, status, msg, hrules⟩ := compile_counting (by decide) loginRules_compiled
  have hempty : Counted id "login" (300 * nanos) loginClient [] loginState.counters :=
    counted_new .self
  have hrun := hempty.run .self Plain.ipText_injective rfl hrules true _ (spaced_logins n) hv
  rwa [List.length_nil, Nat.zero_add] at hrun

/-- A count that does not read as an `i64` is not above any limit: the login that makes the count
two to the sixty-third is let through. -/
theorem count_past_i64_not_blocked :
    Spaced (300 * nanos) (countedOf loginClient (loginVisits (9223372036854775807 + 1))) ∧
      ¬ ∀ k v, (countedOf loginClient (loginVisits (9223372036854775807 + 1)))[k]? = some v →
        (v.blocked = true ↔ 3 < k + 1) := by
  have hlast : ∀ n, ∃ v, (countedOf loginClient (loginVisits (n + 1)))[n]? = some v := by
    intro n
    refine ⟨_, List.getElem?_eq_getElem ?_⟩
    rw [countedOf_logins]
    exact Nat.lt_of_lt_of_eq (Nat.lt_succ_self n) (login_visits (n + 1) loginState).1.symm
  refine ⟨spaced_logins _, ?_⟩
  intro h
  obtain ⟨v, hv⟩ := hlast 9223372036854775807
  have hover := (h _ v hv).mpr (by decide)
  exact absurd ((login_blocked_iff hv).mp hover).2 (by decide)

end BuduWaf.Rules
