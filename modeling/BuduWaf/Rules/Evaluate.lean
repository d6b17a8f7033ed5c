import BuduWaf.Rules.Fields

/-!
# `budu-rules`: evaluation

* **Operators and transforms** (`evalOp`, `applyTransform`), and the test of one condition.
* **`evaluateInner`**: the request rules, one pass with an early exit. Along the way `log` rules
  are tallied, `incr` rules write the counter store that later `counter` conditions read,
  `rate_limit` rules take a token, and `score` rules add to a saturating total.
* **`evaluateResponse`**: the same for response rules, where only `block` ends the pass.
* **`loggedRequest`**, **`loggedResponse`**: the lines `log` rules write; the tally counts them.

One evaluation reads each clock once.

A pass is the `scan` of `Lib/Scan` over the rules of a phase. One iteration is one definition
(`ruleStep`, `responseStep`), and everything later modules show about passes is shown of that and
carried over by the rules of the library. The state a pass writes is explicit: counters, limiters
and the tally; the score is local to the pass and is handed on beside the state.
-/

namespace BuduWaf.Rules

open RateLimit

variable {X : Crates}

/-! ## One condition -/

/-- Local day of week, Sunday first.
Source: `budu-rules/src/ruleset.rs` `weekday` -/
def weekday (epochMin offsetMin : Int) : Nat := (((epochMin + offsetMin) / 1440 + 4) % 7).toNat

/-- Whether a minute of the UTC day lies in a window of local time; a window that ends before it
starts wraps past midnight.
Source: `budu-rules/src/ruleset.rs` `in_window` -/
def inWindow (nowUtc start finish : Nat) (offsetMin : Int) : Bool :=
  let minute := (((nowUtc : Int) + offsetMin) % 1440).toNat
  if start ≤ finish then start ≤ minute && minute ≤ finish
  else start ≤ minute || minute ≤ finish

/-- One transform of a value.
Source: `budu-rules/src/ruleset.rs` `apply_transform` -/
def applyTransform : Transform → Str → Str
  | .lowercase, s => Str.toAsciiLowercase s
  | .uppercase, s => Str.toAsciiUppercase s
  | .urlDecode, s => Parser.decodeInto (Str.utf8 s) true
  | .compressWs, s => Str.join " " (Str.splitWhitespace s)
  | .removeNulls, s => s.filter (· ≠ Char.ofNat 0)
  | .trim, s => Str.trim s

/-- A value read as a 64-bit integer, and tested.
Source: `budu-rules/src/ruleset.rs` `eval_op` (the numeric arms) -/
def numericTest (test : Int → Bool) (value : Str) : Bool :=
  (Str.parseInt 64 (Str.trim value)).any test

/-- Whether a value satisfies an operator.
Source: `budu-rules/src/ruleset.rs` `eval_op` -/
def evalOp (op : Op X) (value : Str) : Bool :=
  match op with
  | .eq s => value == s
  | .ne s => value != s
  | .contains s => Str.contains s value
  | .startsWith s => s.isPrefixOf value
  | .endsWith s => s.isSuffixOf value
  | .regex re => X.isMatch re value
  | .isIn list => list.any (· == value)
  | .gt n => numericTest (fun v => n < v) value
  | .lt n => numericTest (fun v => v < n) value
  | .ge n => numericTest (fun v => n ≤ v) value
  | .le n => numericTest (fun v => v ≤ n) value
  | .detectSqli => X.detectSqli (Str.utf8 value)
  | .detectXss => X.detectXss (Str.utf8 value)
  | .cidr _ => false
  | .timeBetween start finish offsetMin =>
    (Str.parseUInt 16 (Str.trim value)).any fun nowUtc => inWindow nowUtc start finish offsetMin
  | .dayOfWeek mask offsetMin =>
    numericTest (fun epochMin => mask &&& dayBit (weekday epochMin offsetMin) != 0) value

namespace CompiledCond

/-- Whether some candidate, once transformed, satisfies the operator.
Source: `budu-rules/src/ruleset.rs` `CompiledCond::eval_candidates` -/
def evalCandidates (c : CompiledCond X) (candidates : List Str) : Bool :=
  candidates.any fun raw => evalOp c.op (c.transforms.foldl (fun s t => applyTransform t s) raw)

/-- Whether the condition holds, for a client address and the candidates of its field; `cidr`
looks at the address itself.
Source: `budu-rules/src/ruleset.rs` `CompiledCond::matches_request`, `matches_response` -/
def test (c : CompiledCond X) (ip : IpAddr) (candidates : List Str) : Bool :=
  (match c.op with
    | .cidr net => net.contains ip
    | _ => c.evalCandidates candidates) ^^ c.negate

/-- Whether the condition holds of a request.
Source: `budu-rules/src/ruleset.rs` `CompiledCond::matches_request` -/
def matchesRequest (c : CompiledCond X) (now : Now) (ctx : RequestCtx)
    (counters : CounterStore X) : Bool :=
  c.test ctx.client.ip (collectCandidates now ctx counters c.field)

/-- Whether the condition holds of a response.
Source: `budu-rules/src/ruleset.rs` `CompiledCond::matches_response` -/
def matchesResponse (c : CompiledCond X) (now : Now) (rctx : ResponseCtx)
    (counters : CounterStore X) : Bool :=
  c.test rctx.client.ip (collectResponseCandidates now rctx counters c.field)

end CompiledCond

/-- Whether all conditions of a rule hold of a request.
Source: `budu-rules/src/ruleset.rs` `RuleSet::evaluate_inner` (the guard) -/
def CompiledRule.matchesRequest (rule : CompiledRule X) (now : Now) (ctx : RequestCtx)
    (counters : CounterStore X) : Bool :=
  rule.conds.all fun c => c.matchesRequest now ctx counters

/-- Whether all conditions of a rule hold of a response.
Source: `budu-rules/src/ruleset.rs` `RuleSet::evaluate_response` (the guard) -/
def CompiledRule.matchesResponse (rule : CompiledRule X) (now : Now) (rctx : ResponseCtx)
    (counters : CounterStore X) : Bool :=
  rule.conds.all fun c => c.matchesResponse now rctx counters

/-- Stores with the same counts for a client are the same to its requests. -/
theorem CompiledRule.matchesRequest_of_get (rule : CompiledRule X) {now : Now} {ctx : RequestCtx}
    {counters counters' : CounterStore X}
    (h : ∀ name, CounterStore.get counters now.mono name ctx.client.ip =
      CounterStore.get counters' now.mono name ctx.client.ip) :
    rule.matchesRequest now ctx counters = rule.matchesRequest now ctx counters' := by
  have hcandidates : ∀ field,
      collectCandidates now ctx counters field = collectCandidates now ctx counters' field := by
    intro field
    cases field with
    | counter name => exact congrArg (fun n : UInt64 => [Str.ofNat n.toNat]) (h name)
    | _ => rfl
  unfold CompiledRule.matchesRequest CompiledCond.matchesRequest
  simp only [hcandidates]

/-- A rule matches a response alike with two stores that have the same counts of its client. -/
theorem CompiledRule.matchesResponse_of_get (rule : CompiledRule X) {now : Now}
    {rctx : ResponseCtx} {counters counters' : CounterStore X}
    (h : ∀ name, CounterStore.get counters now.mono name rctx.client.ip =
      CounterStore.get counters' now.mono name rctx.client.ip) :
    rule.matchesResponse now rctx counters = rule.matchesResponse now rctx counters' := by
  have hcandidates : ∀ field, collectResponseCandidates now rctx counters field =
      collectResponseCandidates now rctx counters' field := by
    intro field
    cases field with
    | counter name => exact congrArg (fun n : UInt64 => [Str.ofNat n.toNat]) (h name)
    | _ => rfl
  unfold CompiledRule.matchesResponse CompiledCond.matchesResponse
  simp only [hcandidates]

/-! ## The request pass -/

variable (X) in
/-- What evaluation writes: the counter store, the caches behind the limiters, and the tally of
`log` matches (an `AtomicU64`, which wraps). -/
structure RuleState where
  /-- The per-client counters. -/
  counters : CounterStore X
  /-- The limiters' caches. -/
  limiters : Limiters X
  /-- Matches of `log` rules. -/
  logHits : UInt64

/-- What evaluation answers.
Source: `budu-rules/src/ruleset.rs` `Outcome` -/
inductive Outcome where
  | block (ruleId : Str) (status : StatusCode) (reason : Str)
  | allow (ruleId : Str)
  | rateLimited (ruleId : Str) (retryAfterSecs : UInt32)
deriving DecidableEq

/-- `u32::saturating_add`: the sum, or the largest number where that is too large. -/
def saturatingAdd32 (a b : UInt32) : UInt32 :=
  if a.toNat + b.toNat < 2 ^ 32 then a + b else UInt32.ofNat (2 ^ 32 - 1)

/-- What the action of a matching rule does to the state and the score, and its outcome where it
ends the pass. `counting` says whether a log counter was handed in.
Source: `budu-rules/src/ruleset.rs` `RuleSet::evaluate_inner` (`match &rule.action`) -/
def CompiledRule.act (rule : CompiledRule X) (counting : Bool) (now : Now) (ip : IpAddr)
    (s : RuleState X × UInt32) : Option Outcome × (RuleState X × UInt32) :=
  match rule.action with
  | .block status msg => (some (.block rule.id status msg), s)
  | .allow => (some (.allow rule.id), s)
  | .log => (none, { s.1 with logHits := if counting then s.1.logHits + 1 else s.1.logHits }, s.2)
  | .rateLimit limiter =>
    match limiter.check s.1.limiters now.mono ip with
    | (.ok (), limiters) => (none, { s.1 with limiters := limiters }, s.2)
    | (.error secs, limiters) =>
      (some (.rateLimited rule.id secs), { s.1 with limiters := limiters }, s.2)
  | .score points => (none, s.1, saturatingAdd32 s.2 points)
  | .incr counter amount windowSecs =>
    (none, { s.1 with
      counters := (CounterStore.incr s.1.counters now.mono counter ip amount windowSecs).2 }, s.2)

/-- One iteration over the request rules.
Source: `budu-rules/src/ruleset.rs` `RuleSet::evaluate_inner` (the loop body) -/
def ruleStep (counting : Bool) (now : Now) (ctx : RequestCtx) (rule : CompiledRule X)
    (s : RuleState X × UInt32) : Option Outcome × (RuleState X × UInt32) :=
  if rule.matchesRequest now ctx s.1.counters then rule.act counting now ctx.client.ip s
  else (none, s)

/-- The block of an anomaly score.
Source: `budu-rules/src/ruleset.rs` `RuleSet::evaluate_inner` -/
def RuleSet.anomaly (rs : RuleSet X) (total : Nat) : Outcome :=
  .block "anomaly.score" rs.anomalyStatus
    (rs.anomalyMsg ++ (" (score " : Str) ++ Str.ofNat total ++ (" >= " : Str)
      ++ Str.ofNat rs.threshold.toNat ++ (")" : Str))

/-- Evaluate the request rules.
Source: `budu-rules/src/ruleset.rs` `RuleSet::evaluate_inner` -/
def RuleSet.evaluateInner (rs : RuleSet X) (counting : Bool) (now : Now) (ctx : RequestCtx)
    (s : RuleState X) : Option Outcome × RuleState X :=
  match scan (ruleStep counting now ctx) rs.rules (s, 0) with
  | (some outcome, (s', _)) => (some outcome, s')
  | (none, (s', total)) =>
    if 0 < rs.threshold ∧ rs.threshold ≤ total then (some (rs.anomaly total.toNat), s')
    else (none, s')

/-- Evaluations whose passes end alike end alike. -/
theorem RuleSet.evaluateInner_rel {R : RuleState X → RuleState X → Prop} (rs rs' : RuleSet X)
    (hthreshold : rs.threshold = rs'.threshold) (hanomaly : rs.anomaly = rs'.anomaly)
    {counting : Bool} {now : Now} {ctx : RequestCtx} {s t : RuleState X}
    (hanswer : (scan (ruleStep counting now ctx) rs.rules (s, 0)).1 =
      (scan (ruleStep counting now ctx) rs'.rules (t, 0)).1)
    (htotal : (scan (ruleStep counting now ctx) rs.rules (s, 0)).2.2 =
      (scan (ruleStep counting now ctx) rs'.rules (t, 0)).2.2)
    (hnext : R (scan (ruleStep counting now ctx) rs.rules (s, 0)).2.1
      (scan (ruleStep counting now ctx) rs'.rules (t, 0)).2.1) :
    (rs.evaluateInner counting now ctx s).1 = (rs'.evaluateInner counting now ctx t).1 ∧
      R (rs.evaluateInner counting now ctx s).2 (rs'.evaluateInner counting now ctx t).2 := by
  unfold RuleSet.evaluateInner
  rcases hs : scan (ruleStep counting now ctx) rs.rules (s, 0) with ⟨answer, s', total⟩
  rcases ht : scan (ruleStep counting now ctx) rs'.rules (t, 0) with ⟨answer', t', total'⟩
  rw [hs, ht] at hanswer htotal hnext
  obtain rfl : answer = answer' := hanswer
  obtain rfl : total = total' := htotal
  cases answer with
  | some outcome => exact ⟨rfl, hnext⟩
  | none =>
      dsimp only
      rw [← hthreshold, ← hanomaly]
      by_cases hblocks : 0 < rs.threshold ∧ rs.threshold ≤ total
      · rw [if_pos hblocks, if_pos hblocks]
        exact ⟨rfl, hnext⟩
      · rw [if_neg hblocks, if_neg hblocks]
        exact ⟨rfl, hnext⟩

/-- Evaluate with the log counter.
Source: `budu-rules/src/ruleset.rs` `RuleSet::evaluate_counting` -/
def RuleSet.evaluateCounting (rs : RuleSet X) (now : Now) (ctx : RequestCtx) (s : RuleState X) :
    Option Outcome × RuleState X :=
  rs.evaluateInner true now ctx s

/-! ## The response pass -/

/-- One iteration over the response rules.
Source: `budu-rules/src/ruleset.rs` `RuleSet::evaluate_response` (the loop body) -/
def responseStep (now : Now) (rctx : ResponseCtx) (rule : CompiledRule X) (s : RuleState X) :
    Option Outcome × RuleState X :=
  if rule.matchesResponse now rctx s.counters then
    match rule.action with
    | .block status msg => (some (.block rule.id status msg), s)
    | .log => (none, { s with logHits := s.logHits + 1 })
    | .incr counter amount windowSecs =>
      (none, { s with
        counters := (CounterStore.incr s.counters now.mono counter rctx.client.ip amount
          windowSecs).2 })
    -- compilation refuses these in response rules
    | .allow | .rateLimit _ | .score _ => (none, s)
  else (none, s)

/-- Evaluate the response rules.
Source: `budu-rules/src/ruleset.rs` `RuleSet::evaluate_response` -/
def RuleSet.evaluateResponse (rs : RuleSet X) (now : Now) (rctx : ResponseCtx)
    (s : RuleState X) : Option Outcome × RuleState X :=
  scan (responseStep now rctx) rs.responseRules s

/-! ## The lines of `log` rules -/

/-- The id of a `log` rule that matches.
Source: `budu-rules/src/ruleset.rs` `RuleSet::evaluate_inner`, `RuleSet::evaluate_response` (the
arms of `Action::Log`) -/
def CompiledRule.logged (rule : CompiledRule X) (matches_ : Bool) : List Str :=
  match rule.action with
  | .log => if matches_ then [rule.id] else []
  | _ => []

/-- The `log` rules a pass over the request rules writes a line about.
Source: `budu-rules/src/ruleset.rs` `RuleSet::evaluate_inner` (`rule matched (log)`) -/
def RuleSet.loggedRequest (rs : RuleSet X) (counting : Bool) (now : Now) (ctx : RequestCtx)
    (s : RuleState X) : List Str :=
  scanNotes (ruleStep counting now ctx)
    (fun rule s => rule.logged (rule.matchesRequest now ctx s.1.counters)) rs.rules (s, 0)

/-- The `log` rules a pass over the response rules writes a line about.
Source: `budu-rules/src/ruleset.rs` `RuleSet::evaluate_response` (`response rule matched (log)`) -/
def RuleSet.loggedResponse (rs : RuleSet X) (now : Now) (rctx : ResponseCtx) (s : RuleState X) :
    List Str :=
  scanNotes (responseStep now rctx)
    (fun rule s => rule.logged (rule.matchesResponse now rctx s.counters)) rs.responseRules s

/-- **The tally is the number of lines**: each is counted once. -/
theorem RuleSet.logHits_evaluateCounting (rs : RuleSet X) (now : Now) (ctx : RequestCtx)
    (s : RuleState X) : (rs.evaluateCounting now ctx s).2.logHits =
      s.logHits + UInt64.ofNat (rs.loggedRequest true now ctx s).length := by
  have hpass : (rs.evaluateCounting now ctx s).2 =
      (scan (ruleStep true now ctx) rs.rules (s, 0)).2.1 := by
    unfold RuleSet.evaluateCounting RuleSet.evaluateInner
    rcases scan (ruleStep true now ctx) rs.rules (s, 0) with ⟨_ | outcome, s', total⟩
    · dsimp only
      split <;> rfl
    · rfl
  rw [hpass]
  refine scan_count (fun s : RuleState X × UInt32 => s.1.logHits) ?_ (s, 0)
  intro rule _ s
  unfold ruleStep CompiledRule.logged
  cases rule.matchesRequest now ctx s.1.counters with
  | false => cases rule.action <;> simp
  | true =>
      unfold CompiledRule.act
      cases rule.action with
      | rateLimit limiter =>
          dsimp only
          rcases limiter.check s.1.limiters now.mono ctx.client.ip with ⟨_ | _, _⟩ <;> simp
      | _ => simp

/-- The response rules raise the tally by the number of `log` rules that matched. -/
theorem RuleSet.logHits_evaluateResponse (rs : RuleSet X) (now : Now) (rctx : ResponseCtx)
    (s : RuleState X) : (rs.evaluateResponse now rctx s).2.logHits =
      s.logHits + UInt64.ofNat (rs.loggedResponse now rctx s).length := by
  refine scan_count RuleState.logHits ?_ s
  intro rule _ s
  unfold responseStep CompiledRule.logged
  cases rule.matchesResponse now rctx s.counters with
  | false => cases rule.action <;> simp
  | true => cases rule.action <;> simp

end BuduWaf.Rules
