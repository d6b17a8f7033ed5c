import BuduWaf.Rules.Evaluate
import Mathlib.Algebra.BigOperators.Group.List.Basic
import Mathlib.Algebra.Order.Group.Nat

/-!
# Rule evaluation against its big-step reference

The reference says what evaluating a rule list means without running it: the state before a rule
is the fold of the effects of the rules before it, a rule is terminal in a state if it matches
there and its action ends the evaluation, and scores are summed exactly.

* **`effect`**, **`verdict`**, **`points`**: what one rule does in a state.
* **`stateAt`**, **`terminalAt`**, **`exactScore`**: what a rule list does.
* **`RuleSet.reference`**: the first terminal rule decides; without one, the exact score does.
* **`evaluate_inner_eq_reference`**: the pass of the code computes the reference. The saturating
  total compares with a 32-bit threshold like the exact one (`saturating_le_iff`).

The proof is the declarative reading of an ordered pass (`scan_eq_first`), with one iteration of the
code's loop as its step: what the iteration answers is the verdict of the rule (`stopAt_ruleStep`),
and what it leaves is the effect with the points added (`passed_ruleStep`). Sums are exact in the
reference, and the saturating total of the code is only ever compared with a threshold.
-/

namespace BuduWaf.Rules

open RateLimit

variable {X : Crates}

/-! ## One rule -/

section rule

variable (counting : Bool) (now : Now) (ctx : RequestCtx)

/-- The state after a rule: what a matching rule's action writes, else unchanged. -/
def effect (s : RuleState X) (rule : CompiledRule X) : RuleState X :=
  if rule.matchesRequest now ctx s.counters then
    match rule.action with
    | .log => if counting then { s with logHits := s.logHits + 1 } else s
    | .rateLimit limiter =>
      { s with limiters := (limiter.check s.limiters now.mono ctx.client.ip).2 }
    | .incr counter amount windowSecs =>
      { s with counters :=
          (CounterStore.incr s.counters now.mono counter ctx.client.ip amount windowSecs).2 }
    | .block _ _ | .allow | .score _ => s
  else s

/-- The outcome a rule fixes in a state, if it matches and is terminal there. -/
def verdict (s : RuleState X) (rule : CompiledRule X) : Option Outcome :=
  if rule.matchesRequest now ctx s.counters then
    match rule.action with
    | .block status msg => some (.block rule.id status msg)
    | .allow => some (.allow rule.id)
    | .rateLimit limiter =>
      match (limiter.check s.limiters now.mono ctx.client.ip).1 with
      | .ok _ => none
      | .error secs => some (.rateLimited rule.id secs)
    | .log | .score _ | .incr _ _ _ => none
  else none

/-- The points a rule adds in a state: its own if it is a score and matches, and none otherwise. -/
def points (s : RuleState X) (rule : CompiledRule X) : UInt32 :=
  if rule.matchesRequest now ctx s.counters then
    match rule.action with
    | .score p => p
    | _ => 0
  else 0

/-! ## A rule list -/

/-- The state just before the rule at position `k`. -/
def stateAt (rules : List (CompiledRule X)) (s : RuleState X) (k : Nat) : RuleState X :=
  (rules.take k).foldl (effect counting now ctx) s

/-- The outcome the rule at position `k` fixes in the state just before it. -/
def terminalAt (rules : List (CompiledRule X)) (s : RuleState X) (k : Nat) : Option Outcome :=
  rules[k]?.bind (verdict now ctx (stateAt counting now ctx rules s k))

/-- The sum of the points of all matching score rules, each tested in the state just before
it. -/
def exactScore (rules : List (CompiledRule X)) (s : RuleState X) : Nat :=
  ((List.range rules.length).map fun k =>
    (rules[k]?.elim 0 (points now ctx (stateAt counting now ctx rules s k))).toNat).sum

/-- What evaluating a rule set means: the first terminal rule fixes the outcome, and what the
rules up to it did is all that is done. Without one, the outcome is the anomaly block exactly
when scoring is on and the exact score reaches the threshold. (The text of the block shows the
score as the code counts it, at most `u32::MAX`.) -/
def RuleSet.reference (rs : RuleSet X) (s : RuleState X) : Option Outcome × RuleState X :=
  match (List.range rs.rules.length).find? fun k =>
      (terminalAt counting now ctx rs.rules s k).isSome with
  | some k =>
    (terminalAt counting now ctx rs.rules s k, stateAt counting now ctx rs.rules s (k + 1))
  | none =>
    (if 0 < rs.threshold.toNat ∧ rs.threshold.toNat ≤ exactScore counting now ctx rs.rules s then
        some (rs.anomaly (min (exactScore counting now ctx rs.rules s) (2 ^ 32 - 1)))
      else none,
      stateAt counting now ctx rs.rules s rs.rules.length)

end rule

/-! ## Saturating sums -/

/-- Adding no points changes no total. -/
theorem saturatingAdd32_zero (a : UInt32) : saturatingAdd32 a 0 = a := by
  have ha := a.toNat_lt
  simp only [saturatingAdd32, UInt32.toNat_zero, Nat.add_zero, UInt32.add_zero]
  rw [if_pos ha]

/-- A saturating sum is the sum, or the largest number where it is beyond. -/
theorem toNat_saturatingAdd32 (a b : UInt32) :
    (saturatingAdd32 a b).toNat = min (a.toNat + b.toNat) (2 ^ 32 - 1) := by
  unfold saturatingAdd32
  split
  case isTrue h => rw [UInt32.toNat_add, Nat.mod_eq_of_lt h]; omega
  case isFalse h => rw [UInt32.toNat_ofNat']; omega

/-- A 32-bit threshold cannot tell a saturated total from the exact one. -/
theorem saturating_le_iff {t total : UInt32} {exact : Nat}
    (h : total.toNat = min exact (2 ^ 32 - 1)) : t ≤ total ↔ t.toNat ≤ exact := by
  have ht := t.toNat_lt
  rw [UInt32.le_iff_toNat_le, h]
  omega

/-! ## The pass computes the reference -/

section pass

variable {counting : Bool} {now : Now} {ctx : RequestCtx}

/-- One iteration is the reference's verdict, effect and points. -/
theorem ruleStep_eq (rule : CompiledRule X) (s : RuleState X) (total : UInt32) :
    ruleStep counting now ctx rule (s, total) =
      (verdict now ctx s rule, effect counting now ctx s rule,
        saturatingAdd32 total (points now ctx s rule)) := by
  unfold ruleStep verdict effect points
  split
  case isFalse => simp [saturatingAdd32_zero]
  case isTrue =>
      unfold CompiledRule.act
      cases rule.action with
      | block status msg => simp [saturatingAdd32_zero]
      | allow => simp [saturatingAdd32_zero]
      | log => cases counting <;> simp [saturatingAdd32_zero]
      | rateLimit limiter =>
          rcases h : limiter.check s.limiters now.mono ctx.client.ip with ⟨_ | _, ls⟩ <;>
            simp [h, saturatingAdd32_zero]
      | score p => simp
      | incr counter amount windowSecs => simp [saturatingAdd32_zero]

/-- The first rule's points, and the score of the others in the state it leaves. -/
theorem exactScore_cons (rule : CompiledRule X) (rules : List (CompiledRule X))
    (s : RuleState X) :
    exactScore counting now ctx (rule :: rules) s =
      (points now ctx s rule).toNat
        + exactScore counting now ctx rules (effect counting now ctx s rule) := by
  simp only [exactScore, List.length_cons, List.range_succ_eq_map, List.map_cons, List.sum_cons,
    List.map_map]
  rfl

variable (counting now ctx) in
/-- What the rules of a list leave behind when none of them stops the pass. -/
theorem passed_ruleStep (rules : List (CompiledRule X)) (s : RuleState X) (total : UInt32) :
    (passed (ruleStep counting now ctx) rules (s, total)).1 =
        rules.foldl (effect counting now ctx) s ∧
      (passed (ruleStep counting now ctx) rules (s, total)).2.toNat =
        min (total.toNat + exactScore counting now ctx rules s) (2 ^ 32 - 1) := by
  induction rules generalizing s total with
  | nil =>
      have := total.toNat_lt
      refine ⟨rfl, ?_⟩
      simp only [passed_nil, exactScore, List.length_nil, List.range_zero, List.map_nil,
        List.sum_nil]
      omega
  | cons rule rules ih =>
      simp only [passed_cons, ruleStep_eq, List.foldl_cons]
      obtain ⟨hstate, htotal⟩ := ih (effect counting now ctx s rule)
        (saturatingAdd32 total (points now ctx s rule))
      refine ⟨hstate, ?_⟩
      rw [htotal, toNat_saturatingAdd32, exactScore_cons]
      omega

/-- A position stops the pass exactly where the reference has a terminal rule. -/
theorem stopAt_ruleStep (rules : List (CompiledRule X)) (s : RuleState X) (total : UInt32)
    (k : Nat) :
    stopAt (ruleStep counting now ctx) rules (s, total) k =
      terminalAt counting now ctx rules s k := by
  unfold stopAt terminalAt stateAt
  obtain ⟨hstate, -⟩ := passed_ruleStep counting now ctx (rules.take k) s total
  rw [← hstate]
  cases rules[k]? with
  | none => rfl
  | some rule =>
      generalize passed (ruleStep counting now ctx) (rules.take k) (s, total) = p
      simp only [Option.bind_some]
      rw [show p = (p.1, p.2) from rfl, ruleStep_eq]

/-- **Evaluating a rule set computes its big-step reference**, for every rule set, request,
clock reading and state of the counters, the limiters and the tally. -/
theorem evaluate_inner_eq_reference (rs : RuleSet X) (counting : Bool) (now : Now)
    (ctx : RequestCtx) (s : RuleState X) :
    rs.evaluateInner counting now ctx s = rs.reference counting now ctx s := by
  unfold RuleSet.evaluateInner RuleSet.reference
  rw [scan_eq_first]
  simp only [firstStop, stopAt_ruleStep]
  cases hfirst : (List.range rs.rules.length).find? fun k =>
      (terminalAt counting now ctx rs.rules s k).isSome with
  | some k =>
      have hsome : (terminalAt counting now ctx rs.rules s k).isSome := by
        simpa using List.find?_some hfirst
      obtain ⟨outcome, ho⟩ := Option.isSome_iff_exists.mp hsome
      obtain ⟨hstate, -⟩ := passed_ruleStep counting now ctx (rs.rules.take (k + 1)) s 0
      simp only [ho, stateAt, ← hstate]
  | none =>
      obtain ⟨hstate, htotal⟩ := passed_ruleStep counting now ctx rs.rules s 0
      rw [UInt32.toNat_zero, Nat.zero_add] at htotal
      simp only [saturating_le_iff htotal, htotal, stateAt, List.take_length, ← hstate,
        UInt32.lt_iff_toNat_lt, UInt32.toNat_zero]
      split <;> rfl

end pass

end BuduWaf.Rules
