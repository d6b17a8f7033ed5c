import BuduWaf.Rules.Evaluate
import BuduWaf.Rules.Exact

/-!
# `budu-rules`: rules that read the response body

Buffering a response body costs memory and time, so it is left out where no rule asks for it.
That is sound: the body is read through one field alone, and a compiled condition that is not on
that field does not see it.

* **`test_body_irrelevant`**: a condition on another field.
* **`not_matches_of_not_buffered`**: a condition on the body, where there is none to read.
* **`response_body_read_where_needed`**: both, over a whole evaluation.

`needsResponseBody` looks at the compiled conditions. The first half of the theorem compares two
evaluations that differ in the body only, step by step (`responseStep_body`); the second half needs
that the rules are well formed, since an operator on addresses looks past the candidates of its
field, and well-formed conditions have it on the address field alone.
-/

namespace BuduWaf.Rules

variable {X : Crates}

/-- The fields other than the body do not depend on it. -/
theorem collectResponseCandidates_body {field : Field} (hfield : field ≠ .respBody) (now : Now)
    (rctx : ResponseCtx) (body : BodyState) (counters : RateLimit.CounterStore X) :
    collectResponseCandidates now { rctx with body := body } counters field =
      collectResponseCandidates now rctx counters field := by
  cases field with
  | respBody => exact absurd rfl hfield
  | _ => rfl

/-- A condition on another field than the body does not depend on the body. -/
theorem test_body_irrelevant {c : CompiledCond X} (hfield : c.field ≠ .respBody) (now : Now)
    (rctx : ResponseCtx) (body : BodyState) (counters : RateLimit.CounterStore X) :
    c.matchesResponse now { rctx with body := body } counters =
      c.matchesResponse now rctx counters :=
  congrArg (c.test rctx.client.ip) (collectResponseCandidates_body hfield now rctx body counters)

/-- A rule set that needs no body has no condition on it. -/
theorem field_ne_of_needsResponseBody {rs : RuleSet X} (h : rs.needsResponseBody = false)
    {rule : CompiledRule X} (hrule : rule ∈ rs.responseRules) {c : CompiledCond X}
    (hc : c ∈ rule.conds) : c.field ≠ .respBody := by
  intro hfield
  have hneeded : rs.needsResponseBody = true :=
    List.any_eq_true.mpr ⟨rule, hrule, List.any_eq_true.mpr ⟨c, hc, beq_iff_eq.mpr hfield⟩⟩
  rw [h] at hneeded
  cases hneeded

/-- One rule without a condition on the body does the same whatever the body. -/
theorem responseStep_body {rule : CompiledRule X} (h : ∀ c ∈ rule.conds, c.field ≠ .respBody)
    (now : Now) (rctx : ResponseCtx) (body : BodyState) :
    responseStep now { rctx with body := body } rule = responseStep now rctx rule := by
  funext s
  have hmatches : rule.matchesResponse now { rctx with body := body } s.counters =
      rule.matchesResponse now rctx s.counters := by
    unfold CompiledRule.matchesResponse
    rw [Bool.eq_iff_iff, List.all_eq_true, List.all_eq_true]
    refine forall₂_congr fun c hc => ?_
    rw [test_body_irrelevant (h c hc)]
  unfold responseStep
  rw [hmatches]

/-- **Without a need, the body does not matter**: any two bodies give the same outcome and leave
the same counters and tally. -/
theorem evaluateResponse_body {rs : RuleSet X} (h : rs.needsResponseBody = false) (now : Now)
    (rctx : ResponseCtx) (body body' : BodyState) (s : RuleState X) :
    rs.evaluateResponse now { rctx with body := body } s =
      rs.evaluateResponse now { rctx with body := body' } s := by
  refine scan_congr (fun rule hrule => ?_) s
  have hfields : ∀ c ∈ rule.conds, c.field ≠ .respBody :=
    fun c hc => field_ne_of_needsResponseBody h hrule hc
  rw [responseStep_body hfields now rctx body, responseStep_body hfields now rctx body']

/-- A well-formed condition on the body does not hold where the body is not buffered: `cidr`,
which looks at the address instead, does not go with it. -/
theorem not_matches_of_not_buffered {c : CompiledCond X} (hwell : c.WellFormed)
    (hfield : c.field = .respBody) (hnegate : c.negate = false) (now : Now) {rctx : ResponseCtx}
    (hbody : ∀ b, rctx.body ≠ .buffered b) (counters : RateLimit.CounterStore X) :
    c.matchesResponse now rctx counters = false := by
  have hnone : collectResponseCandidates now rctx counters c.field = [] := by
    rw [hfield]
    unfold collectResponseCandidates
    cases hstate : rctx.body with
    | buffered b => exact absurd hstate (hbody b)
    | _ => rfl
  have hfits := hwell.fits
  unfold CompiledCond.matchesResponse CompiledCond.test
  rw [hnone, hnegate, Bool.xor_false]
  cases hop : c.op with
  | cidr net =>
      rw [hop, hfield] at hfits
      cases hfits
  | _ => rfl

/-- **The body is read where it is needed, and only there**: a rule set that needs no body decides
alike and counts alike on any two, and a response rule with a condition on the body that is not
inverted neither answers nor counts where the body is not buffered. -/
theorem response_body_read_where_needed {defs : List RuleDef} {scoring : ScoringConfig}
    {defaultTz : Int} {generation : Nat} {rs : RuleSet X}
    (h : compileWithTz X defs scoring defaultTz generation = .ok rs) :
    (rs.needsResponseBody = false →
      ∀ (now : Now) (status : StatusCode) (headers : HeaderMap) (client : ClientInfo) (path : Str)
        (body body' : BodyState) (s : RuleState X),
        rs.evaluateResponse now ⟨status, headers, client, path, body⟩ s =
          rs.evaluateResponse now ⟨status, headers, client, path, body'⟩ s) ∧
    ∀ rule ∈ rs.responseRules, (∃ c ∈ rule.conds, c.field = .respBody ∧ c.negate = false) →
      ∀ (now : Now) (rctx : ResponseCtx) (s : RuleState X), (∀ b, rctx.body ≠ .buffered b) →
        rule.matchesResponse now rctx s.counters = false ∧
          responseStep now rctx rule s = (none, s) := by
  refine ⟨fun hneeds now status headers client path body body' s => ?_, ?_⟩
  · exact evaluateResponse_body hneeds now ⟨status, headers, client, path, body⟩ body body' s
  · rintro rule hrule ⟨c, hc, hfield, hnegate⟩ now rctx s hbody
    have hwell := ((compiledFrom_of_compileWithTz h).responseWellFormed rule hrule).conds c hc
    have hcond := not_matches_of_not_buffered hwell hfield hnegate now hbody s.counters
    have hrule : rule.matchesResponse now rctx s.counters = false := by
      unfold CompiledRule.matchesResponse
      rw [List.all_eq_false]
      exact ⟨c, hc, by rw [hcond]; decide⟩
    refine ⟨hrule, ?_⟩
    unfold responseStep
    rw [hrule]
    rfl

/-! ## A login page -/

/-- A plain build, without optional features. -/
def loginPageBuild : Crates := .plain .none .none

/-- A rule that logs server errors, by their status. -/
def errorRule : RuleDef :=
  { id := "log-errors", phase := .response, action := .log
    when := [{ field := "status", op := "ge", value := "500" }] }

/-- Pages that show a stack trace are blocked. -/
def traceRule : RuleDef :=
  { id := "hide-traces", phase := .response
    when := [{ field := "resp_body", op := "contains", value := "Traceback" }] }

/-- The first rule without the second needs no body. -/
def errorRules : RuleSet loginPageBuild :=
  (compileWithTz loginPageBuild [errorRule] .default 0 0).toOption.get (by decide)

/-- The first rule of the example compiles. -/
theorem errorRules_compiled :
    compileWithTz loginPageBuild [errorRule] .default 0 0 = .ok errorRules := rfl

/-- The rule set of the rule about stack traces, which needs response bodies. -/
def traceRules : RuleSet loginPageBuild :=
  (compileWithTz loginPageBuild [traceRule] .default 0 0).toOption.get (by decide)

/-- The second rule of the example compiles. -/
theorem traceRules_compiled :
    compileWithTz loginPageBuild [traceRule] .default 0 0 = .ok traceRules := rfl

/-- The state before the first response. -/
def loginPageState : RuleState loginPageBuild := ⟨RateLimit.CounterStore.new, fun _ => none, 0⟩

/-- A failure is logged whatever its page says, and a streamed page is not looked into. -/
theorem streamed_page_passes :
    (errorRules.evaluateResponse ⟨0, 0⟩
        ⟨.internalServerError, .empty, ⟨.v4 0, none⟩, "/login", .buffered (Str.utf8 "Traceback")⟩
        loginPageState =
      errorRules.evaluateResponse ⟨0, 0⟩
        ⟨.internalServerError, .empty, ⟨.v4 0, none⟩, "/login", .notBuffered⟩ loginPageState) ∧
    ∃ rule ∈ traceRules.responseRules, rule.id = ("hide-traces" : Str) ∧
      responseStep ⟨0, 0⟩ ⟨.ok, .empty, ⟨.v4 0, none⟩, "/login", .notBuffered⟩ rule loginPageState =
        (none, loginPageState) := by
  refine ⟨(response_body_read_where_needed errorRules_compiled).1 rfl _ _ _ _ _ _ _ _, ?_⟩
  have hrule := List.getElem_mem (l := traceRules.responseRules) (n := 0) (by decide)
  refine ⟨_, hrule, rfl, ?_⟩
  exact ((response_body_read_where_needed traceRules_compiled).2 _ hrule
    ⟨_, List.mem_cons_self, rfl, rfl⟩ ⟨0, 0⟩ _ _ (fun b hb => by cases hb)).2

end BuduWaf.Rules
