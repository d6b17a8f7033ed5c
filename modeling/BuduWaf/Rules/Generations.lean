import BuduWaf.Lib.Except
import BuduWaf.Rules.Evaluate
import Mathlib.Data.List.Nodup

/-!
# `budu-rules`: two loads of one rule file

Every load gives its `rate_limit` rules new limiters, so the rule sets of two loads differ in the
cells of their limiters and in nothing else.

* **`load_generation`**: load number `g` of a file is load number 0 with its limiters in the cells
  of generation `g`.
* **`Twins`**: a state as it is under load number `g` and one as it is under load number 0, with
  the same counters and with buckets that answer alike.
* **`evaluateCounting_twins`**, **`evaluateResponse_twins`**: the two loads then decide alike and
  leave twins.

Renaming cells is what relates two loads, and every compile function commutes with it
(`compileRules_generation`). What does not commute is the state behind the cells: new ones are
empty. So twins are states whose buckets answer alike from an instant on, and a reload keeps twins
exactly where the buckets that are dropped would have answered as new ones do (`reload`).
-/

namespace BuduWaf.Rules

open RateLimit

variable {X : Crates}

/-! ## The cells of a generation -/

/-- The cell at the same place in another load; the global limiter keeps its own. -/
def cellIn (generation : Nat) : Cell → Cell
  | .global => .global
  | .rule _ position => .rule generation position

/-- The same limiter in another load, with a cell of that load. -/
def limiterIn (generation : Nat) (l : IpRateLimiter) : IpRateLimiter :=
  { l with cell := cellIn generation l.cell }

/-- The same action in another load. -/
def Action.inGeneration (generation : Nat) : Action → Action
  | .rateLimit l => .rateLimit (limiterIn generation l)
  | action => action

/-- The same rule in another load. -/
def CompiledRule.inGeneration (generation : Nat) (rule : CompiledRule X) : CompiledRule X :=
  { rule with action := rule.action.inGeneration generation }

/-- The same rule set in another load: only the cells of its limiters differ. -/
def RuleSet.inGeneration (generation : Nat) (rs : RuleSet X) : RuleSet X :=
  { rs with
    rules := rs.rules.map (CompiledRule.inGeneration generation)
    responseRules := rs.responseRules.map (CompiledRule.inGeneration generation) }

/-- The limiter of a `rate_limit` rule. -/
def CompiledRule.limiter? (rule : CompiledRule X) : Option IpRateLimiter :=
  match rule.action with
  | .rateLimit l => some l
  | _ => none

/-- The limiters of the request rules, in the order of the rules. -/
def RuleSet.limiters (rs : RuleSet X) : List IpRateLimiter :=
  rs.rules.filterMap CompiledRule.limiter?

/-- The limiter of a rule is one of the limiters of its rule set. -/
theorem RuleSet.mem_limiters {rs : RuleSet X} {rule : CompiledRule X} {l : IpRateLimiter}
    (hrule : rule ∈ rs.rules) (haction : rule.action = .rateLimit l) : l ∈ rs.limiters :=
  List.mem_filterMap.mpr ⟨rule, hrule, by rw [CompiledRule.limiter?, haction]⟩

/-- A rule set in another generation has its limiters in that generation. -/
theorem RuleSet.limiters_inGeneration (rs : RuleSet X) (generation : Nat) :
    (rs.inGeneration generation).limiters = rs.limiters.map (limiterIn generation) := by
  unfold RuleSet.limiters RuleSet.inGeneration
  rw [List.filterMap_map, List.map_filterMap]
  apply List.filterMap_congr
  intro rule _
  show (rule.inGeneration generation).limiter? = rule.limiter?.map (limiterIn generation)
  unfold CompiledRule.limiter? CompiledRule.inGeneration
  cases rule.action <;> rfl

/-- Another load wants response bodies for the same rules. -/
theorem RuleSet.needsResponseBody_inGeneration (rs : RuleSet X) (generation : Nat) :
    (rs.inGeneration generation).needsResponseBody = rs.needsResponseBody := by
  unfold RuleSet.needsResponseBody RuleSet.inGeneration
  rw [List.any_map]
  rfl

/-! ## Loading a file again -/

section load

variable (X) (generation position : Nat)

/-- An action compiles in every generation to the same, but for its cell. -/
theorem compileAction_generation (def_ : RuleDef) :
    compileAction def_ (.rule generation position) =
      (compileAction def_ (.rule 0 position)).map (Action.inGeneration generation) := by
  unfold compileAction
  cases def_.action with
  | block => cases StatusCode.fromU16 def_.status <;> rfl
  | allow => rfl
  | log => rfl
  | rateLimit =>
      dsimp only
      split <;> rfl
  | score =>
      dsimp only
      split <;> rfl
  | incr =>
      dsimp only
      split <;> rfl

/-- A rule compiles in every generation to the same, but for its cell. -/
theorem compileRule_generation (defaultTz : Int) (def_ : RuleDef) :
    compileRule X defaultTz (.rule generation position) def_ =
      (compileRule X defaultTz (.rule 0 position) def_).map
        (CompiledRule.inGeneration generation) := by
  unfold compileRule
  rw [compileAction_generation]
  cases def_.when.mapM fun c => compileCond X def_.id c defaultTz with
  | error e => rfl
  | ok conds =>
      simp only [bind, Except.bind]
      cases conds.isEmpty with
      | true => rfl
      | false =>
          simp only [Bool.false_eq_true, if_false, pure, Except.pure]
          cases conds.forM fun cond => checkField def_ cond.field with
          | error e => rfl
          | ok _ =>
              dsimp only
              split
              · rfl
              · cases compileAction def_ (.rule 0 position) <;> rfl

/-- The rules compile in every generation to the same, but for their cells. -/
theorem compileRules_generation (defaultTz : Int) (defs : List RuleDef) :
    compileRules X defaultTz generation position defs =
      (compileRules X defaultTz 0 position defs).map fun r =>
        (r.1.map (CompiledRule.inGeneration generation),
          r.2.map (CompiledRule.inGeneration generation)) := by
  induction defs generalizing position with
  | nil => rfl
  | cons def_ rest ih =>
      unfold compileRules
      rw [compileRule_generation, ih]
      cases compileRule X defaultTz (.rule 0 position) def_ with
      | error e => rfl
      | ok rule =>
          cases compileRules X defaultTz 0 (position + 1) rest with
          | error e => rfl
          | ok r => cases hphase : def_.phase <;> rfl

/-- **Another load of a file** gives the same rule set with its limiters in other cells. -/
theorem load_generation (fs : FileSystem) (path : Str) (scoring : ScoringConfig)
    (defaultTz : Int) :
    RuleSet.load X fs path scoring defaultTz generation =
      (RuleSet.load X fs path scoring defaultTz 0).map (RuleSet.inGeneration generation) := by
  have hscoring : ∀ rules responseRules : List (CompiledRule X),
      applyScoring X (rules.map (CompiledRule.inGeneration generation))
          (responseRules.map (CompiledRule.inGeneration generation)) scoring =
        (applyScoring X rules responseRules scoring).map (RuleSet.inGeneration generation) := by
    intro rules responseRules
    unfold applyScoring
    cases StatusCode.fromU16 scoring.status <;> rfl
  unfold RuleSet.load
  split
  · exact hscoring [] []
  · cases (fs.readToString path).mapError fun e => RuleError.read (path ++ (": " : Str) ++ e) with
    | error e => rfl
    | ok text =>
        simp only [bind, Except.bind]
        cases (X.tomlRules text).mapError RuleError.parse with
        | error e => rfl
        | ok defs =>
            simp only [compileWithTz, compileRules_generation X generation 0, bind]
            cases compileRules X defaultTz 0 0 defs with
            | error e => rfl
            | ok r => exact hscoring r.1 r.2

end load

/-! ## No two limiters of a load share a cell -/

/-- Limiters of load number 0, each in a cell of its own, at some position or later. -/
structure Placed (position : Nat) (limiters : List IpRateLimiter) : Prop where
  /-- No two share a cell. -/
  nodup : (limiters.map IpRateLimiter.cell).Nodup
  /-- Each has the cell of its rule. -/
  cells : ∀ l ∈ limiters, ∃ pos, position ≤ pos ∧ l.cell = .rule 0 pos

namespace Placed

variable {position : Nat} {limiters : List IpRateLimiter}

/-- An empty list of limiters is placed from every position on. -/
theorem nil : Placed position [] := ⟨List.nodup_nil, fun _ hl => absurd hl List.not_mem_nil⟩

/-- Limiters at later positions are at later positions than any before. -/
theorem of_succ (h : Placed (position + 1) limiters) : Placed position limiters := by
  refine ⟨h.nodup, ?_⟩
  intro l hl
  obtain ⟨pos, hpos, hcell⟩ := h.cells l hl
  exact ⟨pos, by omega, hcell⟩

/-- Limiters stay placed with one more before the others, at the position before theirs. -/
theorem cons (h : Placed (position + 1) limiters) {l : IpRateLimiter}
    (hl : l.cell = .rule 0 position) : Placed position (l :: limiters) := by
  constructor
  · rw [List.map_cons, List.nodup_cons]
    refine ⟨?_, h.nodup⟩
    intro hmem
    obtain ⟨l', hl', hcell⟩ := List.mem_map.mp hmem
    obtain ⟨pos, hpos, hcell'⟩ := h.cells l' hl'
    rw [hl, hcell'] at hcell
    injection hcell with _ hpos'
    omega
  · intro l' hl'
    rcases List.mem_cons.mp hl' with rfl | hl'
    · exact ⟨position, Nat.le_refl _, hl⟩
    · exact h.of_succ.cells l' hl'

end Placed

/-- A `rate_limit` action gets the limiter of the cell it is compiled for. -/
theorem cell_of_compileAction {def_ : RuleDef} {cell : Cell} {l : IpRateLimiter}
    (h : compileAction def_ cell = .ok (.rateLimit l)) : l.cell = cell := by
  unfold compileAction at h
  cases haction : def_.action with
  | rateLimit =>
      simp only [haction] at h
      split at h
      · cases h
      · injection h with h
        injection h with h
        rw [← h]
        rfl
  | block =>
      simp only [haction] at h
      split at h <;> cases h
  | score =>
      simp only [haction] at h
      split at h <;> cases h
  | incr =>
      simp only [haction] at h
      split at h <;> cases h
  | allow => simp only [haction] at h; cases h
  | log => simp only [haction] at h; cases h

/-- A `rate_limit` rule gets the limiter of the cell it is compiled for. -/
theorem cell_of_compileRule {defaultTz : Int} {cell : Cell} {def_ : RuleDef}
    {rule : CompiledRule X} (h : compileRule X defaultTz cell def_ = .ok rule)
    {l : IpRateLimiter} (hl : rule.limiter? = some l) : l.cell = cell := by
  obtain ⟨-, haction, -⟩ := compileRule_spec h
  unfold CompiledRule.limiter? at hl
  split at hl
  · rename_i hrule
    obtain rfl := Option.some.inj hl
    rw [hrule] at haction
    exact cell_of_compileAction haction
  · cases hl

/-- The limiters of the request rules from some position on. -/
theorem placed_of_compileRules {defaultTz : Int} {position : Nat} {defs : List RuleDef}
    {req resp : List (CompiledRule X)}
    (h : compileRules X defaultTz 0 position defs = .ok (req, resp)) :
    Placed position (req.filterMap CompiledRule.limiter?) := by
  induction defs generalizing position req resp with
  | nil =>
      obtain ⟨rfl, -⟩ := Prod.mk.inj (Except.ok.inj h)
      exact .nil
  | cons def_ rest ih =>
      unfold compileRules at h
      obtain ⟨rule, hrule, h⟩ := bind_ok_iff.mp h
      obtain ⟨⟨req', resp'⟩, hrest, h⟩ := bind_ok_iff.mp h
      have hplaced := ih hrest
      cases hphase : def_.phase with
      | response =>
          simp only [hphase] at h
          obtain ⟨rfl, -⟩ := Prod.mk.inj (Except.ok.inj h)
          exact hplaced.of_succ
      | request =>
          simp only [hphase] at h
          obtain ⟨rfl, -⟩ := Prod.mk.inj (Except.ok.inj h)
          rw [List.filterMap_cons]
          cases hl : rule.limiter? with
          | none => exact hplaced.of_succ
          | some l => exact hplaced.cons (cell_of_compileRule hrule hl)

/-- The limiters of a loaded file have cells of their own. -/
theorem placed_of_load {fs : FileSystem} {path : Str} {scoring : ScoringConfig} {defaultTz : Int}
    {rs : RuleSet X} (h : RuleSet.load X fs path scoring defaultTz 0 = .ok rs) :
    Placed 0 rs.limiters := by
  unfold RuleSet.load at h
  unfold RuleSet.limiters
  split at h
  · rw [rules_of_applyScoring h]
    exact .nil
  · obtain ⟨text, -, h⟩ := bind_ok_iff.mp h
    obtain ⟨defs, -, h⟩ := bind_ok_iff.mp h
    unfold compileWithTz at h
    obtain ⟨⟨req, resp⟩, hrules, h⟩ := bind_ok_iff.mp h
    rw [rules_of_applyScoring h]
    exact placed_of_compileRules hrules

/-! ## Twin states -/

/-- A state under load number `generation` of the rule set, and one under its load number 0, that
give the same answers from an instant on. -/
structure Twins (rs : RuleSet X) (generation now : Nat) (s t : RuleState X) : Prop where
  /-- The counters are the same. -/
  counters : s.counters = t.counters
  /-- The tally is the same. -/
  logHits : s.logHits = t.logHits
  /-- The global buckets are the same. -/
  global : s.limiters .global = t.limiters .global
  /-- The buckets of each rule answer alike. -/
  answers : ∀ l ∈ rs.limiters, l.SameAnswers now
    ((limiterIn generation l).buckets s.limiters) (l.buckets t.limiters)
  /-- No bucket of a later load is there yet. -/
  unused : ∀ later, generation < later → ∀ position, s.limiters (.rule later position) = none

namespace Twins

variable {rs : RuleSet X} {generation now : Nat} {s t : RuleState X}

/-- Twins stay twins while time passes. -/
theorem later (h : Twins rs generation now s t) (elapsed : Nat) :
    Twins rs generation (now + elapsed) s t :=
  { h with answers := fun l hl => (h.answers l hl).later elapsed }

/-- Twins stay twins where the global cell is set to the same on both sides. -/
theorem setGlobal (h : Twins rs generation now s t) (hplaced : Placed 0 rs.limiters)
    (c : (X.moka IpAddr X.Bucket).Content) :
    Twins rs generation now { s with limiters := s.limiters.set .global c }
      { t with limiters := t.limiters.set .global c } := by
  refine { h with global := ?_, answers := ?_, unused := ?_ }
  · show s.limiters.set .global c .global = t.limiters.set .global c .global
    rw [Limiters.set_self, Limiters.set_self]
  · intro l hl
    obtain ⟨position, -, hcell⟩ := hplaced.cells l hl
    have hne : l.cell ≠ .global := by rw [hcell]; rintro ⟨⟩
    have hne' : (limiterIn generation l).cell ≠ .global := by
      rw [limiterIn, hcell]; rintro ⟨⟩
    rw [IpRateLimiter.buckets_set_of_ne hne', IpRateLimiter.buckets_set_of_ne hne]
    exact h.answers l hl
  · intro later hlater pos
    show s.limiters.set .global c (.rule later pos) = none
    rw [Limiters.set_of_ne (by rintro ⟨⟩)]
    exact h.unused later hlater pos

/-- The global limiter has the same buckets on both sides. -/
theorem buckets_global (h : Twins rs generation now s t) {l : IpRateLimiter}
    (hl : l.cell = .global) : l.buckets s.limiters = l.buckets t.limiters := by
  unfold IpRateLimiter.buckets
  rw [hl, h.global]

/-- A check of the global limiter answers alike on twins, and leaves twins. -/
theorem checkGlobal (h : Twins rs generation now s t) (hplaced : Placed 0 rs.limiters)
    {l : IpRateLimiter} (hl : l.cell = .global) (ip : IpAddr) :
    (l.check s.limiters now ip).1 = (l.check t.limiters now ip).1 ∧
      Twins rs generation now { s with limiters := (l.check s.limiters now ip).2 }
        { t with limiters := (l.check t.limiters now ip).2 } := by
  have hnext := h.setGlobal hplaced (l.checkIn (l.buckets s.limiters) now ip).2
  rw [IpRateLimiter.check_fst, IpRateLimiter.check_fst, IpRateLimiter.check_snd,
    IpRateLimiter.check_snd, hl, ← h.buckets_global hl]
  exact ⟨rfl, hnext⟩

/-- A check of a rule's limiter answers alike on twins, and leaves twins. -/
theorem checkRule (h : Twins rs generation now s t) (hplaced : Placed 0 rs.limiters)
    {l : IpRateLimiter} (hl : l ∈ rs.limiters) (ip : IpAddr) :
    ((limiterIn generation l).check s.limiters now ip).1 = (l.check t.limiters now ip).1 ∧
      Twins rs generation now
        { s with limiters := ((limiterIn generation l).check s.limiters now ip).2 }
        { t with limiters := (l.check t.limiters now ip).2 } := by
  obtain ⟨position, -, hcell⟩ := hplaced.cells l hl
  have hcell' : (limiterIn generation l).cell = .rule generation position := by
    rw [limiterIn, hcell, cellIn]
  obtain ⟨hanswer, hnext⟩ := (h.answers l hl).checkIn ip
  refine ⟨hanswer, { h with global := ?_, answers := ?_, unused := ?_ }⟩
  · show ((limiterIn generation l).check s.limiters now ip).2 .global =
      (l.check t.limiters now ip).2 .global
    rw [IpRateLimiter.check_snd, IpRateLimiter.check_snd, hcell, hcell',
      Limiters.set_of_ne (by rintro ⟨⟩), Limiters.set_of_ne (by rintro ⟨⟩)]
    exact h.global
  · intro l' hl'
    by_cases hsame : l'.cell = l.cell
    · obtain rfl := List.inj_on_of_nodup_map hplaced.nodup hl' hl hsame
      rw [IpRateLimiter.buckets_check, IpRateLimiter.buckets_check]
      exact hnext
    · have hsame' : (limiterIn generation l').cell ≠ (limiterIn generation l).cell := by
        obtain ⟨position', -, hcell''⟩ := hplaced.cells l' hl'
        rw [hcell', limiterIn, hcell'', cellIn]
        rw [hcell, hcell''] at hsame
        intro heq
        injection heq with _ hposition
        exact hsame (congrArg _ hposition)
      rw [IpRateLimiter.check_snd, IpRateLimiter.check_snd,
        IpRateLimiter.buckets_set_of_ne hsame', IpRateLimiter.buckets_set_of_ne hsame]
      exact h.answers l' hl'
  · intro later hlater position'
    have hne : Cell.rule later position' ≠ (limiterIn generation l).cell := by
      rw [hcell']
      intro heq
      injection heq with hlater' _
      omega
    show ((limiterIn generation l).check s.limiters now ip).2 (.rule later position') = none
    rw [IpRateLimiter.check_snd, Limiters.set_of_ne hne]
    exact h.unused later hlater position'

/-- One more load keeps twins, if the limiters in force answer like new ones. -/
theorem reload (h : Twins rs generation now s t) (hplaced : Placed 0 rs.limiters)
    (hnew : ∀ l ∈ (rs.inGeneration generation).limiters, l.LikeNew now s.limiters) :
    Twins rs (generation + 1) now s t := by
  refine { h with answers := ?_, unused := ?_ }
  · intro l hl
    obtain ⟨position, -, hcell⟩ := hplaced.cells l hl
    have hunused : s.limiters (limiterIn (generation + 1) l).cell = none := by
      rw [limiterIn, hcell]
      exact h.unused _ (Nat.lt_succ_self _) _
    have hmem : limiterIn generation l ∈ (rs.inGeneration generation).limiters := by
      rw [RuleSet.limiters_inGeneration]
      exact List.mem_map_of_mem hl
    have hlike : l.SameAnswers now ((limiterIn generation l).buckets s.limiters)
        ((X.moka IpAddr X.Bucket).build (some l.timeToIdle)) :=
      hnew (limiterIn generation l) hmem
    have hnext := IpRateLimiter.likeNew_of_unused hunused now
    exact hnext.trans (hlike.symm.trans (h.answers l hl))
  · intro later hlater
    exact h.unused later (by omega)

end Twins

/-! ## Two loads decide alike -/

/-- The rules of two loads, side by side. -/
theorem forall₂_inGeneration (rules : List (CompiledRule X)) (generation : Nat) :
    List.Forall₂ (fun rule rule' => rule' ∈ rules ∧ rule = rule'.inGeneration generation)
      (rules.map (CompiledRule.inGeneration generation)) rules := by
  rw [List.forall₂_map_left_iff]
  exact List.forall₂_same.mpr fun rule hrule => ⟨hrule, rfl⟩

section evaluate

variable {rs : RuleSet X} {generation : Nat} {now : Now}

/-- One response rule under two loads decides alike on twins, and leaves twins. -/
theorem responseStep_twins (rctx : ResponseCtx) (rule : CompiledRule X) {s t : RuleState X}
    (h : Twins rs generation now.mono s t) :
    (responseStep now rctx (rule.inGeneration generation) s).1 =
        (responseStep now rctx rule t).1 ∧
      Twins rs generation now.mono (responseStep now rctx (rule.inGeneration generation) s).2
        (responseStep now rctx rule t).2 := by
  have hmatches : (rule.inGeneration generation).matchesResponse now rctx s.counters =
      rule.matchesResponse now rctx t.counters := by
    rw [h.counters]
    rfl
  unfold responseStep
  rw [hmatches]
  split
  · simp only [CompiledRule.inGeneration]
    cases rule.action with
    | block status msg => exact ⟨rfl, h⟩
    | allow => exact ⟨rfl, h⟩
    | log => exact ⟨rfl, { h with logHits := congrArg (· + 1) h.logHits }⟩
    | rateLimit l => exact ⟨rfl, h⟩
    | score points => exact ⟨rfl, h⟩
    | incr counter amount windowSecs =>
        refine ⟨rfl, { h with counters := ?_ }⟩
        simp only [Action.inGeneration, h.counters]
  · exact ⟨rfl, h⟩

/-- **The response rules of two loads decide alike** on twins, and leave twins. -/
theorem evaluateResponse_twins (rctx : ResponseCtx) {s t : RuleState X}
    (h : Twins rs generation now.mono s t) :
    ((rs.inGeneration generation).evaluateResponse now rctx s).1 =
        (rs.evaluateResponse now rctx t).1 ∧
      Twins rs generation now.mono ((rs.inGeneration generation).evaluateResponse now rctx s).2
        (rs.evaluateResponse now rctx t).2 :=
  scan_rel (fun _ rule' _ _ hrule h => hrule.2 ▸ responseStep_twins rctx rule' h)
    (forall₂_inGeneration rs.responseRules generation) h

variable (hplaced : Placed 0 rs.limiters)

include hplaced

/-- One request rule under two loads decides alike on twins, and leaves twins. -/
theorem ruleStep_twins (counting : Bool) (ctx : RequestCtx) {rule : CompiledRule X}
    (hrule : rule ∈ rs.rules) {s t : RuleState X × UInt32}
    (h : s.2 = t.2 ∧ Twins rs generation now.mono s.1 t.1) :
    (ruleStep counting now ctx (rule.inGeneration generation) s).1 =
        (ruleStep counting now ctx rule t).1 ∧
      (ruleStep counting now ctx (rule.inGeneration generation) s).2.2 =
          (ruleStep counting now ctx rule t).2.2 ∧
        Twins rs generation now.mono
          (ruleStep counting now ctx (rule.inGeneration generation) s).2.1
          (ruleStep counting now ctx rule t).2.1 := by
  obtain ⟨htotal, htwins⟩ := h
  have hmatches : (rule.inGeneration generation).matchesRequest now ctx s.1.counters =
      rule.matchesRequest now ctx t.1.counters := by
    rw [htwins.counters]
    rfl
  unfold ruleStep
  rw [hmatches]
  split
  · unfold CompiledRule.act
    simp only [CompiledRule.inGeneration]
    cases haction : rule.action with
    | block status msg => exact ⟨rfl, htotal, htwins⟩
    | allow => exact ⟨rfl, htotal, htwins⟩
    | log =>
        refine ⟨rfl, htotal, { htwins with logHits := ?_ }⟩
        simp only [Action.inGeneration, htwins.logHits]
    | rateLimit l =>
        obtain ⟨hanswer, hnext⟩ :=
          htwins.checkRule hplaced (RuleSet.mem_limiters hrule haction) ctx.client.ip
        simp only [Action.inGeneration]
        rcases hs : (limiterIn generation l).check s.1.limiters now.mono ctx.client.ip
          with ⟨answer, limiters⟩
        rcases ht : l.check t.1.limiters now.mono ctx.client.ip with ⟨answer', limiters'⟩
        rw [hs, ht] at hanswer hnext
        obtain rfl : answer = answer' := hanswer
        cases answer with
        | ok _ => exact ⟨rfl, htotal, hnext⟩
        | error secs => exact ⟨rfl, htotal, hnext⟩
    | score points => exact ⟨rfl, congrArg (saturatingAdd32 · points) htotal, htwins⟩
    | incr counter amount windowSecs =>
        refine ⟨rfl, htotal, { htwins with counters := ?_ }⟩
        simp only [Action.inGeneration, htwins.counters]
  · exact ⟨rfl, htotal, htwins⟩

/-- **The request rules of two loads decide alike** on twins, and leave twins. -/
theorem evaluateCounting_twins (ctx : RequestCtx) {s t : RuleState X}
    (h : Twins rs generation now.mono s t) :
    ((rs.inGeneration generation).evaluateCounting now ctx s).1 =
        (rs.evaluateCounting now ctx t).1 ∧
      Twins rs generation now.mono ((rs.inGeneration generation).evaluateCounting now ctx s).2
        (rs.evaluateCounting now ctx t).2 := by
  obtain ⟨hanswer, htotal, hnext⟩ := scan_rel
    (R := fun s t : RuleState X × UInt32 => s.2 = t.2 ∧ Twins rs generation now.mono s.1 t.1)
    (fun rule rule' s t hrule h => hrule.2 ▸ ruleStep_twins hplaced true ctx hrule.1 h)
    (forall₂_inGeneration rs.rules generation) (s := (s, 0)) (t := (t, 0)) ⟨rfl, h⟩
  exact (rs.inGeneration generation).evaluateInner_rel rs rfl rfl hanswer htotal hnext

end evaluate

end BuduWaf.Rules
