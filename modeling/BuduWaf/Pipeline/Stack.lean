import BuduWaf.Config
import Mathlib.Data.List.Forall2

/-!
# `budu-pipeline`: running a stack of stages

A stack is run cheapest stage first; a stage continues, breaks with a decision, or panics under
`catch_unwind`, and the fail policy says what a panic means.

* **`runStages`**: one pass over the stack, an instance of `scan`. The code logs the name of a
  stage that panics; the names are collected next to the context.
* **`run_closed_of_panic`**: under the closed policy a logged panic is the panic block.
* **`run_open_skips_iff`**: under the open policy the run is that of the stack without the
  stages that panicked, for every prefix of the stack, if and only if each of those stages left
  the context as it found it. The context is handed on as it is after the unwinding, so a stage
  that wrote before it panicked is not skipped but half run.

The pass is `scan` with the context, the state behind it and the log of panics as its state. Whether
a panic breaks or is passed over is decided in one place (`stageStep`). For the equivalence the
stack without its panicking stages is run beside the stack itself: stage by stage they are in the
same world as long as every panic so far was clean (`outcome_open_of_cleanly`), and the first one
that was not shows in the context, for the prefix of the stack that ends with it.
-/

namespace BuduWaf.Pipeline

variable {ω : Type}

/-! ## The run -/

/-- The decision of the fail-closed policy.
Source: `budu-pipeline/src/lib.rs` `Pipeline::run` -/
def panicBlock : WafDecision :=
  .block "pipeline.panic" .internalServerError "inspection error"

/-- One iteration over the stack.
Source: `budu-pipeline/src/lib.rs` `Pipeline::run` (the loop body) -/
def stageStep (onError : OnError) (stage : Stage ω) (s : ω × List Str) :
    Option WafDecision × (ω × List Str) :=
  match stage.inspect s.1 with
  | (.cont, w) => (none, w, s.2)
  | (.brk decision, w) => (some decision, w, s.2)
  | (.panic, w) =>
    match onError with
    | .closed => (some panicBlock, w, s.2 ++ [stage.name])
    | .open => (none, w, s.2 ++ [stage.name])

/-- What a run gives: the decision, the context, and the names of the stages that panicked. -/
structure Evaluation (ω : Type) where
  /-- The decision. -/
  decision : WafDecision
  /-- The context afterwards. -/
  ctx : ω
  /-- The stages logged as panicked, in order. -/
  panicked : List Str

/-- Run a stack of stages.
Source: `budu-pipeline/src/lib.rs` `Pipeline::run` -/
def runStages (onError : OnError) (stages : List (Stage ω)) (w : ω) : Evaluation ω :=
  match scan (stageStep onError) stages (w, []) with
  | (some decision, w', panicked) => ⟨decision, w', panicked⟩
  | (none, w', panicked) => ⟨.allow, w', panicked⟩

/-- What every stage of a stack keeps of its context, a run of the stack keeps. -/
theorem runStages_preserves {onError : OnError} {stages : List (Stage ω)} {I : ω → Prop}
    (hstages : ∀ stage ∈ stages, ∀ w, I w → I (stage.inspect w).2) {w : ω} (hw : I w) :
    I (runStages onError stages w).ctx := by
  have hscan : I (scan (stageStep onError) stages (w, [])).2.1 := by
    refine scan_preserves (I := fun s : ω × List Str => I s.1) ?_ hw
    intro stage hmem s hs
    have hinspect := hstages stage hmem s.1 hs
    unfold stageStep
    rcases h : stage.inspect s.1 with ⟨_ | _ | _, w'⟩ <;> rw [h] at hinspect
    · exact hinspect
    · exact hinspect
    · cases onError <;> exact hinspect
  unfold runStages
  rcases h : scan (stageStep onError) stages (w, []) with ⟨_ | _, w', log⟩ <;>
    rw [h] at hscan <;> exact hscan

/-- Stages that answer alike on related contexts and keep the relation make stacks that do. -/
theorem runStages_rel {ω' : Type} {onError : OnError} {stages : List (Stage ω)}
    {stages' : List (Stage ω')} {R : ω → ω' → Prop}
    (hstages : List.Forall₂ (fun stage stage' => stage.name = stage'.name ∧
      ∀ w w', R w w' → (stage.inspect w).1 = (stage'.inspect w').1 ∧
        R (stage.inspect w).2 (stage'.inspect w').2) stages stages')
    {w : ω} {w' : ω'} (hw : R w w') :
    (runStages onError stages w).decision = (runStages onError stages' w').decision ∧
      (runStages onError stages w).panicked = (runStages onError stages' w').panicked ∧
        R (runStages onError stages w).ctx (runStages onError stages' w').ctx := by
  have hscan : (scan (stageStep onError) stages (w, [])).1 =
        (scan (stageStep onError) stages' (w', [])).1 ∧
      (scan (stageStep onError) stages (w, [])).2.2 =
          (scan (stageStep onError) stages' (w', [])).2.2 ∧
        R (scan (stageStep onError) stages (w, [])).2.1
          (scan (stageStep onError) stages' (w', [])).2.1 := by
    refine scan_rel (R := fun (s : ω × List Str) (t : ω' × List Str) => s.2 = t.2 ∧ R s.1 t.1) ?_
      hstages ⟨rfl, hw⟩
    rintro stage stage' ⟨v, log⟩ ⟨v', log'⟩ ⟨hname, hinspect⟩ ⟨rfl, hv⟩
    obtain ⟨hresult, hnext⟩ := hinspect v v' hv
    unfold stageStep
    rcases hs : stage.inspect v with ⟨result, u⟩
    rcases ht : stage'.inspect v' with ⟨result', u'⟩
    rw [hs, ht] at hresult hnext
    obtain rfl : result = result' := hresult
    cases result with
    | cont => exact ⟨rfl, rfl, hnext⟩
    | brk d => exact ⟨rfl, rfl, hnext⟩
    | panic =>
        cases onError with
        | closed => exact ⟨rfl, congrArg (log ++ [·]) hname, hnext⟩
        | «open» => exact ⟨rfl, congrArg (log ++ [·]) hname, hnext⟩
  obtain ⟨hdecision, hlog, hctx⟩ := hscan
  unfold runStages
  rcases hs : scan (stageStep onError) stages (w, []) with ⟨d, v, log⟩
  rcases ht : scan (stageStep onError) stages' (w', []) with ⟨d', v', log'⟩
  rw [hs, ht] at hdecision hlog hctx
  obtain rfl : d = d' := hdecision
  cases d with
  | none => exact ⟨rfl, hlog, hctx⟩
  | some d => exact ⟨rfl, hlog, hctx⟩

/-! ## The closed policy -/

/-- A pass over a stack that never panicked logs nothing; one that did ends with the panic
block. -/
theorem scan_closed_log (stages : List (Stage ω)) (w : ω) (log : List Str) :
    (scan (stageStep .closed) stages (w, log)).2.2 = log ∨
      (scan (stageStep .closed) stages (w, log)).1 = some panicBlock := by
  induction stages generalizing w with
  | nil => exact .inl rfl
  | cons stage stages ih =>
      rcases h : stage.inspect w with ⟨_ | decision | _, w'⟩
      · have hstep : stageStep .closed stage (w, log) = (none, w', log) := by
          simp [stageStep, h]
        rw [scan_cons_of_none _ hstep]
        exact ih w'
      · have hstep : stageStep .closed stage (w, log) = (some decision, w', log) := by
          simp [stageStep, h]
        rw [scan_cons_of_some _ hstep]
        exact .inl rfl
      · have hstep : stageStep .closed stage (w, log) =
            (some panicBlock, w', log ++ [stage.name]) := by
          simp [stageStep, h]
        rw [scan_cons_of_some _ hstep]
        exact .inr rfl

/-- Under the closed policy a run in which a stage panicked ends in the panic block. -/
theorem run_closed_of_panic {stages : List (Stage ω)} {w : ω}
    (h : (runStages .closed stages w).panicked ≠ []) :
    (runStages .closed stages w).decision = panicBlock := by
  unfold runStages at h ⊢
  have hlog := scan_closed_log stages w []
  rcases hs : scan (stageStep .closed) stages (w, []) with ⟨_ | decision, w', log⟩ <;>
    simp_all

/-! ## The open policy -/

/-- The stack without the stages that panic when it is run from a context. -/
def survivors : List (Stage ω) → ω → List (Stage ω)
  | [], _ => []
  | stage :: stages, w =>
    match stage.inspect w with
    | (.cont, w') => stage :: survivors stages w'
    | (.brk _, _) => stage :: stages
    | (.panic, w') => survivors stages w'

/-- Every stage that panics when the stack is run from a context hands back the context it was
given. -/
def PanicsCleanly : List (Stage ω) → ω → Prop
  | [], _ => True
  | stage :: stages, w =>
    match stage.inspect w with
    | (.cont, w') => PanicsCleanly stages w'
    | (.brk _, _) => True
    | (.panic, w') => w' = w ∧ PanicsCleanly stages w

/-- What a pass over a stack decides, and the context it leaves. -/
def outcome (onError : OnError) (stages : List (Stage ω)) (w : ω) : WafDecision × ω :=
  ((runStages onError stages w).decision, (runStages onError stages w).ctx)

/-- The log of panics is only written: it does not influence the pass. -/
theorem scan_log (onError : OnError) (stages : List (Stage ω)) (w : ω) (log log' : List Str) :
    (scan (stageStep onError) stages (w, log)).1 = (scan (stageStep onError) stages (w, log')).1 ∧
      (scan (stageStep onError) stages (w, log)).2.1 =
        (scan (stageStep onError) stages (w, log')).2.1 := by
  refine scan_rel_self (R := fun s t : ω × List Str => s.1 = t.1) ?_ rfl
  rintro stage _ ⟨w, l⟩ ⟨_, l'⟩ rfl
  unfold stageStep
  rcases h : stage.inspect w with ⟨_ | _ | _, w'⟩ <;> cases onError <;> simp

section unfold

variable (onError : OnError) {stage : Stage ω} {w w' : ω} (stages : List (Stage ω))

/-- Without stages everything is let through. -/
@[simp] theorem outcome_nil (w : ω) : outcome onError [] w = (.allow, w) := rfl

/-- A stage that lets through leaves the outcome to the others. -/
theorem outcome_cons_cont (h : stage.inspect w = (.cont, w')) :
    outcome onError (stage :: stages) w = outcome onError stages w' := by
  have hstep : stageStep onError stage (w, []) = (none, w', []) := by simp [stageStep, h]
  unfold outcome runStages
  rw [scan_cons_of_none _ hstep]

/-- A stage that decides gives the outcome, and the later ones are not asked. -/
theorem outcome_cons_brk {decision : WafDecision} (h : stage.inspect w = (.brk decision, w')) :
    outcome onError (stage :: stages) w = (decision, w') := by
  have hstep : stageStep onError stage (w, []) = (some decision, w', []) := by
    simp [stageStep, h]
  unfold outcome runStages
  rw [scan_cons_of_some _ hstep]

/-- Where panics are skipped, one leaves the outcome to the others, in the world it left. -/
theorem outcome_open_cons_panic (h : stage.inspect w = (.panic, w')) :
    outcome .open (stage :: stages) w = outcome .open stages w' := by
  have hstep : stageStep .open stage (w, []) = (none, w', [] ++ [stage.name]) := by
    simp [stageStep, h]
  have hlog := scan_log .open stages w' ([] ++ [stage.name]) []
  unfold outcome runStages
  rw [scan_cons_of_none _ hstep]
  rcases h1 : scan (stageStep .open) stages (w', [] ++ [stage.name]) with ⟨_ | _, _, _⟩ <;>
    rcases h2 : scan (stageStep .open) stages (w', []) with ⟨_ | _, _, _⟩ <;>
      simp_all

end unfold

/-- Stages that panic without having changed anything are skipped, as if they were not there. -/
theorem outcome_open_of_cleanly {stages : List (Stage ω)} {w : ω} (h : PanicsCleanly stages w) :
    outcome .open stages w = outcome .open (survivors stages w) w := by
  induction stages generalizing w with
  | nil => rfl
  | cons stage stages ih =>
      rcases hi : stage.inspect w with ⟨_ | decision | _, w'⟩
      · simp only [PanicsCleanly, hi] at h
        simp only [survivors, hi, outcome_cons_cont .open _ hi]
        exact ih h
      · simp only [survivors, hi]
      · simp only [PanicsCleanly, hi] at h
        obtain ⟨rfl, h⟩ := h
        simp only [survivors, hi, outcome_open_cons_panic _ hi]
        exact ih h

/-- Whatever panics in a prefix of the stack panics in the stack. -/
theorem cleanly_of_append {stages rest : List (Stage ω)} {w : ω}
    (h : PanicsCleanly (stages ++ rest) w) : PanicsCleanly stages w := by
  induction stages generalizing w with
  | nil => trivial
  | cons stage stages ih =>
      rw [List.cons_append] at h
      rcases hi : stage.inspect w with ⟨_ | decision | _, w'⟩ <;>
        simp only [PanicsCleanly, hi] at h ⊢
      · exact ih h
      · exact ⟨h.1, ih h.2⟩

/-- **Fail-open skips exactly the broken stages** (decides alike and hands on the same context,
after every prefix of the stack) if and only if each stage that panics left its context
alone. -/
theorem run_open_skips_iff (stages : List (Stage ω)) (w : ω) :
    (∀ run rest, stages = run ++ rest →
      outcome .open run w = outcome .open (survivors run w) w) ↔
      PanicsCleanly stages w := by
  constructor
  · induction stages generalizing w with
    | nil => intro _; trivial
    | cons stage stages ih =>
        intro h
        have hrest : ∀ run rest, stages = run ++ rest →
            outcome .open (stage :: run) w = outcome .open (survivors (stage :: run) w) w :=
          fun run rest hs => h (stage :: run) rest (by rw [hs, List.cons_append])
        rcases hi : stage.inspect w with ⟨_ | decision | _, w'⟩
        · simp only [PanicsCleanly, hi]
          apply ih w'
          intro run rest hs
          have hrun := hrest run rest hs
          simpa only [survivors, hi, outcome_cons_cont .open _ hi] using hrun
        · simp only [PanicsCleanly, hi]
        · -- the prefix that ends with this stage shows the context it left
          have hself : w' = w := by
            have hfirst := hrest [] stages rfl
            simp only [survivors, hi, outcome_open_cons_panic _ hi, outcome_nil] at hfirst
            exact (Prod.mk.inj hfirst).2
          subst hself
          simp only [PanicsCleanly, hi, true_and]
          apply ih w'
          intro run rest hs
          have hrun := hrest run rest hs
          simpa only [survivors, hi, outcome_open_cons_panic _ hi] using hrun
  · rintro h run rest rfl
    exact outcome_open_of_cleanly (cleanly_of_append h)

/-- A request with nothing to look at but its client. -/
def plainRequest : RequestCtx :=
  { method := "GET", path := "/", query := none, headers := .empty,
    client := ⟨.v4 0x01020304#32, none⟩, body := .notBuffered, normalized := .default }

/-- A stage that writes the normalized path and panics. -/
def writeThenPanic : Stage RequestCtx where
  name := "half"
  inspect ctx := (.panic, { ctx with normalized := ⟨some "half", none⟩ })

/-- A stage that writes the normalized path and panics is not skipped: what it wrote stays for
the stages after it. -/
theorem run_open_keeps_half_mutated_context :
    outcome .open [writeThenPanic] plainRequest ≠
      outcome .open (survivors [writeThenPanic] plainRequest) plainRequest := by
  decide

end BuduWaf.Pipeline
