import Mathlib.Data.List.Basic
import Mathlib.Data.List.Induction
import Mathlib.Order.Basic
import Mathlib.Tactic.Common

/-!
# Runs of a machine over events

A machine answers each event with a list of outputs and moves on; a run feeds it a list of
events. The rules below carry what one step does over to whole runs.

* **`run_hides`**: two machines run side by side, the second one without the events marked
  hidden. If matching steps answer alike and keep a relation, and hidden steps stay silent and
  keep it, then the runs answer alike. The hidden steps may rely on a condition on the state
  they start from (`Along`).
* **`run_keeps`**, **`le_run_of_along`**: what every step keeps, and what every step raises.
* **`run_history`**, **`run_histories`**: what every step keeps of the state and of all that was
  answered before it, for one machine and for two.
* **`Indistinguishable`** states answer every list of events alike.
* **`Interleaving`**: the merges of two programs' step lists that keep each program's order.

A machine is a function from a state and an event to the next state and a list of outputs; there is
no other structure on it, so a request handler, a supervisor and a whole process are all machines,
and a run of one of them is a fold. Inductions go over the list from its end where a statement is
about all that was answered before (`run_history`), and from its front where it is about a state
(`run_keeps`).
-/

namespace BuduWaf

variable {σ τ ε ο : Type}

/-- Feed a machine a list of events, collecting what it answers. -/
def run (step : σ → ε → σ × List ο) : σ → List ε → σ × List ο
  | s, [] => (s, [])
  | s, e :: es => ((run step (step s e).1 es).1, (step s e).2 ++ (run step (step s e).1 es).2)

/-- A run of no events stays where it is and puts nothing out. -/
@[simp] theorem run_nil (step : σ → ε → σ × List ο) (s : σ) : run step s [] = (s, []) := rfl

/-- A run of an event and more is the event's step and the run of the others from there. -/
@[simp] theorem run_cons (step : σ → ε → σ × List ο) (s : σ) (e : ε) (es : List ε) :
    run step s (e :: es) =
      ((run step (step s e).1 es).1, (step s e).2 ++ (run step (step s e).1 es).2) := rfl

/-- A run in two parts is the run of the first, and the run of the second from where that ends. -/
theorem run_append (step : σ → ε → σ × List ο) (s : σ) (es fs : List ε) :
    run step s (es ++ fs) =
      ((run step (run step s es).1 fs).1,
        (run step s es).2 ++ (run step (run step s es).1 fs).2) := by
  induction es generalizing s with
  | nil => rfl
  | cons e es ih => rw [List.cons_append, run_cons, run_cons, ih, List.append_assoc]

/-- **What every step keeps**, a run keeps. -/
theorem run_keeps {step : σ → ε → σ × List ο} {P : σ → Prop} {es : List ε}
    (hstep : ∀ s, ∀ e ∈ es, P s → P (step s e).1) {s : σ} (h : P s) : P (run step s es).1 := by
  induction es generalizing s with
  | nil => exact h
  | cons e es ih =>
      refine ih (fun s' e' he' => hstep s' e' (List.mem_cons_of_mem e he')) ?_
      exact hstep s e List.mem_cons_self h

/-- **What every step keeps of the state and of the answers so far**, a run keeps. -/
theorem run_history {step : σ → ε → σ × List ο} {I : σ → List ο → Prop} {s : σ} {es : List ε}
    (h : I s [])
    (hstep : ∀ before e after, es = before ++ e :: after →
      I (run step s before).1 (run step s before).2 →
      I (step (run step s before).1 e).1
        ((run step s before).2 ++ (step (run step s before).1 e).2)) :
    I (run step s es).1 (run step s es).2 := by
  induction es using List.reverseRecOn with
  | nil => exact h
  | append_singleton es e ih =>
      have hbefore : I (run step s es).1 (run step s es).2 := by
        apply ih
        intro before e' after hes
        apply hstep before e' (after ++ [e])
        rw [hes, List.append_assoc, List.cons_append]
      have hlast := hstep es e [] rfl hbefore
      rw [run_append]
      simpa using hlast

/-- **Two machines side by side**: what their steps keep of both states and of the answers so far,
their runs over the same events keep. -/
theorem run_histories {step : σ → ε → σ × List ο} {step' : τ → ε → τ × List ο}
    {I : σ → List ο → τ → List ο → Prop} {s : σ} {t : τ} (h : I s [] t [])
    (hstep : ∀ s log t log' e, I s log t log' →
      I (step s e).1 (log ++ (step s e).2) (step' t e).1 (log' ++ (step' t e).2))
    (es : List ε) :
    I (run step s es).1 (run step s es).2 (run step' t es).1 (run step' t es).2 := by
  induction es using List.reverseRecOn with
  | nil => exact h
  | append_singleton es e ih =>
      have hlast := hstep _ _ _ _ e ih
      rw [run_append, run_append]
      simpa using hlast

/-- Machines that move alike go through the same states, whatever they answer. -/
theorem run_same {ο' : Type} {step : σ → ε → σ × List ο} {step' : σ → ε → σ × List ο'}
    (h : ∀ s e, (step' s e).1 = (step s e).1) (s : σ) (es : List ε) :
    (run step' s es).1 = (run step s es).1 := by
  induction es generalizing s with
  | nil => rfl
  | cons e es ih => rw [run_cons, run_cons, h, ih]

/-- A machine whose outputs are sifted answers with the outputs that are kept. -/
theorem run_filter (step : σ → ε → σ × List ο) (keep : ο → Bool) (s : σ) (es : List ε) :
    run (fun s e => ((step s e).1, (step s e).2.filter keep)) s es =
      ((run step s es).1, (run step s es).2.filter keep) := by
  induction es generalizing s with
  | nil => rfl
  | cons e es ih => rw [run_cons, run_cons, ih, List.filter_append]

/-- The condition holds at every step of the run. -/
def Along (step : σ → ε → σ × List ο) (C : σ → ε → Prop) : σ → List ε → Prop
  | _, [] => True
  | s, e :: es => C s e ∧ Along step C (step s e).1 es

/-- A condition holds along two runs in a row iff it holds along each, the second from where the
first ends. -/
theorem along_append_iff {step : σ → ε → σ × List ο} {C : σ → ε → Prop} {s : σ} {es fs : List ε} :
    Along step C s (es ++ fs) ↔ Along step C s es ∧ Along step C (run step s es).1 fs := by
  induction es generalizing s with
  | nil => exact (and_iff_right trivial).symm
  | cons e es ih => exact (and_congr_right fun _ => ih).trans and_assoc.symm

/-- A condition that holds of the events in every state holds along every run. -/
theorem along_of_forall {step : σ → ε → σ × List ο} {C : σ → ε → Prop} {es : List ε}
    (h : ∀ s, ∀ e ∈ es, C s e) {s : σ} : Along step C s es := by
  induction es generalizing s with
  | nil => trivial
  | cons e es ih =>
      exact ⟨h s e List.mem_cons_self, ih fun s' e' he' => h s' e' (List.mem_cons_of_mem e he')⟩

/-- What grows at every step grows over a run. -/
theorem le_run_of_along {α : Type} [Preorder α] {step : σ → ε → σ × List ο} {f : σ → α} {s : σ}
    {es : List ε} (h : Along step (fun s e => f s ≤ f (step s e).1) s es) :
    f s ≤ f (run step s es).1 := by
  induction es generalizing s with
  | nil => exact le_refl _
  | cons e es ih => exact h.1.trans (ih h.2)

/-- **Hidden events stay hidden.** Run one machine over all events and another over the events
that are not hidden. -/
theorem run_hides {step : σ → ε → σ × List ο} {step' : τ → ε → τ × List ο} {R : σ → τ → Prop}
    {hidden : ε → Bool} {C : σ → ε → Prop}
    (hvisible : ∀ s t e, hidden e = false → R s t →
      (step s e).2 = (step' t e).2 ∧ R (step s e).1 (step' t e).1)
    (hhidden : ∀ s t e, hidden e = true → C s e → R s t →
      (step s e).2 = [] ∧ R (step s e).1 t)
    (es : List ε) :
    ∀ s t, R s t → Along step C s es →
      (run step s es).2 = (run step' t (es.filter fun e => !hidden e)).2 ∧
        R (run step s es).1 (run step' t (es.filter fun e => !hidden e)).1 := by
  induction es with
  | nil => intro s t h _; exact ⟨rfl, h⟩
  | cons e es ih =>
      intro s t h hC
      cases he : hidden e with
      | true =>
          obtain ⟨hout, hR⟩ := hhidden s t e he hC.1 h
          obtain ⟨h1, h2⟩ := ih _ t hR hC.2
          simp only [run_cons, hout, List.filter_cons, he, List.nil_append, Bool.not_true]
          exact ⟨h1, h2⟩
      | false =>
          obtain ⟨hout, hR⟩ := hvisible s t e he h
          obtain ⟨h1, h2⟩ := ih _ _ hR hC.2
          simp only [run_cons, List.filter_cons, he, Bool.not_false, if_true]
          exact ⟨by rw [hout, h1], h2⟩

/-! ## States no run tells apart -/

/-- Two states that answer every list of events alike. -/
def Indistinguishable (step : σ → ε → σ × List ο) (s s' : σ) : Prop :=
  ∀ es, (run step s es).2 = (run step s' es).2

namespace Indistinguishable

variable {step : σ → ε → σ × List ο} {s s' s'' : σ}

/-- A state gives the same answers as itself. -/
theorem refl (s : σ) : Indistinguishable step s s := fun _ => rfl

/-- Giving the same answers is symmetric. -/
theorem symm (h : Indistinguishable step s s') : Indistinguishable step s' s :=
  fun es => (h es).symm

/-- Giving the same answers is transitive. -/
theorem trans (h : Indistinguishable step s s') (h' : Indistinguishable step s' s'') :
    Indistinguishable step s s'' := fun es => (h es).trans (h' es)

/-- Two states that cannot be told apart answer the next event alike. -/
theorem output (h : Indistinguishable step s s') (e : ε) : (step s e).2 = (step s' e).2 := by
  have hsingle := h [e]
  simp only [run_cons, run_nil, List.append_nil] at hsingle
  exact hsingle

/-- States that cannot be told apart are led by an event to such states again. -/
theorem next (h : Indistinguishable step s s') (e : ε) :
    Indistinguishable step (step s e).1 (step s' e).1 := by
  intro es
  have hcons := h (e :: es)
  simp only [run_cons] at hcons
  rw [h.output e] at hcons
  exact List.append_cancel_left hcons

/-- A relation that one step keeps, with equal answers, holds of indistinguishable states only. -/
theorem of_rel {R : σ → σ → Prop}
    (hstep : ∀ s s' e, R s s' → (step s e).2 = (step s' e).2 ∧ R (step s e).1 (step s' e).1)
    (h : R s s') : Indistinguishable step s s' := by
  intro es
  induction es generalizing s s' with
  | nil => rfl
  | cons e es ih =>
      obtain ⟨hout, hnext⟩ := hstep s s' e h
      rw [run_cons, run_cons, hout, ih hnext]

end Indistinguishable

/-! ## Interleavings -/

/-- The merges of two lists of steps that keep the order of each. -/
inductive Interleaving : List ε → List ε → List ε → Prop
  | nil : Interleaving [] [] []
  | left {a : ε} {as bs cs : List ε} :
      Interleaving as bs cs → Interleaving (a :: as) bs (a :: cs)
  | right {b : ε} {as bs cs : List ε} :
      Interleaving as bs cs → Interleaving as (b :: bs) (b :: cs)

/-- A program that nothing comes in between of is its own only merge. -/
theorem Interleaving.nil_right_iff {as cs : List ε} : Interleaving as [] cs ↔ cs = as := by
  constructor
  · intro h
    induction as generalizing cs with
    | nil => cases h; rfl
    | cons a as ih =>
        cases h with
        | left h => rw [ih h]
  · rintro rfl
    induction cs with
    | nil => exact .nil
    | cons c cs ih => exact .left ih

/-- The first step of the second program comes after some prefix of the first program, and the
rest is merged with what is left. -/
theorem Interleaving.cons_right_iff {as bs cs : List ε} {b : ε} :
    Interleaving as (b :: bs) cs ↔
      ∃ before after rest, as = before ++ after ∧ cs = before ++ b :: rest ∧
        Interleaving after bs rest := by
  constructor
  · intro h
    induction as generalizing cs with
    | nil =>
        cases h with
        | right h => exact ⟨[], [], _, rfl, rfl, h⟩
    | cons a as ih =>
        cases h with
        | right h => exact ⟨[], a :: as, _, rfl, rfl, h⟩
        | left h =>
            obtain ⟨before, after, rest, rfl, rfl, hrest⟩ := ih h
            exact ⟨a :: before, after, rest, rfl, rfl, hrest⟩
  · rintro ⟨before, after, rest, rfl, rfl, h⟩
    induction before with
    | nil => exact .right h
    | cons a before ih => exact .left ih

end BuduWaf
