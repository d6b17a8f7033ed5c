import Mathlib.Data.List.Forall2
import Mathlib.Tactic.Common

/-!
# Ordered passes with an early exit

A `scan` goes through a list once. Every element may change the state and may stop the pass with
an answer; the elements after the one that stops are not looked at. A rule list read top to
bottom and a stack of inspection stages are both of this kind.

* **The pass and its unfoldings**: `scan`, `scan_cons_of_some`, `scan_cons_of_none`.
* **The declarative reading** (`scan_eq_first`): the answer is that of the first position whose
  element stops in the state all earlier elements leave behind, and the final state is the one
  just after that position.
* **Invariants** (`scan_preserves`): what every element keeps, the pass keeps.
* **Two passes side by side** (`scan_rel`, `scan_rel_self`): steps that answer alike and keep a
  relation make passes that answer alike and keep it.
* **What a pass writes** (`scanNotes`): the notes of the elements it looks at, and `scan_count`: a
  counter raised by every note of a step is raised by every note of the pass.

The order in which the elements stand matters only through the first one that stops. `scan_eq_first`
says so, and is what a result about a rule list uses to name the deciding rule; the other rules go
by induction on the list with one step of the pass at the front.
-/

namespace BuduWaf

variable {α β σ τ : Type}

/-- One pass over a list: each element may change the state, and may stop the pass. -/
def scan (step : α → σ → Option β × σ) : List α → σ → Option β × σ
  | [], s => (none, s)
  | a :: as, s =>
    match step a s with
    | (some b, s') => (some b, s')
    | (none, s') => scan step as s'

section unfold

variable (step : α → σ → Option β × σ)

/-- A scan stops where the first step stops. -/
theorem scan_cons_of_some {a : α} {s s' : σ} {b : β} (h : step a s = (some b, s'))
    (as : List α) : scan step (a :: as) s = (some b, s') := by
  simp [scan, h]

/-- A scan goes on with the rest where the first step does not stop. -/
theorem scan_cons_of_none {a : α} {s s' : σ} (h : step a s = (none, s')) (as : List α) :
    scan step (a :: as) s = scan step as s' := by
  simp [scan, h]

/-- A pass that does not stop in the front part goes on in the rest. -/
theorem scan_append_of_none {front : List α} {s s' : σ} (h : scan step front s = (none, s'))
    (rest : List α) : scan step (front ++ rest) s = scan step rest s' := by
  induction front generalizing s with
  | nil =>
      obtain rfl := (Prod.mk.inj h).2
      rfl
  | cons a as ih =>
      rcases ha : step a s with ⟨_ | b, t⟩
      · rw [scan_cons_of_none step ha] at h
        rw [List.cons_append, scan_cons_of_none step ha, ih h]
      · rw [scan_cons_of_some step ha] at h
        cases h

/-- A pass that stops in the front part stops there. -/
theorem scan_append_of_some {front : List α} {s s' : σ} {b : β}
    (h : scan step front s = (some b, s')) (rest : List α) :
    scan step (front ++ rest) s = (some b, s') := by
  induction front generalizing s with
  | nil => cases h
  | cons a as ih =>
      rcases ha : step a s with ⟨_ | c, t⟩
      · rw [scan_cons_of_none step ha] at h
        rw [List.cons_append, scan_cons_of_none step ha, ih h]
      · rw [scan_cons_of_some step ha] at h
        rw [List.cons_append, scan_cons_of_some step ha, h]

end unfold

/-! ## The first element that stops -/

section first

variable (step : α → σ → Option β × σ)

/-- The state after every element of the list had its effect, whether it stops or not. -/
def passed (xs : List α) (s : σ) : σ := xs.foldl (fun s a => (step a s).2) s

/-- A pass over nothing leaves the state as it is. -/
@[simp] theorem passed_nil (s : σ) : passed step [] s = s := rfl

/-- Passing an item and more is passing the others from the state the item leaves. -/
@[simp] theorem passed_cons (a : α) (as : List α) (s : σ) :
    passed step (a :: as) s = passed step as (step a s).2 := rfl

/-- A pass over elements that never stop has all their effects. -/
theorem scan_of_forall_none {xs : List α} (h : ∀ a ∈ xs, ∀ s, (step a s).1 = none) (s : σ) :
    scan step xs s = (none, passed step xs s) := by
  induction xs generalizing s with
  | nil => rfl
  | cons a as ih =>
      have ha : step a s = (none, (step a s).2) := Prod.ext (h a List.mem_cons_self s) rfl
      rw [scan_cons_of_none step ha, passed_cons]
      exact ih (fun a' ha' => h a' (List.mem_cons_of_mem a ha')) _

/-- What the element at position `k` answers in the state the elements before it leave. -/
def stopAt (xs : List α) (s : σ) (k : Nat) : Option β :=
  xs[k]?.bind fun a => (step a (passed step (xs.take k) s)).1

/-- At the first item a scan stops with what the item says in the state it began in. -/
@[simp] theorem stopAt_cons_zero (a : α) (as : List α) (s : σ) :
    stopAt step (a :: as) s 0 = (step a s).1 := rfl

/-- At a later item it stops with what the rest says there, in the state the first item leaves. -/
@[simp] theorem stopAt_cons_succ (a : α) (as : List α) (s : σ) (k : Nat) :
    stopAt step (a :: as) s (k + 1) = stopAt step as (step a s).2 k := rfl

/-- The first position that stops the pass. -/
def firstStop (xs : List α) (s : σ) : Option Nat :=
  (List.range xs.length).find? fun k => (stopAt step xs s k).isSome

/-- The first stop is the first item, or the first stop of the rest, counted one further. -/
theorem firstStop_cons (a : α) (as : List α) (s : σ) :
    firstStop step (a :: as) s =
      if (step a s).1.isSome then some 0
      else (firstStop step as (step a s).2).map (· + 1) := by
  unfold firstStop
  rw [List.length_cons, List.range_succ_eq_map, List.find?_cons]
  cases h : (step a s).1.isSome <;>
    simp [h, List.find?_map, Function.comp_def]

/-- **A pass is decided by its first element that stops**: the answer is what that element says
in the state left by the elements before it, and nothing after it has an effect. -/
theorem scan_eq_first (xs : List α) (s : σ) :
    scan step xs s =
      match firstStop step xs s with
      | some k => (stopAt step xs s k, passed step (xs.take (k + 1)) s)
      | none => (none, passed step xs s) := by
  induction xs generalizing s with
  | nil => rfl
  | cons a as ih =>
      rw [firstStop_cons]
      rcases h : step a s with ⟨_ | b, s'⟩
      · rw [scan_cons_of_none step h, ih]
        cases firstStop step as s' <;> simp [h]
      · rw [scan_cons_of_some step h]
        simp [h]

end first

/-! ## Invariants -/

/-- What every element keeps, the pass keeps. -/
theorem scan_preserves {step : α → σ → Option β × σ} {I : σ → Prop} {xs : List α}
    (hstep : ∀ a ∈ xs, ∀ s, I s → I (step a s).2) {s : σ} (hs : I s) : I (scan step xs s).2 := by
  induction xs generalizing s with
  | nil => exact hs
  | cons a as ih =>
      have ha := hstep a List.mem_cons_self s hs
      rcases h : step a s with ⟨_ | b, s'⟩
      · rw [scan_cons_of_none step h]
        rw [h] at ha
        exact ih (fun a' ha' => hstep a' (List.mem_cons_of_mem _ ha')) ha
      · rw [scan_cons_of_some step h]
        rw [h] at ha
        exact ha

/-! ## Two passes side by side -/

/-- Steps that do the same on every element make passes that do the same. -/
theorem scan_congr {step step' : α → σ → Option β × σ} {xs : List α}
    (hstep : ∀ a ∈ xs, step a = step' a) (s : σ) : scan step xs s = scan step' xs s := by
  induction xs generalizing s with
  | nil => rfl
  | cons a as ih =>
      have ha := hstep a List.mem_cons_self
      have has : ∀ s, scan step as s = scan step' as s :=
        ih fun a' ha' => hstep a' (List.mem_cons_of_mem a ha')
      unfold scan
      rw [ha]
      rcases step' a s with ⟨_ | b, s'⟩
      · exact has s'
      · rfl

/-- Passes over two lists whose elements correspond, with steps that answer alike and keep the
relation, answer alike and keep the relation. -/
theorem scan_rel {α' : Type} {step : α → σ → Option β × σ} {step' : α' → τ → Option β × τ}
    {E : α → α' → Prop} {R : σ → τ → Prop}
    (hstep : ∀ a a' s t, E a a' → R s t →
      (step a s).1 = (step' a' t).1 ∧ R (step a s).2 (step' a' t).2)
    {xs : List α} {xs' : List α'} (hxs : List.Forall₂ E xs xs') :
    ∀ {s : σ} {t : τ}, R s t →
      (scan step xs s).1 = (scan step' xs' t).1 ∧ R (scan step xs s).2 (scan step' xs' t).2 := by
  induction hxs with
  | nil => intro s t h; exact ⟨rfl, h⟩
  | @cons a a' as as' ha _ ih =>
      intro s t h
      obtain ⟨h1, h2⟩ := hstep a a' s t ha h
      rcases hs : step a s with ⟨o, s'⟩
      rcases ht : step' a' t with ⟨o', t'⟩
      rw [hs, ht] at h1 h2
      simp only at h1 h2
      subst h1
      cases o with
      | none =>
          rw [scan_cons_of_none step hs, scan_cons_of_none step' ht]
          exact ih h2
      | some b =>
          rw [scan_cons_of_some step hs, scan_cons_of_some step' ht]
          exact ⟨rfl, h2⟩

/-- One pass from two related states stops at the same element with the same result, and leaves
related states. -/
theorem scan_rel_self {step : α → σ → Option β × σ} {R : σ → σ → Prop} {xs : List α}
    (hstep : ∀ a ∈ xs, ∀ s t, R s t → (step a s).1 = (step a t).1 ∧ R (step a s).2 (step a t).2)
    {s t : σ} (h : R s t) :
    (scan step xs s).1 = (scan step xs t).1 ∧ R (scan step xs s).2 (scan step xs t).2 := by
  refine scan_rel (E := fun a a' => a = a' ∧ a ∈ xs) ?_
    (List.forall₂_same.mpr fun _ ha => ⟨rfl, ha⟩) h
  rintro a _ s t ⟨rfl, ha⟩ h
  exact hstep a ha s t h

/-! ## What a pass writes -/

/-- The notes of a pass: those of every element it looks at, the one that stops it included. -/
def scanNotes {ν : Type} (step : α → σ → Option β × σ) (note : α → σ → List ν) :
    List α → σ → List ν
  | [], _ => []
  | a :: as, s =>
    note a s ++ match step a s with
      | (some _, _) => []
      | (none, s') => scanNotes step note as s'

/-- A counter that every step raises by its notes is raised by the notes of the pass. -/
theorem scan_count {ν : Type} {step : α → σ → Option β × σ} {note : α → σ → List ν}
    (count : σ → UInt64) {xs : List α}
    (hstep : ∀ a ∈ xs, ∀ s, count (step a s).2 = count s + UInt64.ofNat (note a s).length)
    (s : σ) : count (scan step xs s).2 =
      count s + UInt64.ofNat (scanNotes step note xs s).length := by
  induction xs generalizing s with
  | nil => exact (UInt64.add_zero (count s)).symm
  | cons a as ih =>
      have ha := hstep a List.mem_cons_self s
      unfold scanNotes
      rw [List.length_append, UInt64.ofNat_add, ← UInt64.add_assoc]
      rcases h : step a s with ⟨_ | b, s'⟩
      · rw [h] at ha
        rw [scan_cons_of_none step h, ← ha]
        exact ih (fun a' ha' => hstep a' (List.mem_cons_of_mem a ha')) s'
      · rw [h] at ha
        rw [scan_cons_of_some step h, ← ha]
        exact (UInt64.add_zero _).symm

end BuduWaf
