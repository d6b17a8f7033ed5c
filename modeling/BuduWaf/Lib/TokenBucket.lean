import Mathlib.Data.Nat.Basic
import Mathlib.Tactic.Common

/-!
# Token buckets and budgets

Requests arrive at instants of a clock and are granted or refused.

* **`grants`** counts what is granted in an interval of time.
* **`Budget`**: a potential that time raises at some rate, up to a capacity, and that every grant
  lowers by one unit. A machine with such a potential grants at most a capacity's worth plus what
  the rate yields in any interval (`Budget.grants_le`), however many other parts it has.
* **`TokenBucket.Laws`**: what it means that buckets of some type are token buckets.
  `TokenBucket.Ideal` is the textbook one.

The bound does not look into buckets. A budget is a number attached to the state of a whole
machine; that a step keeps it is shown for the machine at hand, once for every kind of step, and
the induction over the schedule is done here (`grants_within`): what the potential holds and what
time still adds to it pays for all grants to come.

A schedule gives each request the time since the one before, so that time never goes backwards and
an interval is given by its start and length on the one clock.
-/

namespace BuduWaf

variable {σ ε : Type}

/-! ## Counting grants -/

section grants

variable (step : σ → Nat → ε → Bool × σ) (start length : Nat)

/-- How many requests are granted from `start` to `start + length`, both included; a request comes
with the time since the one before. -/
def grants : σ → Nat → List (Nat × ε) → Nat
  | _, _, [] => 0
  | s, now, (elapsed, e) :: es =>
    (if (step s (now + elapsed) e).1 ∧ start ≤ now + elapsed ∧ now + elapsed ≤ start + length
      then 1 else 0) + grants (step s (now + elapsed) e).2 (now + elapsed) es

variable {step start length}

/-- Once the interval is over no grant of it counts. -/
theorem grants_of_past {s : σ} {now : Nat} (h : start + length < now) (es : List (Nat × ε)) :
    grants step start length s now es = 0 := by
  induction es generalizing s now with
  | nil => rfl
  | cons e es ih =>
      rw [grants, ih (by omega), if_neg (by omega)]

end grants

/-! ## Budgets -/

/-- All requests of a run are allowed where they come. -/
def Allowed (step : σ → Nat → ε → Bool × σ) (ok : σ → ε → Prop) :
    σ → Nat → List (Nat × ε) → Prop
  | _, _, [] => True
  | s, now, (elapsed, e) :: es =>
    ok s e ∧ Allowed step ok (step s (now + elapsed) e).2 (now + elapsed) es

/-- A condition that holds in all states holds at every request of every schedule. -/
theorem allowed_of_forall {step : σ → Nat → ε → Bool × σ} {ok : σ → ε → Prop} (h : ∀ s e, ok s e)
    (s : σ) (now : Nat) (es : List (Nat × ε)) : Allowed step ok s now es := by
  induction es generalizing s now with
  | nil => trivial
  | cons e es ih => exact ⟨h _ _, ih _ _⟩

/-- A potential that pays for grants: it is bounded, time raises it at a rate, and a grant takes
one unit of it. Only of requests that are `ok` anything is said. -/
structure Budget (step : σ → Nat → ε → Bool × σ) (ok : σ → ε → Prop) (unit rate capacity : Nat)
    (Inv : σ → Nat → Prop) (potential : σ → Nat → Nat) : Prop where
  /-- The invariant outlasts waiting. -/
  later : ∀ {s t t'}, Inv s t → t ≤ t' → Inv s t'
  /-- The invariant outlasts a request. -/
  request : ∀ {s t} (e : ε), ok s e → Inv s t → Inv (step s t e).2 t
  /-- The potential is at most the capacity. -/
  le_capacity : ∀ {s t}, Inv s t → potential s t ≤ capacity
  /-- Time raises the potential at the rate, at most. -/
  refill : ∀ {s t t'}, Inv s t → t ≤ t' → potential s t' ≤ potential s t + rate * (t' - t)
  /-- A request does not raise it, and lowers it by the unit where it is granted. -/
  spend : ∀ {s t} (e : ε), ok s e → Inv s t →
    (if (step s t e).1 then unit else 0) + potential (step s t e).2 t ≤ potential s t

namespace Budget

variable {step : σ → Nat → ε → Bool × σ} {ok : σ → ε → Prop} {unit rate capacity : Nat}
  {Inv : σ → Nat → Prop} {potential : σ → Nat → Nat}

/-- Inside the interval, the potential and what the rest of the interval yields pay for all
grants to come. -/
theorem grants_within (h : Budget step ok unit rate capacity Inv potential) {start length : Nat}
    {s : σ} {now : Nat} (hs : Inv s now) (hnow : now ≤ start + length) {es : List (Nat × ε)}
    (hes : Allowed step ok s now es) :
    grants step start length s now es * unit ≤
      potential s now + rate * (start + length - now) := by
  induction es generalizing s now with
  | nil => simp [grants]
  | cons e es ih =>
      obtain ⟨elapsed, e⟩ := e
      obtain ⟨hok, hes⟩ := hes
      by_cases hpast : start + length < now + elapsed
      · rw [grants, grants_of_past hpast, if_neg (by omega)]
        simp
      · have hlater := h.later hs (Nat.le_add_right now elapsed)
        have hrest := ih (h.request e hok hlater) (by omega) hes
        have hspend := h.spend e hok hlater
        have hrefill := h.refill hs (Nat.le_add_right now elapsed)
        have hone : (if (step s (now + elapsed) e).1 ∧ start ≤ now + elapsed ∧
              now + elapsed ≤ start + length then 1 else 0) * unit ≤
            if (step s (now + elapsed) e).1 then unit else 0 := by
          split
          · rename_i hcounted
            rw [if_pos hcounted.1]
            exact Nat.le_of_eq (Nat.one_mul unit)
          · omega
        have hsplit : rate * (start + length - now) =
            rate * (now + elapsed - now) + rate * (start + length - (now + elapsed)) := by
          rw [← Nat.mul_add]
          congr 1
          omega
        rw [grants, Nat.add_mul, hsplit]
        omega

/-- **A budget bounds the grants** of every interval by the capacity and what the rate yields. -/
theorem grants_le (h : Budget step ok unit rate capacity Inv potential) {start length : Nat}
    {s : σ} {now : Nat} (hs : Inv s now) {es : List (Nat × ε)} (hes : Allowed step ok s now es) :
    grants step start length s now es * unit ≤ capacity + rate * length := by
  induction es generalizing s now with
  | nil => simp [grants]
  | cons e es ih =>
      obtain ⟨elapsed, e⟩ := e
      have hlater := h.later hs (Nat.le_add_right now elapsed)
      by_cases hbefore : now + elapsed < start
      · rw [grants, if_neg (by omega), Nat.zero_add]
        exact ih (h.request e hes.1 hlater) hes.2
      · by_cases hpast : start + length < now + elapsed
        · rw [grants, grants_of_past hpast, if_neg (by omega)]
          simp
        · -- The interval starts here, as far as the requests can tell.
          have hrest : Allowed step ok s (now + elapsed) ((0, e) :: es) := hes
          have hwithin : grants step start length s (now + elapsed) ((0, e) :: es) * unit ≤
              potential s (now + elapsed) + rate * (start + length - (now + elapsed)) :=
            h.grants_within hlater (by omega) hrest
          have hcapacity := h.le_capacity hlater
          have hyield : rate * (start + length - (now + elapsed)) ≤ rate * length :=
            Nat.mul_le_mul_left rate (by omega)
          have hsame : grants step start length s now ((elapsed, e) :: es) =
              grants step start length s (now + elapsed) ((0, e) :: es) := rfl
          rw [hsame]
          omega

end Budget

/-! ## Token buckets -/

namespace TokenBucket

/-- Buckets are token buckets: `level` is what a bucket holds at an instant, and a bucket is
`valid` from the instant it was last asked on. A token is `unit` of what the bucket holds. -/
structure Laws {β : Type} (take : β → Nat → Bool × β) (unit rate capacity : Nat)
    (valid : β → Nat → Prop) (level : β → Nat → Nat) : Prop where
  /-- A bucket stays valid. -/
  later : ∀ {b t t'}, valid b t → t ≤ t' → valid b t'
  /-- A bucket that was asked is valid. -/
  asked : ∀ {b t}, valid b t → valid (take b t).2 t
  /-- It refills at the rate, up to the capacity. -/
  refill : ∀ {b t t'}, valid b t → t ≤ t' →
    level b t' = min capacity (level b t + rate * (t' - t))
  /-- A token is granted where there is one. -/
  granted : ∀ {b t}, valid b t → ((take b t).1 = true ↔ unit ≤ level b t)
  /-- A token that is granted is taken out of what the bucket holds. -/
  level_take : ∀ {b t}, valid b t →
    level (take b t).2 t = if unit ≤ level b t then level b t - unit else level b t

namespace Laws

variable {β : Type} {take : β → Nat → Bool × β} {unit rate capacity : Nat}
  {valid : β → Nat → Prop} {level : β → Nat → Nat}

/-- A bucket never holds more than its capacity. -/
theorem level_le (h : Laws take unit rate capacity valid level) {b : β} {t : Nat}
    (hb : valid b t) : level b t ≤ capacity := by
  have hnow := h.refill hb (Nat.le_refl t)
  omega

/-- A grant costs the bucket its price, and a refusal costs it nothing. -/
theorem spend (h : Laws take unit rate capacity valid level) {b : β} {t : Nat}
    (hb : valid b t) :
    (if (take b t).1 then unit else 0) + level (take b t).2 t ≤ level b t := by
  rw [h.level_take hb]
  by_cases hfull : unit ≤ level b t
  · rw [if_pos hfull, if_pos ((h.granted hb).mpr hfull)]
    omega
  · rw [if_neg hfull, if_neg (fun hgranted => hfull ((h.granted hb).mp hgranted))]
    omega

/-- A bucket that was left alone for long enough holds what came back in the meantime. -/
theorem le_level_of_idle (h : Laws take unit rate capacity valid level) {b : β} {t t' held : Nat}
    (hb : valid b t) (hlong : t ≤ t') (hheld : held ≤ capacity) (hback : held ≤ rate * (t' - t)) :
    held ≤ level b t' := by
  rw [h.refill hb hlong]
  omega

end Laws

/-- The textbook bucket: what it held when it was last asked. -/
structure Ideal where
  /-- What comes back in one unit of time. -/
  rate : Nat
  /-- What fits in. -/
  capacity : Nat
  /-- What it held. -/
  held : Nat
  /-- When that was. -/
  since : Nat
deriving DecidableEq

namespace Ideal

/-- What the bucket holds at an instant: what it held then, and what has come in since, up to its
capacity. -/
def level (b : Ideal) (now : Nat) : Nat := min b.capacity (b.held + b.rate * (now - b.since))

/-- Ask for a token of some size, which is granted if the bucket holds as much. -/
def take (unit : Nat) (b : Ideal) (now : Nat) : Bool × Ideal :=
  if unit ≤ b.level now then (true, { b with held := b.level now - unit, since := now })
  else (false, { b with held := b.level now, since := now })

/-- A bucket of this rate and capacity that was last asked before. -/
def Valid (rate capacity : Nat) (b : Ideal) (now : Nat) : Prop :=
  b.rate = rate ∧ b.capacity = capacity ∧ b.since ≤ now

/-- The ideal bucket obeys the laws of a token bucket. -/
theorem laws (unit rate capacity : Nat) :
    Laws (take unit) unit rate capacity (Valid rate capacity) level where
  later := by
    rintro b t t' ⟨hrate, hcapacity, hsince⟩ hlater
    exact ⟨hrate, hcapacity, Nat.le_trans hsince hlater⟩
  asked := by
    rintro b t ⟨hrate, hcapacity, hsince⟩
    unfold take
    split
    · exact ⟨hrate, hcapacity, Nat.le_refl t⟩
    · exact ⟨hrate, hcapacity, Nat.le_refl t⟩
  refill := by
    rintro b t t' ⟨rfl, rfl, hsince⟩ hlater
    have hsplit : b.rate * (t' - b.since) = b.rate * (t - b.since) + b.rate * (t' - t) := by
      rw [← Nat.mul_add]
      congr 1
      omega
    unfold level
    omega
  granted := by
    rintro b t -
    unfold take
    split <;> simp [*]
  level_take := by
    rintro b t -
    have hnow : ∀ held, held ≤ b.capacity →
        level { b with held := held, since := t } t = held := by
      intro held hheld
      unfold level
      rw [Nat.sub_self, Nat.mul_zero, Nat.add_zero]
      exact Nat.min_eq_right hheld
    have hle : b.level t ≤ b.capacity := Nat.min_le_left _ _
    unfold take
    split
    · exact hnow _ (by omega)
    · exact hnow _ hle

end Ideal

end TokenBucket

end BuduWaf
