import BuduWaf.CounterMap
import BuduWaf.Rules.Counters

/-!
# `budu-rules`: numeric tests of a counter

A count is a saturating `u64`, and a numeric operator reads its decimal form as an `i64`. From
`2 ^ 63` on it does not read, and no numeric operator matches.

* **`CounterTest.matches_iff`**: what a test of a counter says.
* **`LivesThrough`**, **`countAt_of_live`**: a counter that lives on counts all additions.
* **`counter_tests_exact_iff`**: after any calls, which tests compare the count, and for how long
  `gt` stays true once it is.

The count is known from the refinement of the store (`CounterMap`), so the theorem is about numbers:
the sum of the additions of a trailing run, cut at `2 ^ 64`, against the number of a test, cut at
`2 ^ 63`. Persistence of `gt` needs that the counter lives on, and that the sum stays below the
second cut; past it the test turns false although the count has only grown.
-/

namespace BuduWaf.Rules

open RateLimit

variable {X : Crates}

/-! ## One test -/

/-- The operators that compare numbers. -/
inductive CounterTest where
  | gt | ge | lt | le
deriving DecidableEq

namespace CounterTest

/-- The operator, with the number it compares to. -/
def op (X : Crates) (n : Int) : CounterTest → Op X
  | gt => .gt n
  | ge => .ge n
  | lt => .lt n
  | le => .le n

/-- What the operator says of a count, as integers are compared. -/
def Holds (n : Int) (count : Nat) : CounterTest → Prop
  | gt => (count : Int) > n
  | ge => (count : Int) ≥ n
  | lt => (count : Int) < n
  | le => (count : Int) ≤ n

/-- A condition on a counter matches where the count fits an `i64` and compares so. -/
theorem matches_iff (test : CounterTest) (n : Int) (name : Str) (now : Now) (ctx : RequestCtx)
    (store : CounterStore X) :
    (threshold X name (test.op X n)).matchesRequest now ctx store = true ↔
      (CounterStore.get store now.mono name ctx.client.ip).toNat < 2 ^ 63 ∧
        test.Holds n (CounterStore.get store now.mono name ctx.client.ip).toNat := by
  have hop : ∀ net, test.op X n ≠ .cidr net := by
    intro net
    cases test <;> exact nofun
  rw [threshold_matches hop]
  cases test <;> exact numericTest_ofNat.trans (and_congr_right fun _ => decide_eq_true_iff)

/-- The test compares the count just when that fits an `i64`, or a larger count could not pass. -/
theorem matches_iff_holds_iff (test : CounterTest) {n : Int} (hn : n < 2 ^ 63) (name : Str)
    (now : Now) (ctx : RequestCtx) (store : CounterStore X) :
    ((threshold X name (test.op X n)).matchesRequest now ctx store = true ↔
        test.Holds n (CounterStore.get store now.mono name ctx.client.ip).toNat) ↔
      (CounterStore.get store now.mono name ctx.client.ip).toNat < 2 ^ 63 ∨
        test = lt ∨ test = le := by
  rw [test.matches_iff]
  generalize (CounterStore.get store now.mono name ctx.client.ip).toNat = count
  by_cases hfits : count < 2 ^ 63
  · exact iff_of_true (and_iff_right hfits) (.inl hfits)
  · have hover : (2 : Int) ^ 63 ≤ (count : Int) := by omega
    simp only [hfits, false_and, false_iff, false_or]
    cases test with
    | gt => exact iff_of_false (fun h => h (by unfold Holds; omega)) (by simp)
    | ge => exact iff_of_false (fun h => h (by unfold Holds; omega)) (by simp)
    | lt => exact iff_of_true (by unfold Holds; omega) (.inl rfl)
    | le => exact iff_of_true (by unfold Holds; omega) (.inr rfl)

end CounterTest

/-! ## Counters that live on -/

/-- What additions add up to, without a bound. -/
def total (sums : List Increment) : Nat := (sums.map fun i => i.amount.toNat).sum

/-- A counter lives through further additions and until an instant: each of them falls before the
counter is forgotten, and so does the instant. -/
def LivesThrough (sums more : List Increment) (now : Nat) : Prop :=
  (sums ++ more).IsChain Increment.Continues ∧ ∀ last ∈ (sums ++ more).getLast?, now < last.expiry

/-- Before the last expiry a counter is at its sum, or at the largest `u64`. -/
theorem countAt_of_live {sums : List Increment} {now : Nat}
    (h : ∀ last ∈ sums.getLast?, now < last.expiry) :
    countAt sums now = min (total sums) (2 ^ 64 - 1) := by
  unfold countAt
  cases hlast : sums.getLast? with
  | none =>
      rw [List.getLast?_eq_none_iff.mp hlast]
      rfl
  | some last =>
      have hlive := h last hlast
      simp only [if_pos hlive, total]

/-- A counter is never above the sum of what was added. -/
theorem countAt_le_total (sums : List Increment) (now : Nat) : countAt sums now ≤ total sums := by
  unfold countAt
  split
  · split
    · exact Nat.min_le_left _ _
    · exact Nat.zero_le _
  · exact Nat.zero_le _

/-- The sum of amounts in a row is the sum of the first and that of the others. -/
theorem total_append (sums more : List Increment) :
    total (sums ++ more) = total sums + total more := by
  unfold total
  rw [List.map_append, List.sum_append]

/-- The additions of calls and of calls after them. -/
theorem increments_append (pair : Str × IpAddr) (start : Nat) (calls more : List TimedCall) :
    TimedCall.increments pair start (calls ++ more) =
      TimedCall.increments pair start calls ++
        TimedCall.increments pair (start + (calls.map TimedCall.elapsed).sum) more := by
  induction calls generalizing start with
  | nil => rfl
  | cons c calls ih =>
      simp only [List.cons_append, TimedCall.increments, ih, List.map_cons, List.sum_cons,
        Nat.add_assoc, List.append_assoc]

/-- Some calls take the time that is between them. -/
theorem clock_run (s : CounterStore X × Nat) (calls : List TimedCall) :
    (BuduWaf.run TimedCall.serve s calls).1.2 = s.2 + (calls.map TimedCall.elapsed).sum := by
  induction calls generalizing s with
  | nil => rfl
  | cons c calls ih =>
      rw [run_cons, ih, TimedCall.serve_clock, List.map_cons, List.sum_cons, Nat.add_assoc]

/-! ## After any calls -/

section run

variable {abs : (X.moka Str Counter).Content → Cache.Timed Str Counter}

/-- **A numeric test of a counter compares the count while that is below `2 ^ 63`**, and a `gt` that
is true stays true while the counter lives and its additions stay below `2 ^ 63`. -/
theorem counter_tests_exact_iff (hmoka : (X.moka Str Counter).ModelledBy abs)
    (htext : Function.Injective X.ipText) (hfree : ∀ ip, Char.ofNat 1 ∉ X.ipText ip)
    (start : Nat) (calls : List TimedCall) (name : Str) (ctx : RequestCtx) {sums : List Increment}
    (hsums : IsTrailingRun Increment.Continues sums
      (TimedCall.increments (name, ctx.client.ip) start calls))
    {n : Int} (hn : n < 2 ^ 63) :
    let s := (BuduWaf.run TimedCall.serve ((CounterStore.new : CounterStore X), start) calls).1
    (∀ wall elapsed, ∀ test : CounterTest,
      ((threshold X name (test.op X n)).matchesRequest ⟨wall, s.2 + elapsed⟩ ctx s.1 = true ↔
          test.Holds n (CounterStore.get s.1 (s.2 + elapsed) name ctx.client.ip).toNat) ↔
        countAt sums (s.2 + elapsed) < 2 ^ 63 ∨ test = .lt ∨ test = .le) ∧
    ∀ wall wall' elapsed, ∀ more : List TimedCall,
      let s' := (BuduWaf.run TimedCall.serve s more).1
      let added := TimedCall.increments (name, ctx.client.ip) s.2 more
      (threshold X name (.gt n)).matchesRequest ⟨wall, s.2⟩ ctx s.1 = true →
      LivesThrough sums added (s'.2 + elapsed) →
        ((threshold X name (.gt n)).matchesRequest ⟨wall', s'.2 + elapsed⟩ ctx s'.1 = true ↔
          total sums + total added < 2 ^ 63) := by
  intro s
  have hread := (counter_store_refines_map hmoka htext hfree start calls name ctx.client.ip hsums).1
  refine ⟨?_, ?_⟩
  · intro wall elapsed test
    rw [test.matches_iff_holds_iff hn, hread elapsed]
  · intro wall wall' elapsed more s' added htrue hlives
    have hover : n < (countAt sums s.2 : Int) := by
      have hbefore := ((CounterTest.gt.matches_iff n name ⟨wall, s.2⟩ ctx s.1).mp htrue).2
      have hzero := hread 0
      rw [Nat.add_zero] at hzero
      rw [hzero] at hbefore
      exact hbefore
    have hrun : IsTrailingRun Increment.Continues (sums ++ added)
        (TimedCall.increments (name, ctx.client.ip) start (calls ++ more)) := by
      rw [increments_append, ← clock_run (CounterStore.new (X := X), start)]
      exact hsums.append hlives.1
    have hafter := (counter_store_refines_map hmoka htext hfree start (calls ++ more) name
      ctx.client.ip hrun).1 elapsed
    rw [run_append] at hafter
    have hcount : (CounterStore.get s'.1 (s'.2 + elapsed) name ctx.client.ip).toNat =
        min (total sums + total added) (2 ^ 64 - 1) := by
      rw [← total_append, ← countAt_of_live hlives.2]
      exact hafter
    have hgrown := countAt_le_total sums s.2
    refine (CounterTest.gt.matches_iff n name ⟨wall', s'.2 + elapsed⟩ ctx s'.1).trans ?_
    unfold CounterTest.Holds
    dsimp only
    rw [hcount]
    omega

end run

/-! ## A count that does not fit -/

/-- A request of a client that is counted. -/
def heavyHitter : RequestCtx :=
  ⟨"GET", "/", none, .empty, ⟨.v4 0xC0000201, none⟩, .notBuffered, .default⟩

/-- An addition to its counter, a second after the last one. -/
def heavyHit (amount : UInt64) : TimedCall := ⟨nanos, "hits", .v4 0xC0000201, .incr amount 60⟩

/-- The store and the clock after some of them. -/
def afterHits (amounts : List UInt64) : CounterStore (.plain .none .none) × Nat :=
  (BuduWaf.run TimedCall.serve (CounterStore.new, 0) (amounts.map heavyHit)).1

/-- More than ten hits are counted, and then so many that the test is no longer true. -/
theorem heavy_hits_not_over :
    (threshold (.plain .none .none) "hits" (.gt 10)).matchesRequest ⟨0, (afterHits [11]).2⟩
        heavyHitter (afterHits [11]).1 = true ∧
      ¬((threshold (.plain .none .none) "hits" (.gt 10)).matchesRequest
          ⟨0, (afterHits [11, 9223372036854775808]).2⟩ heavyHitter
          (afterHits [11, 9223372036854775808]).1 = true ↔
        CounterTest.gt.Holds 10 (CounterStore.get (afterHits [11, 9223372036854775808]).1
          (afterHits [11, 9223372036854775808]).2 "hits" (.v4 0xC0000201)).toNat) := by
  refine ⟨by decide +kernel, ?_⟩
  have hcount : (CounterStore.get (afterHits [11, 9223372036854775808]).1
      (afterHits [11, 9223372036854775808]).2 "hits" (.v4 0xC0000201)).toNat =
      9223372036854775819 := by decide +kernel
  rw [hcount]
  intro h
  have htrue := h.mpr (show (10 : Int) < 9223372036854775819 by decide)
  exact absurd htrue (by decide +kernel)

/-- Five hits more keep the test true, as their total is below the bound. -/
theorem more_hits_stay_over :
    (threshold (.plain .none .none) "hits" (.gt 10)).matchesRequest ⟨0, (afterHits [11, 5]).2⟩
        heavyHitter (afterHits [11, 5]).1 = true ↔
      total [⟨nanos, 11, 60⟩] + total [⟨2 * nanos, 5, 60⟩] < 2 ^ 63 := by
  have hexact := (counter_tests_exact_iff (X := .plain .none .none) .self Plain.ipText_injective
    Plain.separator_not_mem_ipText 0 [heavyHit 11] "hits" heavyHitter
    (isTrailingRun_trailingRun _) (n := 10) (by decide)).2 0 0 0 [heavyHit 5]
  exact hexact (by decide +kernel) ⟨by decide +kernel, by decide +kernel⟩

end BuduWaf.Rules
