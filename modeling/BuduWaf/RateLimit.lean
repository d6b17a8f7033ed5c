import BuduWaf.Crates
import BuduWaf.Lib.Runs

/-!
# `budu-ratelimit`: token buckets and counters

* **`IpRateLimiter`**: one `governor` bucket per client address in an idle-evicting `moka` cache.
  A limiter is a handle: the cache lives behind an `Arc`, in a `Cell` of the limiter store, and
  everything that holds the handle shares it. A cell that was never used holds an empty cache.
* **`IpRateLimiter.SameAnswers`**: caches of buckets that no sequence of checks, at whatever
  later instants, tells apart.
* **`globalLimiter`**: the limiter of the pipeline's own stage.
* **`CounterStore`**: named counters per client address, each with a time to live that every
  write restarts.

A check is modelled in two layers, as the code has it: looking the bucket up in the cache, which
may create it and restarts its idle time, and asking the bucket, which is a value behind a pointer
that the cache does not watch. `SameAnswers` speaks about the two together, and only about what a
client can see of them.

The counter store joins name and address to one text with a separator between them. That different
pairs have different texts is a theorem elsewhere, not an assumption here.
-/

namespace BuduWaf.RateLimit

variable (X : Crates)

/-- Where a limiter's cache lives: the pipeline's global limiter, or the limiter of the rule at
some position of the rule set loaded as number `generation`. -/
inductive Cell where
  | global
  | rule (generation position : Nat)
deriving DecidableEq

/-- The caches behind all limiter handles. -/
abbrev Limiters := Cell → Option (X.moka IpAddr X.Bucket).Content

/-- A per-address token-bucket limiter.
Source: `budu-ratelimit/src/lib.rs` `IpRateLimiter` -/
structure IpRateLimiter where
  /-- Where its `buckets` live. -/
  cell : Cell
  /-- Rate and capacity of every bucket. -/
  quota : Quota
  /-- Idle time of a bucket, in nanoseconds. -/
  timeToIdle : Nat

/-- Nanoseconds in a second, the unit of governor's clock. -/
def nanos : Nat := 1000000000

/-- A limiter in a given cell: `burst = 0` falls back to `rps`, `rps = 0` to one.
Source: `budu-ratelimit/src/lib.rs` `IpRateLimiter::new` -/
def IpRateLimiter.new (cell : Cell) (rps burst : UInt32) (ttlSecs : UInt64) : IpRateLimiter :=
  let rps' : { n : UInt32 // n ≠ 0 } := if h : rps = 0 then ⟨1, by decide⟩ else ⟨rps, h⟩
  let burst' : { n : UInt32 // n ≠ 0 } := if h : burst = 0 then rps' else ⟨burst, h⟩
  { cell := cell
    quota := ⟨rps'.val, burst'.val, rps'.property, burst'.property⟩
    timeToIdle := max ttlSecs.toNat 1 * nanos }

variable {X}

/-- The cache a limiter asks, which is a new one where its cell was not asked before. -/
def IpRateLimiter.buckets (l : IpRateLimiter) (ls : Limiters X) :
    (X.moka IpAddr X.Bucket).Content :=
  (ls l.cell).getD ((X.moka IpAddr X.Bucket).build (some l.timeToIdle))

/-- The limiter store with one cell rewritten. -/
def Limiters.set (ls : Limiters X) (cell : Cell) (c : (X.moka IpAddr X.Bucket).Content) :
    Limiters X :=
  Function.update ls cell (some c)

/-- `Retry-After` in whole seconds, at least one, from a waiting time in nanoseconds. -/
def retryAfter (wait : Nat) : UInt32 :=
  UInt32.ofNat (max (wait / nanos + if 0 < wait % nanos then 1 else 0) 1)

/-- One token for `ip` out of a cache of buckets: the answer and the cache afterwards.
Source: `budu-ratelimit/src/lib.rs` `IpRateLimiter::check` -/
def IpRateLimiter.checkIn (l : IpRateLimiter) (c : (X.moka IpAddr X.Bucket).Content) (now : Nat)
    (ip : IpAddr) : Except UInt32 Unit × (X.moka IpAddr X.Bucket).Content :=
  let (limiter, c) := (X.moka IpAddr X.Bucket).getWith c now ip (X.direct l.quota now)
  match X.check limiter now with
  | (.ok (), limiter) => (.ok (), (X.moka IpAddr X.Bucket).mutate c ip limiter)
  | (.error notUntil, limiter) =>
    (.error (retryAfter (X.waitTimeFrom notUntil now)),
      (X.moka IpAddr X.Bucket).mutate c ip limiter)

/-- Consume one token for `ip`: `.error secs` where the client is throttled.
Source: `budu-ratelimit/src/lib.rs` `IpRateLimiter::check` -/
def IpRateLimiter.check (l : IpRateLimiter) (ls : Limiters X) (now : Nat) (ip : IpAddr) :
    Except UInt32 Unit × Limiters X :=
  ((l.checkIn (l.buckets ls) now ip).1, ls.set l.cell (l.checkIn (l.buckets ls) now ip).2)

/-- A check answers what it answers on the limiter's own cache. -/
theorem IpRateLimiter.check_fst (l : IpRateLimiter) (ls : Limiters X) (now : Nat) (ip : IpAddr) :
    (l.check ls now ip).1 = (l.checkIn (l.buckets ls) now ip).1 := rfl

/-- A cell that was set holds what it was set to. -/
@[simp] theorem Limiters.set_self (ls : Limiters X) (cell : Cell)
    (c : (X.moka IpAddr X.Bucket).Content) : ls.set cell c cell = some c := Function.update_self ..

/-- Setting one cell leaves the others as they were. -/
theorem Limiters.set_of_ne {cell cell' : Cell} (h : cell' ≠ cell) (ls : Limiters X)
    (c : (X.moka IpAddr X.Bucket).Content) : ls.set cell c cell' = ls cell' :=
  Function.update_of_ne h ..

/-- Another cell's cache does not matter. -/
theorem IpRateLimiter.buckets_set_of_ne {l : IpRateLimiter} {cell : Cell} (h : l.cell ≠ cell)
    (ls : Limiters X) (c : (X.moka IpAddr X.Bucket).Content) :
    l.buckets (ls.set cell c) = l.buckets ls := by
  rw [IpRateLimiter.buckets, Limiters.set_of_ne h, IpRateLimiter.buckets]

/-- A check rewrites the limiter's own cell. -/
theorem IpRateLimiter.check_snd (l : IpRateLimiter) (ls : Limiters X) (now : Nat) (ip : IpAddr) :
    (l.check ls now ip).2 = ls.set l.cell (l.checkIn (l.buckets ls) now ip).2 := rfl

/-- The limiter's own cache, once written. -/
@[simp] theorem IpRateLimiter.buckets_set_self (l : IpRateLimiter) (ls : Limiters X)
    (c : (X.moka IpAddr X.Bucket).Content) : l.buckets (ls.set l.cell c) = c := by
  rw [IpRateLimiter.buckets, Limiters.set_self, Option.getD_some]

/-- A check rewrites the limiter's own cache. -/
@[simp] theorem IpRateLimiter.buckets_check (l : IpRateLimiter) (ls : Limiters X) (now : Nat)
    (ip : IpAddr) :
    l.buckets (l.check ls now ip).2 = (l.checkIn (l.buckets ls) now ip).2 := by
  rw [IpRateLimiter.check_snd, IpRateLimiter.buckets_set_self]

/-! ### Caches no client can tell apart -/

/-- A limiter's cache with its clock, checking one address after some time. -/
def IpRateLimiter.serve (l : IpRateLimiter) (s : (X.moka IpAddr X.Bucket).Content × Nat)
    (e : Nat × IpAddr) :
    ((X.moka IpAddr X.Bucket).Content × Nat) × List (Except UInt32 Unit) :=
  let r := l.checkIn s.1 (s.2 + e.1) e.2
  ((r.2, s.2 + e.1), [r.1])

/-- From an instant on, two caches answer every sequence of checks alike. -/
def IpRateLimiter.SameAnswers (l : IpRateLimiter) (now : Nat)
    (c c' : (X.moka IpAddr X.Bucket).Content) : Prop :=
  Indistinguishable l.serve (c, now) (c', now)

namespace IpRateLimiter.SameAnswers

variable {l : IpRateLimiter} {now : Nat} {c c' : (X.moka IpAddr X.Bucket).Content}

/-- A check is answered alike, and the caches stay alike. -/
theorem checkIn (h : l.SameAnswers now c c') (ip : IpAddr) :
    (l.checkIn c now ip).1 = (l.checkIn c' now ip).1 ∧
      l.SameAnswers now (l.checkIn c now ip).2 (l.checkIn c' now ip).2 :=
  ⟨List.singleton_inj.mp (h.output (0, ip)), h.next (0, ip)⟩

/-- Caches that are alike stay so while time passes. -/
theorem later (h : l.SameAnswers now c c') (elapsed : Nat) :
    l.SameAnswers (now + elapsed) c c' := by
  intro checks
  cases checks with
  | nil => rfl
  | cons check checks =>
      have hcons := h ((elapsed + check.1, check.2) :: checks)
      simp only [run_cons, IpRateLimiter.serve, ← Nat.add_assoc] at hcons ⊢
      exact hcons

end IpRateLimiter.SameAnswers

/-- From an instant on, a limiter answers as it would with a new cache. -/
def IpRateLimiter.LikeNew (l : IpRateLimiter) (now : Nat) (ls : Limiters X) : Prop :=
  l.SameAnswers now (l.buckets ls) ((X.moka IpAddr X.Bucket).build (some l.timeToIdle))

/-- A limiter that was never asked is as good as new. -/
theorem IpRateLimiter.likeNew_of_unused {l : IpRateLimiter} {ls : Limiters X}
    (h : ls l.cell = none) (now : Nat) : l.LikeNew now ls := by
  unfold IpRateLimiter.LikeNew IpRateLimiter.buckets
  rw [h, Option.getD_none]
  exact .refl _

/-- The global rate-limit stage.
Source: `budu-ratelimit/src/lib.rs` `RateLimitStage::from_config` -/
def globalLimiter (cfg : RateLimitConfig) : IpRateLimiter :=
  IpRateLimiter.new .global cfg.requestsPerSec cfg.burst cfg.ttlSecs

/-! ## Counters -/

/-- A counter's value and the time to live of its last write.
Source: `budu-ratelimit/src/lib.rs` `Counter` -/
structure Counter where
  /-- The count. -/
  count : UInt64
  /-- The time to live, in nanoseconds. -/
  ttl : Nat
deriving DecidableEq

/-- Each write sets the entry's time to live anew.
Source: `budu-ratelimit/src/lib.rs` `CounterExpiry` -/
def counterExpiry (v : Counter) : Option Nat := some v.ttl

variable (X) in
/-- The content of the counter store.
Source: `budu-ratelimit/src/lib.rs` `CounterStore` -/
abbrev CounterStore := (X.moka Str Counter).Content

/-- `u64::saturating_add`: the sum, or the largest number where that is too large. -/
def saturatingAdd64 (a b : UInt64) : UInt64 :=
  if a.toNat + b.toNat < 2 ^ 64 then a + b else UInt64.ofNat (2 ^ 64 - 1)

/-- A saturating sum is the sum, or the largest number where it is beyond. -/
theorem toNat_saturatingAdd64 (a b : UInt64) :
    (saturatingAdd64 a b).toNat = min (a.toNat + b.toNat) (2 ^ 64 - 1) := by
  unfold saturatingAdd64
  split
  · rw [UInt64.toNat_add]
    omega
  · have hmax : (UInt64.ofNat (2 ^ 64 - 1)).toNat = 2 ^ 64 - 1 := rfl
    omega

namespace CounterStore

/-- The empty store.
Source: `budu-ratelimit/src/lib.rs` `CounterStore::new` -/
def new : CounterStore X := (X.moka Str Counter).build none

variable (X) in
/-- The cache key of a counter.
Source: `budu-ratelimit/src/lib.rs` `CounterStore::key` -/
def key (name : Str) (ip : IpAddr) : Str := name ++ Char.ofNat 1 :: X.ipText ip

/-- The current value, zero where there is none.
Source: `budu-ratelimit/src/lib.rs` `CounterStore::get` -/
def get (s : CounterStore X) (now : Nat) (name : Str) (ip : IpAddr) : UInt64 :=
  (((X.moka Str Counter).get s now (key X name ip)).map Counter.count).getD 0

/-- Add to a counter and restart its time to live; the new value and the store.
Source: `budu-ratelimit/src/lib.rs` `CounterStore::incr` -/
def incr (s : CounterStore X) (now : Nat) (name : Str) (ip : IpAddr) (amount windowSecs : UInt64) :
    UInt64 × CounterStore X :=
  let count := saturatingAdd64 (get s now name ip) amount
  let counter : Counter := ⟨count, max windowSecs.toNat 1 * nanos⟩
  (count, (X.moka Str Counter).insert s now (key X name ip) counter (counterExpiry counter))

end CounterStore

end BuduWaf.RateLimit
