import BuduWaf.Lib.Except
import BuduWaf.Lib.TokenBucket
import BuduWaf.Plain

/-!
# The rate a limiter lets through

An `IpRateLimiter` keeps one bucket for each address and drops a bucket that has been idle. The
address's next bucket is a new one, so idling is worth more than waiting where a new bucket holds
more than what the rate yields in the idle time.

* **`BucketLaws`**: the crate's buckets are token buckets. `GovernorLaws` is the case of buckets
  that start full and refill evenly; `GcraLaws` is that of the algorithm the crate runs, which the
  plain build has (`gcra_plain`).
* **`IpRateLimiter.budget`**: where the idle time is long enough, what an address's bucket holds, or
  what a new one would hold, is a budget.
* **`rate_bounded_iff`**: so the rate bound holds exactly there.

The potential of an address is its allowance: what the bucket in the cache holds at the instant, or
what a new bucket would hold if the entry is gone. Time raises it at the rate of the bucket, and a
grant costs one token. An entry that expires is the one step that could raise it out of turn; it
does not where a bucket that has idled for so long is full anyway. That comparison of the two
capacities is the condition of the theorem, and a run of two bursts shows it to be necessary
(`two_bursts`).

Capacity: the cache has room for `maxBuckets` addresses. `Cache.Keeps` says that nothing live is
dropped while no more are used, and every statement here is about checks of such addresses.
-/

namespace BuduWaf

/-- The nanoseconds in which one token comes back, rounded down, as `governor` has it. -/
def Quota.interval (q : Quota) : Nat := RateLimit.nanos / q.perSecond.toNat

namespace RateLimit

open TokenBucket

variable {X : Crates}

/-! ## The crate's buckets -/

/-- The buckets of the crate are token buckets: of each quota, a token is worth `unit`, `rate` comes
back per nanosecond up to `capacity`, and a new bucket holds `fresh`. -/
structure BucketLaws (X : Crates) (unit rate capacity fresh : Quota → Nat)
    (valid : Quota → X.Bucket → Nat → Prop) (level : X.Bucket → Nat → Nat) : Prop where
  /-- Token buckets. -/
  bucket : ∀ q : Quota, Laws (fun b now => ((X.check b now).1.isOk, (X.check b now).2)) (unit q)
    (rate q) (capacity q) (valid q) level
  /-- A new one. -/
  direct_valid : ∀ q now, valid q (X.direct q now) now
  /-- What it holds. -/
  direct_level : ∀ q now, level (X.direct q now) now = fresh q

/-- The buckets of the crate are token buckets of their quota and start full; a token is worth
`nanos`, and comes back at `perSecond` per nanosecond. -/
structure GovernorLaws (X : Crates) (valid : Quota → X.Bucket → Nat → Prop)
    (level : X.Bucket → Nat → Nat) : Prop where
  /-- Token buckets. -/
  bucket : ∀ q : Quota, Laws (fun b now => ((X.check b now).1.isOk, (X.check b now).2)) nanos
    q.perSecond.toNat (q.burst.toNat * nanos) (valid q) level
  /-- A new one. -/
  direct_valid : ∀ q now, valid q (X.direct q now) now
  /-- It is full. -/
  direct_full : ∀ q now, level (X.direct q now) now = q.burst.toNat * nanos

/-- Buckets that start full and refill evenly are the case where a new bucket holds its capacity. -/
theorem GovernorLaws.bucketLaws {valid : Quota → X.Bucket → Nat → Prop}
    {level : X.Bucket → Nat → Nat} (h : GovernorLaws X valid level) :
    BucketLaws X (fun _ => nanos) (·.perSecond.toNat) (·.burst.toNat * nanos)
      (·.burst.toNat * nanos) valid level :=
  ⟨h.bucket, h.direct_valid, h.direct_full⟩

/-- The buckets of the crate run the generic cell rate algorithm. A token is worth its interval, and
a nanosecond brings back one. A bucket takes one token more than its burst, which a new bucket does
not hold yet. -/
def GcraLaws (X : Crates) (valid : Quota → X.Bucket → Nat → Prop)
    (level : X.Bucket → Nat → Nat) : Prop :=
  BucketLaws X Quota.interval (fun _ => 1) (fun q => (q.burst.toNat + 1) * q.interval)
    (fun q => q.burst.toNat * q.interval) valid level

/-! ### Buckets of the plain build -/

section plain

variable (features : Features) (readers : Readers)

/-- What a plain bucket takes: one token more than its burst. -/
def gcraCapacity (q : Quota) : Nat := (q.burst.toNat + 1) * q.interval

/-- What a plain bucket holds: what it takes, but for the time to its next arrival. -/
def gcraLevel (b : Plain.Bucket) (now : Nat) : Nat := gcraCapacity b.quota - (b.tat - now)

/-- A plain bucket of a quota, whose next arrival is not farther than what it takes. -/
def GcraValid (q : Quota) (b : Plain.Bucket) (now : Nat) : Prop :=
  b.quota = q ∧ b.tat ≤ now + gcraCapacity q

/-- A plain bucket grants a token where it holds one, and pays with its interval. -/
theorem check_gcra {q : Quota} {b : Plain.Bucket} {now : Nat} (hb : GcraValid q b now) :
    q.interval ≤ gcraLevel b now ∧ Plain.check b now =
        (.ok (), { b with tat := max b.tat now + q.interval }) ∨
      gcraLevel b now < q.interval ∧ Plain.check b now = (.error b.earliest, b) := by
  obtain ⟨rfl, htat⟩ := hb
  have hearliest : b.earliest = b.tat - b.quota.burst.toNat * b.quota.interval := by
    rw [Nat.mul_comm]
    rfl
  have hcapacity : gcraCapacity b.quota =
      b.quota.burst.toNat * b.quota.interval + b.quota.interval := Nat.succ_mul _ _
  unfold gcraLevel Plain.check
  by_cases hearly : now < b.earliest
  · right
    rw [if_pos hearly]
    exact ⟨by omega, rfl⟩
  · left
    rw [if_neg hearly]
    exact ⟨by omega, rfl⟩

/-- **The plain build runs the generic cell rate algorithm.** -/
theorem gcra_plain : GcraLaws (.plain features readers) GcraValid gcraLevel where
  bucket q := by
    have hcapacity : gcraCapacity q = q.burst.toNat * q.interval + q.interval := Nat.succ_mul _ _
    refine ⟨?_, ?_, ?_, ?_, ?_⟩
    · rintro b t t' ⟨hq, htat⟩ ht
      exact ⟨hq, by omega⟩
    · rintro b t hb
      obtain ⟨hholds, hcheck⟩ | ⟨-, hcheck⟩ := check_gcra hb
      · show GcraValid q (Plain.check b t).2 t
        rw [hcheck]
        obtain ⟨rfl, htat⟩ := hb
        unfold gcraLevel at hholds
        exact ⟨rfl, by dsimp only; omega⟩
      · show GcraValid q (Plain.check b t).2 t
        rw [hcheck]
        exact hb
    · rintro b t t' ⟨rfl, htat⟩ ht
      show gcraLevel b t' = min (gcraCapacity b.quota) _
      unfold gcraLevel
      omega
    · intro b t hb
      show (Plain.check b t).1.isOk = true ↔ _
      obtain ⟨hholds, hcheck⟩ | ⟨hlacks, hcheck⟩ := check_gcra hb
      · rw [hcheck]
        exact iff_of_true rfl hholds
      · rw [hcheck]
        exact iff_of_false Bool.false_ne_true (Nat.not_le.mpr hlacks)
    · intro b t hb
      show gcraLevel (Plain.check b t).2 t = _
      obtain ⟨hholds, hcheck⟩ | ⟨hlacks, hcheck⟩ := check_gcra hb
      · rw [hcheck, if_pos hholds]
        unfold gcraLevel at hholds ⊢
        dsimp only
        omega
      · rw [hcheck, if_neg (Nat.not_le.mpr hlacks)]
  direct_valid q now := by
    have hcapacity : gcraCapacity q = q.burst.toNat * q.interval + q.interval := Nat.succ_mul _ _
    have htat : now + q.interval ≤ now + gcraCapacity q := by omega
    exact ⟨rfl, htat⟩
  direct_level q now := by
    have hcapacity : gcraCapacity q = q.burst.toNat * q.interval + q.interval := Nat.succ_mul _ _
    show gcraCapacity q - (now + q.interval - now) = _
    omega

end plain

/-- How many buckets a limiter has room for.
Source: `budu-ratelimit/src/lib.rs` `IpRateLimiter::new` (`max_capacity`) -/
def maxBuckets : Nat := 1000000

/-! ## One check -/

/-- A check as a request of one address: whether it is this address and is let through. -/
def IpRateLimiter.checkOf (l : IpRateLimiter) (ip : IpAddr)
    (c : (X.moka IpAddr X.Bucket).Content) (now : Nat) (j : IpAddr) :
    Bool × (X.moka IpAddr X.Bucket).Content :=
  (decide (j = ip) && (l.checkIn c now j).1.isOk, (l.checkIn c now j).2)

/-- A check asks the bucket it looks up, and stores what that comes to. -/
theorem IpRateLimiter.checkIn_eq (l : IpRateLimiter) (c : (X.moka IpAddr X.Bucket).Content)
    (now : Nat) (ip : IpAddr) :
    let looked := (X.moka IpAddr X.Bucket).getWith c now ip (X.direct l.quota now)
    (l.checkIn c now ip).1.isOk = (X.check looked.1 now).1.isOk ∧
      (l.checkIn c now ip).2 =
        (X.moka IpAddr X.Bucket).mutate looked.2 ip (X.check looked.1 now).2 := by
  unfold checkIn
  rcases (X.moka IpAddr X.Bucket).getWith c now ip (X.direct l.quota now) with ⟨b, c'⟩
  dsimp only
  rcases X.check b now with ⟨_ | _, b'⟩
  · exact ⟨rfl, rfl⟩
  · exact ⟨rfl, rfl⟩

variable {K : IpAddr → Prop} {abs : (X.moka IpAddr X.Bucket).Content → Cache.Timed IpAddr X.Bucket}

/-- The bucket a check of an address asks. -/
def IpRateLimiter.bucketFor (l : IpRateLimiter) (c : Cache.Timed IpAddr X.Bucket) (now : Nat)
    (ip : IpAddr) : X.Bucket :=
  ((c.liveEntry now ip).map Cache.Entry.value).getD (X.direct l.quota now)

/-- What a check of one address does to the entries of a cache: this one's bucket is asked and used,
and of the others none is added or, while it lives, dropped. -/
structure IpRateLimiter.Checked (l : IpRateLimiter) (c c' : Cache.Timed IpAddr X.Bucket)
    (now : Nat) (ip : IpAddr) : Prop where
  /-- The idle time stays. -/
  idle : c'.idle = c.idle
  /-- The address's bucket was asked and used. -/
  self : c'.entry ip = some ⟨(X.check (l.bucketFor c now ip) now).2, none, now⟩
  /-- Nothing is added for another address. -/
  other_some : ∀ j e, j ≠ ip → c'.entry j = some e → c.entry j = some e
  /-- No other bucket that is live is dropped. -/
  other_live : ∀ j, j ≠ ip → c'.liveEntry now j = c.liveEntry now j

/-! ## What an address may still do -/

section budget

variable (l : IpRateLimiter) (K : IpAddr → Prop) (valid : Quota → X.Bucket → Nat → Prop)
  (fresh : Quota → Nat) (level : X.Bucket → Nat → Nat)

/-- The entries of a limiter's cache: they are of some addresses only, nothing but idling ends
them, and each bucket was last asked when its entry was last used. -/
structure IpRateLimiter.Tracked (c : Cache.Timed IpAddr X.Bucket) (now : Nat) : Prop where
  /-- The idle time. -/
  idle : c.idle = some l.timeToIdle
  /-- The addresses. -/
  within : c.Within K
  /-- The entries. -/
  entry : ∀ ip e, c.entry ip = some e →
    e.deadline = none ∧ e.used ≤ now ∧ valid l.quota e.value e.used

/-- What an address has left: what its bucket holds, or a new bucket would if it has none. -/
def IpRateLimiter.allowance (ip : IpAddr) (c : Cache.Timed IpAddr X.Bucket) (now : Nat) : Nat :=
  (c.liveEntry now ip).elim (fresh l.quota) fun e => level e.value now

variable {l K valid fresh level} {c : Cache.Timed IpAddr X.Bucket} {now : Nat}

/-- Whether a tracked entry is live is a matter of its last use. -/
theorem IpRateLimiter.Tracked.live_iff (h : l.Tracked K valid c now) {ip : IpAddr}
    {e : Cache.Entry X.Bucket} (he : c.entry ip = some e) (t : Nat) :
    e.live c.idle t = true ↔ t < e.used + l.timeToIdle := by
  obtain ⟨hdeadline, -, -⟩ := h.entry ip e he
  unfold Cache.Entry.live
  rw [hdeadline, h.idle]
  simp

/-- A cache that is tracked at an instant is tracked later. -/
theorem IpRateLimiter.Tracked.later (h : l.Tracked K valid c now) {t : Nat} (ht : now ≤ t) :
    l.Tracked K valid c t := by
  refine ⟨h.idle, h.within, ?_⟩
  intro ip e he
  obtain ⟨hdeadline, hused, hvalid⟩ := h.entry ip e he
  exact ⟨hdeadline, Nat.le_trans hused ht, hvalid⟩

/-- Dropping entries keeps the cache tracked. -/
theorem IpRateLimiter.Tracked.swept (h : l.Tracked K valid c now)
    {c' : Cache.Timed IpAddr X.Bucket} (hc : Cache.Timed.Swept now c c') :
    l.Tracked K valid c' now :=
  ⟨hc.idle.trans h.idle, fun ip e he => h.within ip e (hc.entry_of_some he),
    fun ip e he => h.entry ip e (hc.entry_of_some he)⟩

/-- The allowance of an address whose entry is known. -/
theorem IpRateLimiter.Tracked.allowance_eq (h : l.Tracked K valid c now) {ip : IpAddr}
    {e : Cache.Entry X.Bucket} (he : c.entry ip = some e) (t : Nat) :
    l.allowance fresh level ip c t =
      if t < e.used + l.timeToIdle then level e.value t else fresh l.quota := by
  have hlive := h.live_iff he t
  unfold IpRateLimiter.allowance Cache.Timed.liveEntry
  rw [he]
  by_cases ht : t < e.used + l.timeToIdle
  · rw [if_pos ht, Option.filter_some, if_pos (hlive.mpr ht), Option.elim_some]
  · rw [if_neg ht, Option.filter_some, if_neg (fun hl => ht (hlive.mp hl)), Option.elim_none]

/-- An address without an entry has a new bucket to come. -/
theorem IpRateLimiter.allowance_of_none {ip : IpAddr} (he : c.entry ip = none) (t : Nat) :
    l.allowance fresh level ip c t = fresh l.quota := by
  unfold IpRateLimiter.allowance Cache.Timed.liveEntry
  rw [he]
  rfl

/-- Addresses with the same live entry have the same allowance. -/
theorem IpRateLimiter.allowance_congr {c' : Cache.Timed IpAddr X.Bucket} {ip : IpAddr}
    (hc : c'.liveEntry now ip = c.liveEntry now ip) :
    l.allowance fresh level ip c' now = l.allowance fresh level ip c now := by
  unfold IpRateLimiter.allowance
  rw [hc]

/-- A new cache has no entries, so nothing has to be shown of them. -/
theorem IpRateLimiter.tracked_build (now : Nat) :
    l.Tracked K valid ((Cache.timed IpAddr X.Bucket).build (some l.timeToIdle)) now := by
  refine ⟨rfl, ?_, ?_⟩
  · intro ip e he
    cases he
  · intro ip e he
    cases he

/-- **What a check of one of the addresses does** to a tracked cache. -/
theorem IpRateLimiter.Tracked.checkIn_spec {c : (X.moka IpAddr X.Bucket).Content}
    (hmoka : (X.moka IpAddr X.Bucket).Keeps K abs) (h : l.Tracked K valid (abs c) now)
    (hpos : 0 < l.timeToIdle) {ip : IpAddr} (hip : K ip) :
    (l.checkIn c now ip).1.isOk = (X.check (l.bucketFor (abs c) now ip) now).1.isOk ∧
      l.Checked (abs c) (abs (l.checkIn c now ip).2) now ip := by
  obtain ⟨hanswer, hstored⟩ := l.checkIn_eq c now ip
  obtain ⟨hvalue, hswept⟩ := hmoka.getWith h.within now hip (X.direct l.quota now)
  have hbucket : ((Cache.timed IpAddr X.Bucket).getWith (abs c) now ip
      (X.direct l.quota now)).1 = l.bucketFor (abs c) now ip := by
    have hget : (Cache.timed IpAddr X.Bucket).get (abs c) now ip =
        ((abs c).liveEntry now ip).map Cache.Entry.value := rfl
    unfold Cache.getWith IpRateLimiter.bucketFor
    rw [hget]
    cases (abs c).liveEntry now ip <;> rfl
  rw [hvalue, hbucket] at hanswer hstored
  refine ⟨hanswer, ?_⟩
  rw [hstored, hmoka.mutate]
  -- What the lookup leaves: the address's entry was used now, so it is not among the dropped ones.
  obtain ⟨hidle, ⟨looked, hlooked, hused, hdeadline⟩, hother⟩ :=
    Cache.timed_getWith (abs c) now ip (X.direct l.quota now)
  have hnone : looked.deadline = none := by
    apply hdeadline
    cases hold : (abs c).entry ip with
    | none => rfl
    | some e => simp [(h.entry ip e hold).1]
  have hkept : (abs ((X.moka IpAddr X.Bucket).getWith c now ip (X.direct l.quota now)).2).entry
      ip = some looked := by
    apply hswept.entry_of_live hlooked
    unfold Cache.Entry.live
    rw [hnone, hidle, h.idle, hused]
    simp [hpos]
  refine ⟨?_, ?_, ?_, ?_⟩
  · exact hswept.idle.trans hidle
  · show (if ip = ip then _ else _) = _
    rw [if_pos rfl, hkept, Option.map_some, hused, hnone]
  · intro j e hj he
    have hthere := hswept.entry_of_some ((if_neg hj).symm.trans he)
    exact (hother j hj).symm.trans hthere
  · intro j hj
    have hlooked : ((Cache.timed IpAddr X.Bucket).getWith (abs c) now ip
        (X.direct l.quota now)).2.liveEntry now j = (abs c).liveEntry now j := by
      unfold Cache.Timed.liveEntry
      rw [hidle, hother j hj]
    rw [← hlooked, ← hswept.liveEntry_eq j]
    unfold Cache.Timed.liveEntry
    exact congrArg (Option.filter _) (if_neg hj)

section laws

variable {unit rate capacity : Quota → Nat}
  (hgov : BucketLaws X unit rate capacity fresh valid level)

include hgov

/-- A new bucket holds no more than a bucket takes. -/
theorem BucketLaws.fresh_le (q : Quota) : fresh q ≤ capacity q := by
  rw [← hgov.direct_level q 0]
  exact (hgov.bucket q).level_le (hgov.direct_valid q 0)

/-- The bucket a check asks is valid and holds the address's allowance. -/
theorem IpRateLimiter.Tracked.bucketFor (h : l.Tracked K valid c now) (ip : IpAddr) :
    valid l.quota (l.bucketFor c now ip) now ∧
      level (l.bucketFor c now ip) now = l.allowance fresh level ip c now := by
  unfold IpRateLimiter.bucketFor IpRateLimiter.allowance
  cases hlive : c.liveEntry now ip with
  | none => exact ⟨hgov.direct_valid l.quota now, hgov.direct_level l.quota now⟩
  | some e =>
      have hentry : c.entry ip = some e := (Option.filter_eq_some_iff.mp hlive).1
      obtain ⟨-, hused, hvalid⟩ := h.entry ip e hentry
      exact ⟨(hgov.bucket l.quota).later hvalid hused, rfl⟩

/-- A check of one of these addresses keeps the cache tracked. -/
theorem IpRateLimiter.Tracked.checked (h : l.Tracked K valid c now) {j : IpAddr} (hj : K j)
    {c' : Cache.Timed IpAddr X.Bucket} (hc : l.Checked c c' now j) :
    l.Tracked K valid c' now := by
  have hentry : ∀ ip e, c'.entry ip = some e →
      ip = j ∧ e = ⟨(X.check (l.bucketFor c now j) now).2, none, now⟩ ∨ c.entry ip = some e := by
    intro ip e he
    by_cases hip : ip = j
    · subst hip
      rw [hc.self] at he
      exact .inl ⟨rfl, (Option.some.inj he).symm⟩
    · exact .inr (hc.other_some ip e hip he)
  refine ⟨hc.idle.trans h.idle, ?_, ?_⟩
  · intro ip e he
    obtain ⟨rfl, -⟩ | hold := hentry ip e he
    · exact hj
    · exact h.within ip e hold
  · intro ip e he
    obtain ⟨rfl, rfl⟩ | hold := hentry ip e he
    · exact ⟨rfl, Nat.le_refl now, (hgov.bucket l.quota).asked (h.bucketFor hgov ip).1⟩
    · exact h.entry ip e hold

/-- A check of an address leaves it what its bucket holds after the check. -/
theorem IpRateLimiter.Tracked.allowance_self (h : l.Tracked K valid c now)
    (hpos : 0 < l.timeToIdle) {c' : Cache.Timed IpAddr X.Bucket} {ip : IpAddr} (hip : K ip)
    (hc : l.Checked c c' now ip) :
    l.allowance fresh level ip c' now = level (X.check (l.bucketFor c now ip) now).2 now := by
  rw [(h.checked hgov hip hc).allowance_eq hc.self]
  exact if_pos (Nat.lt_add_of_pos_right hpos)

/-- **The allowance is a budget** for checks of the addresses there is room for, where a bucket that
idles out holds what a new one would. -/
theorem IpRateLimiter.budget (hmoka : (X.moka IpAddr X.Bucket).Keeps K abs)
    (hpos : 0 < l.timeToIdle) (hback : fresh l.quota ≤ rate l.quota * l.timeToIdle)
    (ip : IpAddr) :
    Budget (l.checkOf ip) (fun _ j => K j) (unit l.quota) (rate l.quota) (capacity l.quota)
      (fun c now => l.Tracked K valid (abs c) now)
      (fun c now => l.allowance fresh level ip (abs c) now) where
  later h ht := h.later ht
  request j hj h := h.checked hgov hj (h.checkIn_spec hmoka hpos hj).2
  le_capacity := by
    intro c t h
    obtain ⟨hvalid, hlevel⟩ := h.bucketFor hgov ip
    rw [← hlevel]
    exact (hgov.bucket l.quota).level_le hvalid
  refill := by
    intro c t t' h ht
    cases hentry : (abs c).entry ip with
    | none =>
        rw [allowance_of_none hentry, allowance_of_none hentry]
        exact Nat.le_add_right _ _
    | some e =>
        obtain ⟨-, hused, hvalid⟩ := h.entry ip e hentry
        have hnow := (hgov.bucket l.quota).later hvalid hused
        have hmore : level e.value t' ≤ level e.value t + rate l.quota * (t' - t) := by
          rw [(hgov.bucket l.quota).refill hnow ht]
          exact Nat.min_le_right _ _
        rw [h.allowance_eq hentry t', h.allowance_eq hentry t]
        by_cases hlive' : t' < e.used + l.timeToIdle
        · rw [if_pos hlive', if_pos (by omega)]
          exact hmore
        · rw [if_neg hlive']
          by_cases hlive : t < e.used + l.timeToIdle
          · -- The bucket idles out in between, but by then it holds what a new one would.
            have hlong : fresh l.quota ≤ rate l.quota * (t' - e.used) :=
              Nat.le_trans hback (Nat.mul_le_mul_left _ (by omega))
            have hlevel := (hgov.bucket l.quota).le_level_of_idle hvalid (by omega)
              (hgov.fresh_le l.quota) hlong
            rw [if_pos hlive]
            exact Nat.le_trans hlevel hmore
          · rw [if_neg hlive]
            exact Nat.le_add_right _ _
  spend := by
    intro c t j hj h
    obtain ⟨hanswer, hchecked⟩ := h.checkIn_spec hmoka hpos hj
    by_cases hsame : j = ip
    · subst hsame
      obtain ⟨hvalid, hlevel⟩ := h.bucketFor hgov j
      have hspend := (hgov.bucket l.quota).spend hvalid
      have hgranted : (l.checkOf j c t j).1 =
          (X.check (l.bucketFor (abs c) t j) t).1.isOk := by
        simp only [checkOf, decide_true, Bool.true_and, hanswer]
      rw [hgranted, ← hlevel]
      exact (h.allowance_self hgov hpos hj hchecked) ▸ hspend
    · have hrefused : (l.checkOf ip c t j).1 = false := by simp [checkOf, hsame]
      rw [hrefused, if_neg Bool.false_ne_true, Nat.zero_add]
      exact Nat.le_of_eq (allowance_congr (hchecked.other_live ip (Ne.symm hsame)))

/-! ## Bursts -/

/-- An address spends its allowance at one instant, request by request. -/
theorem IpRateLimiter.grants_burst (hmoka : (X.moka IpAddr X.Bucket).Keeps K abs)
    (hpos : 0 < l.timeToIdle) {ip : IpAddr} (hip : K ip) (start length : Nat) (hstart : start ≤ now)
    (hlength : now ≤ start + length) (n : Nat) {c : (X.moka IpAddr X.Bucket).Content}
    (h : l.Tracked K valid (abs c) now)
    (hn : n * unit l.quota ≤ l.allowance fresh level ip (abs c) now) :
    ∃ c', l.Tracked K valid (abs c') now ∧
      ∀ rest, grants (l.checkOf ip) start length c now (List.replicate n (0, ip) ++ rest) =
        n + grants (l.checkOf ip) start length c' now rest := by
  induction n generalizing c with
  | zero => exact ⟨c, h, fun rest => by simp⟩
  | succ n ih =>
      rw [Nat.succ_mul] at hn
      obtain ⟨hanswer, hchecked⟩ := h.checkIn_spec hmoka hpos hip
      obtain ⟨hvalid, hlevel⟩ := h.bucketFor hgov ip
      have hgranted : (l.checkOf ip c now ip).1 = true := by
        simp only [checkOf, decide_true, Bool.true_and, hanswer]
        exact (hgov.bucket l.quota).granted hvalid |>.mpr (by omega)
      have hleft : l.allowance fresh level ip (abs (l.checkIn c now ip).2) now =
          l.allowance fresh level ip (abs c) now - unit l.quota := by
        have htaken := (hgov.bucket l.quota).level_take hvalid
        rw [if_pos (by omega), hlevel] at htaken
        exact (h.allowance_self hgov hpos hip hchecked).trans htaken
      obtain ⟨c', htracked, hrest⟩ := ih (h.checked hgov hip hchecked) (by omega)
      refine ⟨c', htracked, ?_⟩
      intro rest
      have hfirst : grants (l.checkOf ip) start length c now
          (List.replicate (n + 1) (0, ip) ++ rest) =
          (if (l.checkOf ip c now ip).1 ∧ start ≤ now ∧ now ≤ start + length then 1 else 0) +
            grants (l.checkOf ip) start length (l.checkIn c now ip).2 now
              (List.replicate n (0, ip) ++ rest) := rfl
      rw [hfirst, hrest rest, if_pos ⟨hgranted, hstart, hlength⟩]
      omega

end laws

/-- Nothing is left of an address that idled for long enough, and its next bucket is a new one. -/
theorem IpRateLimiter.Tracked.allowance_idled (h : l.Tracked K valid c now) (ip : IpAddr) {t : Nat}
    (ht : now + l.timeToIdle ≤ t) : l.allowance fresh level ip c t = fresh l.quota := by
  cases hentry : c.entry ip with
  | none => exact allowance_of_none hentry t
  | some e =>
      obtain ⟨-, hused, -⟩ := h.entry ip e hentry
      rw [h.allowance_eq hentry, if_neg (by omega)]

/-- A burst of one address, its idle time, and a burst again. -/
def IpRateLimiter.burstIdleBurst (l : IpRateLimiter) (ip : IpAddr) : List (Nat × IpAddr) :=
  List.replicate l.quota.burst.toNat (0, ip) ++
    (l.timeToIdle, ip) :: List.replicate (l.quota.burst.toNat - 1) (0, ip)

/-- **Idling earns a full bucket**: a burst, the idle time, and a burst again are all let
through. -/
theorem IpRateLimiter.two_bursts (hmoka : (X.moka IpAddr X.Bucket).ModelledBy abs)
    (hgov : GovernorLaws X valid level) (hpos : 0 < l.timeToIdle) (ip : IpAddr) :
    grants (l.checkOf ip) 0 l.timeToIdle ((X.moka IpAddr X.Bucket).build (some l.timeToIdle)) 0
        (l.burstIdleBurst ip) = 2 * l.quota.burst.toNat := by
  have hburst : 0 < l.quota.burst.toNat := by
    have hne := l.quota.burst_ne
    have hzero : l.quota.burst.toNat ≠ (0 : UInt32).toNat := fun h => hne (UInt32.toNat_inj.mp h)
    have : (0 : UInt32).toNat = 0 := rfl
    omega
  have hkeeps := hmoka.keeps fun _ => True
  have hbuild : l.Tracked (fun _ => True) valid
      (abs ((X.moka IpAddr X.Bucket).build (some l.timeToIdle))) 0 := by
    rw [hmoka.build]
    exact tracked_build 0
  have hfirst : l.allowance (·.burst.toNat * nanos) level ip
      (abs ((X.moka IpAddr X.Bucket).build (some l.timeToIdle))) 0 =
        l.quota.burst.toNat * nanos := by
    rw [hmoka.build]
    exact allowance_of_none rfl 0
  have hroom : (fun _ : IpAddr => True) ip := trivial
  obtain ⟨c, htracked, hrest⟩ := grants_burst hgov.bucketLaws hkeeps hpos hroom 0 l.timeToIdle
    (Nat.zero_le 0) (Nat.zero_le _) l.quota.burst.toNat hbuild (Nat.le_of_eq hfirst.symm)
  rw [burstIdleBurst, hrest]
  have hidled : l.allowance (·.burst.toNat * nanos) level ip (abs c) l.timeToIdle =
      l.quota.burst.toNat * nanos := htracked.allowance_idled ip (by omega)
  obtain ⟨c', -, hrest'⟩ := grants_burst hgov.bucketLaws hkeeps hpos hroom 0 l.timeToIdle
    (Nat.zero_le l.timeToIdle) (by omega) l.quota.burst.toNat
    (htracked.later (Nat.zero_le l.timeToIdle)) (Nat.le_of_eq hidled.symm)
  have hsecond := hrest' []
  rw [List.append_nil] at hsecond
  -- The first request of the second burst comes with the wait.
  have hsame : grants (l.checkOf ip) 0 l.timeToIdle c 0
      ((l.timeToIdle, ip) :: List.replicate (l.quota.burst.toNat - 1) (0, ip)) =
      grants (l.checkOf ip) 0 l.timeToIdle c l.timeToIdle
        (List.replicate l.quota.burst.toNat (0, ip)) := by
    obtain ⟨n, hn⟩ : ∃ n, l.quota.burst.toNat = n + 1 := ⟨_, (Nat.sub_add_cancel hburst).symm⟩
    rw [hn, List.replicate_succ]
    simp only [grants, Nat.zero_add, Nat.add_zero, Nat.add_sub_cancel]
  rw [hsame, hsecond]
  simp only [grants]
  omega

end budget

/-! ## The rate bound -/

/-- In every interval of every run of checks from a new cache, an address gets at most `burst`
plus what `rps` yields; times are in nanoseconds. -/
def IpRateLimiter.RateBounded (X : Crates) (l : IpRateLimiter) (rps burst : Nat) : Prop :=
  ∀ (now : Nat) (checks : List (Nat × IpAddr)) (ip : IpAddr) (start length : Nat),
    grants (l.checkOf ip) start length ((X.moka IpAddr X.Bucket).build (some l.timeToIdle)) now
      checks * nanos ≤ burst * nanos + rps * length

/-- What the configuration says of one address's bucket.
Source: `budu-config/src/lib.rs` `RateLimitConfig` -/
def effectiveBurst (cfg : RateLimitConfig) : UInt32 :=
  if cfg.burst = 0 then cfg.requestsPerSec else cfg.burst

/-- A configuration that is accepted grants at least one request a second. -/
theorem validate_rate {ipText : IpAddr → Str} {cfg : Config} (h : cfg.validate ipText = .ok ()) :
    cfg.ratelimit.requestsPerSec ≠ 0 := by
  unfold Config.validate at h
  obtain ⟨-, h⟩ := refuse_ok_iff.mp h
  obtain ⟨-, h⟩ := refuse_ok_iff.mp h
  obtain ⟨-, h⟩ := refuse_ok_iff.mp h
  obtain ⟨-, h⟩ := refuse_ok_iff.mp h
  exact (refuse_ok_iff.mp h).1

/-- Where a rate is given, a limiter is made with it, with the burst that is given or one of the
rate, and with an idle time of a second at least. -/
theorem new_quota (cell : Cell) {rps : UInt32} (hrps : rps ≠ 0) (burst : UInt32)
    (ttlSecs : UInt64) :
    (IpRateLimiter.new cell rps burst ttlSecs).quota.perSecond = rps ∧
      (IpRateLimiter.new cell rps burst ttlSecs).quota.burst =
        (if burst = 0 then rps else burst) ∧
      (IpRateLimiter.new cell rps burst ttlSecs).timeToIdle = max ttlSecs.toNat 1 * nanos := by
  have hrate : (if h : rps = 0 then (⟨1, by decide⟩ : { n : UInt32 // n ≠ 0 }) else ⟨rps, h⟩) =
      ⟨rps, hrps⟩ := dif_neg hrps
  refine ⟨congrArg Subtype.val hrate, ?_, rfl⟩
  by_cases hburst : burst = 0
  · rw [if_pos hburst]
    exact (congrArg Subtype.val (dif_pos hburst)).trans (congrArg Subtype.val hrate)
  · rw [if_neg hburst]
    exact congrArg Subtype.val (dif_neg hburst)

/-- **The rate bound** of a limiter made from an accepted configuration holds exactly if the idle
time is long enough to refill a bucket. -/
theorem rate_bounded_iff (X : Crates)
    {abs : (X.moka IpAddr X.Bucket).Content → Cache.Timed IpAddr X.Bucket}
    (hmoka : (X.moka IpAddr X.Bucket).ModelledBy abs)
    {valid : Quota → X.Bucket → Nat → Prop} {level : X.Bucket → Nat → Nat}
    (hgov : GovernorLaws X valid level) (cell : Cell) (cfg : Config)
    (hvalid : cfg.validate X.ipText = .ok ()) :
    (IpRateLimiter.new cell cfg.ratelimit.requestsPerSec cfg.ratelimit.burst
        cfg.ratelimit.ttlSecs).RateBounded X cfg.ratelimit.requestsPerSec.toNat
          (effectiveBurst cfg.ratelimit).toNat ↔
      (effectiveBurst cfg.ratelimit).toNat ≤
        cfg.ratelimit.requestsPerSec.toNat * max cfg.ratelimit.ttlSecs.toNat 1 := by
  have hrps := validate_rate hvalid
  obtain ⟨hrate, hburst, hidle⟩ :=
    new_quota cell hrps cfg.ratelimit.burst cfg.ratelimit.ttlSecs
  generalize IpRateLimiter.new cell cfg.ratelimit.requestsPerSec cfg.ratelimit.burst
    cfg.ratelimit.ttlSecs = l at hrate hburst hidle ⊢
  have hpos : 0 < l.timeToIdle := by
    rw [hidle]
    exact Nat.mul_pos (by omega) (by decide)
  have hscale : l.quota.perSecond.toNat * l.timeToIdle =
      l.quota.perSecond.toNat * max cfg.ratelimit.ttlSecs.toNat 1 * nanos := by
    rw [hidle, Nat.mul_assoc]
  rw [effectiveBurst, ← hburst, ← hrate]
  constructor
  · intro h
    have htwo := h 0 (l.burstIdleBurst (.v4 0)) (.v4 0) 0 l.timeToIdle
    rw [IpRateLimiter.two_bursts hmoka hgov hpos, Nat.mul_assoc, hscale] at htwo
    exact Nat.le_of_mul_le_mul_right (show _ * nanos ≤ _ * nanos by omega) (by decide)
  · intro h now checks ip start length
    have hback : l.quota.burst.toNat * nanos ≤ l.quota.perSecond.toNat * l.timeToIdle := by
      rw [hscale]
      exact Nat.mul_le_mul_right nanos h
    have hbuild : l.Tracked (fun _ => True) valid
        (abs ((X.moka IpAddr X.Bucket).build (some l.timeToIdle))) now := by
      rw [hmoka.build]
      exact IpRateLimiter.tracked_build now
    have hbudget :=
      IpRateLimiter.budget hgov.bucketLaws (hmoka.keeps fun _ => True) hpos hback ip
    exact hbudget.grants_le hbuild (allowed_of_forall (fun _ _ => trivial) _ _ _)

/-! ### Textbook buckets -/

/-- The plain build with textbook token buckets. -/
def idealBuild : Crates :=
  { Crates.plain .none .none with
    Bucket := Ideal
    NotUntil := Unit
    direct := fun q now =>
      ⟨q.perSecond.toNat, q.burst.toNat * nanos, q.burst.toNat * nanos, now⟩
    check := fun b now => (if (b.take nanos now).1 then .ok () else .error (), (b.take nanos now).2)
    waitTimeFrom := fun _ _ => 0 }

/-- The ideal buckets start full and refill evenly. -/
theorem idealBuild_laws :
    GovernorLaws idealBuild
      (fun q => Ideal.Valid q.perSecond.toNat (q.burst.toNat * nanos)) Ideal.level where
  bucket q := by
    have htake : (fun (b : Ideal) (now : Nat) => ((idealBuild.check b now).1.isOk,
        (idealBuild.check b now).2)) = Ideal.take nanos := by
      funext b now
      show ((if (b.take nanos now).1 then .ok () else .error () : Except Unit Unit).isOk,
        (b.take nanos now).2) = b.take nanos now
      rcases b.take nanos now with ⟨_ | _, b'⟩
      · rfl
      · rfl
    have hlaws := Ideal.laws nanos q.perSecond.toNat (q.burst.toNat * nanos)
    rw [← htake] at hlaws
    exact hlaws
  direct_valid q now := ⟨rfl, rfl, Nat.le_refl now⟩
  direct_full q now := by
    show min (q.burst.toNat * nanos) (q.burst.toNat * nanos + _ * (now - now)) = _
    rw [Nat.sub_self, Nat.mul_zero, Nat.add_zero, Nat.min_self]

/-- The default limits keep their rate, as 100 is at most 50 times 300. -/
theorem minimal_rate_bounded :
    (IpRateLimiter.new .global 50 100 300).RateBounded idealBuild 50 100 ↔ 100 ≤ 50 * 300 :=
  rate_bounded_iff idealBuild .self idealBuild_laws .global Config.minimal (by decide +kernel)

/-- A configuration whose buckets idle out before they are full. -/
def shortIdle : Config := { Config.minimal with ratelimit := ⟨1, 3, 1⟩ }

/-- It is accepted, and a client that idles for a second gets six requests through in it, where
the capacity and the rate make four. -/
theorem short_idle_not_bounded :
    shortIdle.validate idealBuild.ipText = .ok () ∧
      ¬ (globalLimiter shortIdle.ratelimit).RateBounded idealBuild
        shortIdle.ratelimit.requestsPerSec.toNat (effectiveBurst shortIdle.ratelimit).toNat := by
  refine ⟨by decide +kernel, ?_⟩
  intro h
  have hsix := h 0 ((globalLimiter shortIdle.ratelimit).burstIdleBurst (.v4 0)) (.v4 0) 0 nanos
  revert hsix
  decide +kernel

end RateLimit

end BuduWaf
