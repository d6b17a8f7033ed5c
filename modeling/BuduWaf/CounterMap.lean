import BuduWaf.Lib.Runs
import BuduWaf.Lib.Trailing
import BuduWaf.Plain

/-!
# `budu-ratelimit`: the counter store as a map

The store keeps its entries under texts, with a time to live each. It refines a map from names and
addresses to running sums, and a running sum is that of the additions since the count was last
forgotten.

* **`CounterStore.key_injective`**: the texts tell names and addresses apart, whatever the names.
* **`CounterMap.Represents`**: a store holds what the map does, each sum saturated; `get` and `incr`
  keep to it.
* **`CounterMap.Summarizes`**: the map after calls sums up the trailing runs of additions.
* **`counter_store_refines_map`**: what `get` returns after any calls.

There are two refinements. The store represents a map with one sum for each pair of a name and an
address (`Represents`), which is where texts and saturation disappear. And the sums of the map are
those of runs of additions (`Summarizes`), which is where the clock disappears: a run ends where an
addition comes after the time to live of the one before, and nothing else ends it. One step lemma
belongs to each (`Represents.incr`, `Summarizes.add`), and one induction over the calls to both
(`Holds.run`).
-/

namespace BuduWaf.RateLimit

variable {X : Crates}

/-! ## Keys -/

/-- A separator that is not in the ends divides texts in one way. -/
theorem append_cons_inj {a a' b b' : Str} {c : Char} (hb : c ∉ b) (hb' : c ∉ b')
    (h : a ++ c :: b = a' ++ c :: b') : a = a' ∧ b = b' := by
  rcases List.append_eq_append_iff.mp h with ⟨mid, rfl, hmid⟩ | ⟨mid, rfl, hmid⟩
  · cases mid with
    | nil => exact ⟨(List.append_nil _).symm, (List.cons.inj hmid).2⟩
    | cons d mid =>
        have hmem : c ∈ b := by
          rw [(List.cons.inj hmid).2]
          exact List.mem_append_right _ List.mem_cons_self
        exact absurd hmem hb
  · cases mid with
    | nil => exact ⟨List.append_nil _, (List.cons.inj hmid).2.symm⟩
    | cons d mid =>
        have hmem : c ∈ b' := by
          rw [(List.cons.inj hmid).2]
          exact List.mem_append_right _ List.mem_cons_self
        exact absurd hmem hb'

/-- **Counters do not share keys**: the key of a counter and an address determines both, if the text
of an address does and has no separator in it. -/
theorem CounterStore.key_injective (htext : Function.Injective X.ipText)
    (hfree : ∀ ip, Char.ofNat 1 ∉ X.ipText ip) {name name' : Str} {ip ip' : IpAddr}
    (h : CounterStore.key X name ip = CounterStore.key X name' ip') : name = name' ∧ ip = ip' := by
  obtain ⟨hname, hip⟩ := append_cons_inj (hfree ip) (hfree ip') h
  exact ⟨hname, htext hip⟩

/-! ## The map -/

/-- A running sum, and the instant from which it is forgotten. -/
structure RunningSum where
  /-- The sum. -/
  total : Nat
  /-- The instant. -/
  expiry : Nat

/-- The running sums by name and address. -/
abbrev CounterMap := Str × IpAddr → Option RunningSum

/-- One addition to a counter, as it is called. -/
structure Increment where
  /-- The instant of the addition. -/
  time : Nat
  /-- What is added. -/
  amount : UInt64
  /-- For how many seconds the counter is kept. -/
  windowSecs : UInt64
deriving DecidableEq

namespace Increment

/-- The instant from which the counter is forgotten, if nothing is added before. -/
def expiry (i : Increment) : Nat := i.time + max i.windowSecs.toNat 1 * nanos

/-- An addition falls before the counter is forgotten. -/
def Continues (before i : Increment) : Prop := i.time < before.expiry

instance : DecidableRel Continues :=
  fun before i => inferInstanceAs (Decidable (i.time < before.expiry))

end Increment

namespace CounterMap

/-- The sum of a pair at an instant, zero where there is none or it is forgotten. -/
def value (m : CounterMap) (now : Nat) (pair : Str × IpAddr) : Nat :=
  match m pair with
  | some sum => if now < sum.expiry then sum.total else 0
  | none => 0

/-- The map after an addition to the counter of a pair, which is kept from then on for the window of
this addition. -/
def add (m : CounterMap) (pair : Str × IpAddr) (i : Increment) : CounterMap :=
  Function.update m pair (some ⟨m.value i.time pair + i.amount.toNat, i.expiry⟩)

/-! ## The store holds what the map does -/

section store

variable {abs : (X.moka Str Counter).Content → Cache.Timed Str Counter}

/-- The store holds the sums of the map, saturated, and as long as the map does. -/
structure Represents (abs : (X.moka Str Counter).Content → Cache.Timed Str Counter)
    (store : CounterStore X) (m : CounterMap) : Prop where
  /-- No entry idles out. -/
  idle : (abs store).idle = none
  /-- The entries of names and addresses. -/
  entry : ∀ name ip, ((abs store).entry (CounterStore.key X name ip)).map
      (fun e => (e.value.count.toNat, e.deadline)) =
    (m (name, ip)).map fun sum => (min sum.total (2 ^ 64 - 1), some sum.expiry)

variable {store : CounterStore X} {m : CounterMap}

/-- A new store represents the empty map. -/
theorem represents_new (hmoka : (X.moka Str Counter).ModelledBy abs) :
    Represents abs (CounterStore.new (X := X)) fun _ => none := by
  have hbuild : abs (CounterStore.new (X := X)) = (Cache.timed Str Counter).build none :=
    hmoka.build none
  refine ⟨by rw [hbuild]; rfl, ?_⟩
  intro name ip
  rw [hbuild]
  rfl

/-- `get` on the store reads the map at the key of counter and address. -/
theorem Represents.get (hmoka : (X.moka Str Counter).ModelledBy abs) (h : Represents abs store m)
    (now : Nat) (name : Str) (ip : IpAddr) :
    (CounterStore.get store now name ip).toNat = min (m.value now (name, ip)) (2 ^ 64 - 1) := by
  have hentry := h.entry name ip
  unfold CounterStore.get value
  rw [hmoka.get]
  show (Option.getD (Option.map _ (Option.map _ (Option.filter _
    ((abs store).entry (CounterStore.key X name ip))))) (0 : UInt64)).toNat = _
  cases hm : m (name, ip) with
  | none =>
      rw [hm, Option.map_none, Option.map_eq_none_iff] at hentry
      rw [hentry]
      rfl
  | some sum =>
      rw [hm, Option.map_some] at hentry
      obtain ⟨e, he, hvalue⟩ := Option.map_eq_some_iff.mp hentry
      obtain ⟨hcount, hdeadline⟩ := Prod.mk.inj hvalue
      have hlive : e.live (abs store).idle now = decide (now < sum.expiry) := by
        unfold Cache.Entry.live
        rw [hdeadline, h.idle]
        simp
      rw [he, Option.filter_some, hlive]
      by_cases hnow : now < sum.expiry
      · simpa [hnow] using hcount
      · simp [hnow]

/-- **`incr` adds to the map**: a store that represents a map represents it with the increment at
the key of counter and address. -/
theorem Represents.incr (hmoka : (X.moka Str Counter).ModelledBy abs)
    (htext : Function.Injective X.ipText) (hfree : ∀ ip, Char.ofNat 1 ∉ X.ipText ip)
    (h : Represents abs store m) (name : Str) (ip : IpAddr) (i : Increment) :
    Represents abs (CounterStore.incr store i.time name ip i.amount i.windowSecs).2
      (m.add (name, ip) i) := by
  have hcount : (saturatingAdd64 (CounterStore.get store i.time name ip) i.amount).toNat =
      min (m.value i.time (name, ip) + i.amount.toNat) (2 ^ 64 - 1) := by
    rw [toNat_saturatingAdd64, h.get hmoka]
    omega
  unfold CounterStore.incr
  simp only [counterExpiry]
  refine ⟨by rw [hmoka.insert]; exact h.idle, ?_⟩
  intro name' ip'
  rw [hmoka.insert]
  show Option.map _ (if _ = _ then _ else _) = _
  unfold add
  by_cases hpair : (name', ip') = (name, ip)
  · obtain ⟨rfl, rfl⟩ := Prod.mk.inj hpair
    rw [if_pos rfl, Function.update_self, Option.map_some, Option.map_some, hcount]
    rfl
  · have hkey : CounterStore.key X name' ip' ≠ CounterStore.key X name ip := by
      intro hkey
      obtain ⟨rfl, rfl⟩ := CounterStore.key_injective htext hfree hkey
      exact hpair rfl
    rw [if_neg hkey, Function.update_of_ne hpair]
    exact h.entry name' ip'

end store

/-! ## The map sums up trailing runs -/

/-- What a run of additions sums up to: their amounts, kept as long as the last of them says. -/
def summary (sums : List Increment) : Option RunningSum :=
  sums.getLast?.map fun last => ⟨(sums.map fun i => i.amount.toNat).sum, last.expiry⟩

/-- Each pair has the sum of its trailing run of additions. -/
def Summarizes (m : CounterMap) (sums : Str × IpAddr → List Increment) : Prop :=
  ∀ pair, m pair = summary (sums pair)

/-- An addition continues the run of its pair, or starts a new one. -/
theorem Summarizes.add {m : CounterMap} {sums : Str × IpAddr → List Increment}
    (h : Summarizes m sums) (pair : Str × IpAddr) (i : Increment) :
    Summarizes (m.add pair i)
      (Function.update sums pair (extendRun Increment.Continues (sums pair) i)) := by
  intro other
  unfold CounterMap.add
  by_cases hother : other = pair
  · subst hother
    rw [Function.update_self, Function.update_self]
    unfold value extendRun summary
    rw [h other, summary]
    cases hlast : (sums other).getLast? with
    | none =>
        rw [List.getLast?_eq_none_iff.mp hlast]
        simp
    | some last =>
        by_cases hcontinues : last.Continues i
        · have hlive : i.time < last.expiry := hcontinues
          have hall : ∀ l ∈ some last, l.Continues i := by
            intro l hl
            obtain rfl := Option.some.inj hl
            exact hcontinues
          rw [if_pos hall, List.getLast?_concat, Option.map_some, Option.map_some]
          simp [hlive]
        · have hdead : ¬i.time < last.expiry := hcontinues
          have hnot : ¬∀ l ∈ some last, l.Continues i := fun hall => hcontinues (hall last rfl)
          rw [if_neg hnot, Option.map_some]
          simp [hdead]
  · rw [Function.update_of_ne hother, Function.update_of_ne hother]
    exact h other

end CounterMap

/-! ## Calls -/

/-- What is asked of a counter: an addition, or its value. -/
inductive CounterOp where
  | incr (amount windowSecs : UInt64)
  | get

/-- A call, after so many nanoseconds without one. -/
structure TimedCall where
  /-- The time since the call before. -/
  elapsed : Nat
  /-- The name of the counter. -/
  name : Str
  /-- The address. -/
  ip : IpAddr
  /-- What is asked. -/
  op : CounterOp

namespace TimedCall

/-- The store and the clock after a call, and what it returns. -/
def serve (s : CounterStore X × Nat) (c : TimedCall) : (CounterStore X × Nat) × List UInt64 :=
  let now := s.2 + c.elapsed
  match c.op with
  | .incr amount windowSecs =>
    (((CounterStore.incr s.1 now c.name c.ip amount windowSecs).2, now),
      [(CounterStore.incr s.1 now c.name c.ip amount windowSecs).1])
  | .get => ((s.1, now), [CounterStore.get s.1 now c.name c.ip])

/-- A call is served after its time since the one before. -/
theorem serve_clock (s : CounterStore X × Nat) (c : TimedCall) :
    (c.serve s).1.2 = s.2 + c.elapsed := by
  unfold serve
  cases c.op <;> rfl

/-- The addition that a call at an instant is, if it is one to this counter. -/
def increment (pair : Str × IpAddr) (now : Nat) (c : TimedCall) : List Increment :=
  match c.op with
  | .incr amount windowSecs => if (c.name, c.ip) = pair then [⟨now, amount, windowSecs⟩] else []
  | .get => []

/-- The additions to a counter among calls that begin at an instant. -/
def increments (pair : Str × IpAddr) : (now : Nat) → List TimedCall → List Increment
  | _, [] => []
  | now, c :: calls =>
    increment pair (now + c.elapsed) c ++ increments pair (now + c.elapsed) calls

end TimedCall

section calls

variable {abs : (X.moka Str Counter).Content → Cache.Timed Str Counter}

/-- The store holds, saturated, what these runs of additions sum up to. -/
def Holds (abs : (X.moka Str Counter).Content → Cache.Timed Str Counter) (store : CounterStore X)
    (sums : Str × IpAddr → List Increment) : Prop :=
  ∃ m, CounterMap.Represents abs store m ∧ CounterMap.Summarizes m sums

/-- One call extends the runs by the addition it makes. -/
theorem Holds.serve (hmoka : (X.moka Str Counter).ModelledBy abs)
    (htext : Function.Injective X.ipText) (hfree : ∀ ip, Char.ofNat 1 ∉ X.ipText ip)
    {s : CounterStore X × Nat} {sums : Str × IpAddr → List Increment} (h : Holds abs s.1 sums)
    (c : TimedCall) :
    Holds abs (c.serve s).1.1 fun pair =>
      (c.increment pair (s.2 + c.elapsed)).foldl (extendRun Increment.Continues) (sums pair) := by
  obtain ⟨m, hstore, hsums⟩ := h
  obtain ⟨elapsed, name, ip, op⟩ := c
  cases op with
  | get => exact ⟨m, hstore, hsums⟩
  | incr amount windowSecs =>
      refine ⟨m.add (name, ip) ⟨s.2 + elapsed, amount, windowSecs⟩,
        hstore.incr hmoka htext hfree name ip ⟨s.2 + elapsed, amount, windowSecs⟩, ?_⟩
      intro pair
      rw [hsums.add (name, ip) ⟨s.2 + elapsed, amount, windowSecs⟩ pair]
      unfold TimedCall.increment
      by_cases hpair : (name, ip) = pair
      · subst hpair
        rw [Function.update_self]
        simp
      · rw [Function.update_of_ne (Ne.symm hpair)]
        simp [hpair]

/-- Calls extend the runs by the additions they make. -/
theorem Holds.run (hmoka : (X.moka Str Counter).ModelledBy abs)
    (htext : Function.Injective X.ipText) (hfree : ∀ ip, Char.ofNat 1 ∉ X.ipText ip)
    (calls : List TimedCall) {s : CounterStore X × Nat} {sums : Str × IpAddr → List Increment}
    (h : Holds abs s.1 sums) :
    Holds abs (BuduWaf.run TimedCall.serve s calls).1.1 fun pair =>
      (TimedCall.increments pair s.2 calls).foldl (extendRun Increment.Continues) (sums pair) := by
  induction calls generalizing s sums with
  | nil => exact h
  | cons c calls ih =>
      have hnext := ih (h.serve hmoka htext hfree c)
      simp only [TimedCall.serve_clock, ← List.foldl_append] at hnext
      exact hnext

/-- The count that a run of additions leaves: their sum, saturated, until it is forgotten. -/
def countAt (sums : List Increment) (now : Nat) : Nat :=
  match sums.getLast? with
  | some last =>
    if now < last.expiry then min (sums.map fun i => i.amount.toNat).sum (2 ^ 64 - 1) else 0
  | none => 0

/-- The count that is read of a store that holds such runs is the sum of the run of its counter,
saturated, until it is forgotten. -/
theorem Holds.get (hmoka : (X.moka Str Counter).ModelledBy abs) {store : CounterStore X}
    {sums : Str × IpAddr → List Increment} (h : Holds abs store sums) (now : Nat) (name : Str)
    (ip : IpAddr) :
    (CounterStore.get store now name ip).toNat = countAt (sums (name, ip)) now := by
  obtain ⟨m, hstore, hsums⟩ := h
  rw [hstore.get hmoka, CounterMap.value, hsums (name, ip), CounterMap.summary, countAt]
  cases (sums (name, ip)).getLast? with
  | none => rfl
  | some last =>
      rw [Option.map_some]
      dsimp only
      split
      · rfl
      · rfl

/-- **The counter store refines a map.** After any calls, a counter reads as the saturated sum of
the trailing run of additions to it, until that is forgotten; calls on other counters leave it
alone. -/
theorem counter_store_refines_map (hmoka : (X.moka Str Counter).ModelledBy abs)
    (htext : Function.Injective X.ipText) (hfree : ∀ ip, Char.ofNat 1 ∉ X.ipText ip)
    (start : Nat) (calls : List TimedCall) (name : Str) (ip : IpAddr) {sums : List Increment}
    (hsums : IsTrailingRun Increment.Continues sums
      (TimedCall.increments (name, ip) start calls)) :
    let s := (BuduWaf.run TimedCall.serve ((CounterStore.new : CounterStore X), start) calls).1
    (∀ elapsed, (CounterStore.get s.1 (s.2 + elapsed) name ip).toNat =
      countAt sums (s.2 + elapsed)) ∧
    ∀ c : TimedCall, (c.name, c.ip) ≠ (name, ip) → ∀ now,
      CounterStore.get (c.serve s).1.1 now name ip = CounterStore.get s.1 now name ip := by
  have hempty : Holds abs (CounterStore.new (X := X)) fun _ => [] :=
    ⟨fun _ => none, CounterMap.represents_new hmoka, fun _ => rfl⟩
  have hrun := hempty.run hmoka htext hfree calls (s := (CounterStore.new, start))
  have hsame : sums = trailingRun Increment.Continues
      (TimedCall.increments (name, ip) start calls) :=
    hsums.unique (isTrailingRun_trailingRun _)
  intro s
  refine ⟨fun elapsed => ?_, fun c hc now => ?_⟩
  · rw [hrun.get hmoka, hsame]
    rfl
  · have hnone : c.increment (name, ip) (s.2 + c.elapsed) = [] := by
      unfold TimedCall.increment
      cases c.op with
      | get => rfl
      | incr amount windowSecs => exact if_neg hc
    have hafter := (hrun.serve hmoka htext hfree c).get hmoka now name ip
    rw [hnone, List.foldl_nil] at hafter
    exact UInt64.toNat_inj.mp (hafter.trans (hrun.get hmoka now name ip).symm)

end calls

/-- Two additions within a window, and one under a name that holds the separator. -/
def separatorCalls : List TimedCall :=
  [⟨0, "login", .v4 0xC0000201, .incr 2 60⟩, ⟨30 * nanos, "login", .v4 0xC0000201, .incr 3 60⟩,
    ⟨nanos, ("login" : Str) ++ [Char.ofNat 1], .v4 0xC0000201, .incr 9 60⟩,
    ⟨nanos, "login", .v4 0xC0000201, .get⟩]

/-- The store, and the clock, after these calls. -/
def afterSeparatorCalls : CounterStore (.plain .none .none) × Nat :=
  (BuduWaf.run TimedCall.serve (CounterStore.new, 0) separatorCalls).1

/-- The additions to one counter add up, and an addition to a counter with another name does not
change the count. -/
theorem separator_calls_counted :
    (CounterStore.get afterSeparatorCalls.1 (afterSeparatorCalls.2 + nanos) "login"
      (.v4 0xC0000201)).toNat = 5 ∧
    ∀ c : TimedCall, (c.name, c.ip) ≠ (("login" : Str), .v4 0xC0000201) → ∀ now,
      CounterStore.get (c.serve afterSeparatorCalls).1.1 now "login" (.v4 0xC0000201) =
        CounterStore.get afterSeparatorCalls.1 now "login" (.v4 0xC0000201) := by
  have hcounted := counter_store_refines_map (X := .plain .none .none) .self
    Plain.ipText_injective Plain.separator_not_mem_ipText 0 separatorCalls "login" (.v4 0xC0000201)
    (isTrailingRun_trailingRun _)
  exact ⟨(hcounted.1 nanos).trans (by decide +kernel), hcounted.2⟩

end BuduWaf.RateLimit
