import BuduWaf.Rules.BruteForce

/-!
# `budu-ratelimit`: counters under concurrency

A call of `incr` reads the cache and writes it afterwards, and other calls may come in between.

* **`World`**: the store, the clock, and how far each call is; it takes one event after the other.
* **`Bounded`**: the invariant of every run. What the store holds of a key, and what a call
  between its halves is about to write, is at most what the calls that have read add up to.
* **`counters_never_overcount`**: so no count that is stored or returned is above that sum, and no
  threshold is passed before it is.
* **`Undisturbed`**: no call writes between the halves of another one.
* **`never_decreases_iff`**: the count of a key never decreases, whatever the amounts are, if and
  only if the calls are undisturbed.

Calls are named by an arbitrary type and a run is any list of halves, clock ticks, evictions and
look-ups. A half that is not due changes nothing, so every list is a run and no schedule has to be
shown possible. The first theorem assumes of the cache only that it answers with the last write or
not at all (`Cache.Remembers`); the second one is about when the entry stays, which is a hypothesis
on the run (`EntryStays`).

For its converse a disturbed call is given one amount, and a value is computed that the late write
erases (`decreases_of_disturbed`).
-/

namespace BuduWaf.RateLimit

open BuduWaf.Rules
open scoped List

variable {X : Crates} {ι : Type}

/-! ## The halves of a call -/

/-- The arguments of a call of `incr`: a counter, an address, an amount and a window. -/
structure Call where
  /-- The counter. -/
  name : Str
  /-- The address. -/
  ip : IpAddr
  /-- What is added. -/
  amount : UInt64
  /-- The time to live, in seconds. -/
  windowSecs : UInt64

namespace Call

variable (X) in
/-- The key of the counter a call adds to. -/
def key (c : Call) : Str := CounterStore.key X c.name c.ip

/-- The first half: the current count.
Source: `budu-ratelimit/src/lib.rs` `CounterStore::incr` (`let current`) -/
def read (c : Call) (s : CounterStore X) (now : Nat) : UInt64 := CounterStore.get s now c.name c.ip

/-- The count that is written and returned.
Source: `budu-ratelimit/src/lib.rs` `CounterStore::incr` (`let count`) -/
def count (c : Call) (current : UInt64) : UInt64 := saturatingAdd64 current c.amount

/-- The entry a call writes, with the count it makes of the one it has read. -/
def counter (c : Call) (current : UInt64) : Counter :=
  ⟨c.count current, max c.windowSecs.toNat 1 * nanos⟩

/-- The second half: the store with the new count.
Source: `budu-ratelimit/src/lib.rs` `CounterStore::incr` (`self.cache.insert`) -/
def write (c : Call) (s : CounterStore X) (now : Nat) (current : UInt64) : CounterStore X :=
  (X.moka Str Counter).insert s now (c.key X) (c.counter current)
    (counterExpiry (c.counter current))

/-- A call is its halves where nothing comes in between. -/
theorem incr_eq (c : Call) (s : CounterStore X) (now : Nat) :
    CounterStore.incr s now c.name c.ip c.amount c.windowSecs =
      (c.count (c.read s now), c.write s now (c.read s now)) := rfl

/-- A saturated sum is at most the sum. -/
theorem toNat_count_le (c : Call) (current : UInt64) :
    (c.count current).toNat ≤ current.toNat + c.amount.toNat := by
  unfold count
  rw [toNat_saturatingAdd64]
  exact Nat.min_le_left _ _

/-- A count with an amount added is not smaller. -/
theorem le_count (c : Call) (current : UInt64) : current.toNat ≤ (c.count current).toNat := by
  have hsize := current.toNat_lt
  unfold count
  rw [toNat_saturatingAdd64]
  omega

end Call

/-! ## Events -/

/-- How far a call has come: it has read its count or not, and written one or not. -/
inductive Progress where
  | waiting
  /-- It has read this count, and written none. -/
  | inFlight (current : UInt64)
  | done
deriving DecidableEq

/-- The two halves of a call, between which other calls may act. -/
inductive Access (ι : Type) where
  | read (i : ι)
  | insert (i : ι)
deriving DecidableEq

/-- What may happen next: a half of a call, a look-up, maintenance, or time passes. -/
inductive Event (ι : Type) where
  | access (a : Access ι)
  /-- A count is looked up. -/
  | get (name : Str) (ip : IpAddr)
  /-- Nanoseconds pass. -/
  | pass (elapsed : Nat)
  /-- Pending evictions are carried out. -/
  | maintain

/-- A count that `incr` or `get` returned. -/
structure Returned where
  /-- The key of its counter. -/
  key : Str
  /-- The count. -/
  value : UInt64

variable (X ι) in
/-- A store that is shared by calls, with its clock. -/
structure World where
  /-- The content of the store. -/
  store : CounterStore X
  /-- The clock, in nanoseconds. -/
  now : Nat
  /-- How far each call is. -/
  progress : ι → Progress
  /-- The calls that have read. -/
  reads : List ι

namespace World

/-- Nothing has happened yet: no call has begun, and the store is a new one. -/
def new (start : Nat) : World X ι := ⟨CounterStore.new, start, fun _ => .waiting, []⟩

/-- The count that a look-up of a counter finds. -/
def stored (w : World X ι) (name : Str) (ip : IpAddr) : UInt64 :=
  CounterStore.get w.store w.now name ip

/-- What the calls on a key that have read add up to. -/
def recorded (calls : ι → Call) (w : World X ι) (k : Str) : Nat :=
  ((w.reads.filter fun i => (calls i).key X = k).map fun i => (calls i).amount.toNat).sum

end World

section step

variable [DecidableEq ι] (calls : ι → Call)

/-- One half of a call; one that is not due changes nothing. -/
def accessStep (w : World X ι) : Access ι → World X ι × List Returned
  | .read i =>
    match w.progress i with
    | .waiting =>
      ({ w with
          progress := Function.update w.progress i (.inFlight ((calls i).read w.store w.now))
          reads := i :: w.reads }, [])
    | _ => (w, [])
  | .insert i =>
    match w.progress i with
    | .inFlight current =>
      ({ w with
          store := (calls i).write w.store w.now current
          progress := Function.update w.progress i .done },
        [⟨(calls i).key X, (calls i).count current⟩])
    | _ => (w, [])

/-- One event, and what calls and look-ups return at it. -/
def step (w : World X ι) : Event ι → World X ι × List Returned
  | .access a => accessStep calls w a
  | .get name ip => (w, [⟨CounterStore.key X name ip, w.stored name ip⟩])
  | .pass elapsed => ({ w with now := w.now + elapsed }, [])
  | .maintain => ({ w with store := (X.moka Str Counter).runPendingTasks w.store w.now }, [])

/-- What an event does, with the condition under which it does. -/
inductive StepKind (w : World X ι) : Event ι → World X ι × List Returned → Prop
  | read (i : ι) (hprogress : w.progress i = .waiting) :
      StepKind w (.access (.read i))
        ({ w with
            progress := Function.update w.progress i (.inFlight ((calls i).read w.store w.now))
            reads := i :: w.reads }, [])
  | insert (i : ι) (current : UInt64) (hprogress : w.progress i = .inFlight current) :
      StepKind w (.access (.insert i))
        ({ w with
            store := (calls i).write w.store w.now current
            progress := Function.update w.progress i .done },
          [⟨(calls i).key X, (calls i).count current⟩])
  | readBefore (i : ι) (hprogress : w.progress i ≠ .waiting) :
      StepKind w (.access (.read i)) (w, [])
  | insertOutOfTurn (i : ι) (hprogress : ∀ current, w.progress i ≠ .inFlight current) :
      StepKind w (.access (.insert i)) (w, [])
  | get (name : Str) (ip : IpAddr) :
      StepKind w (.get name ip) (w, [⟨CounterStore.key X name ip, w.stored name ip⟩])
  | pass (elapsed : Nat) : StepKind w (.pass elapsed) ({ w with now := w.now + elapsed }, [])
  | maintain :
      StepKind w .maintain
        ({ w with store := (X.moka Str Counter).runPendingTasks w.store w.now }, [])

/-- Every event is of one of these kinds. -/
theorem stepKind (w : World X ι) (e : Event ι) : StepKind calls w e (step calls w e) := by
  cases e with
  | access a =>
      cases a with
      | read i =>
          by_cases h : w.progress i = .waiting
          · simp only [step, accessStep, h]
            exact .read i h
          · simp only [step, accessStep]
            exact .readBefore i h
      | insert i =>
          by_cases h : ∃ current, w.progress i = .inFlight current
          · obtain ⟨current, h⟩ := h
            simp only [step, accessStep, h]
            exact .insert i current h
          · have hne : ∀ current, w.progress i ≠ .inFlight current := fun c hc => h ⟨c, hc⟩
            simp only [step, accessStep]
            exact .insertOutOfTurn i hne
  | get name ip => exact .get name ip
  | pass elapsed => exact .pass elapsed
  | maintain => exact .maintain

/-- A call that is in flight was so before, or is the one that moved. -/
theorem inFlight_of_update {p : ι → Progress} {i j : ι} {x : Progress} {c : UInt64}
    (h : Function.update p i x j = .inFlight c) :
    j = i ∧ x = .inFlight c ∨ j ≠ i ∧ p j = .inFlight c := by
  by_cases heq : j = i
  · subst heq
    rw [Function.update_self] at h
    exact Or.inl ⟨rfl, h⟩
  · rw [Function.update_of_ne heq] at h
    exact Or.inr ⟨heq, h⟩

end step

/-! ## No count above the truth -/

variable {held : CounterStore X → Str → Counter → Prop} {calls : ι → Call} {w : World X ι}

/-- One more call that has read adds its amount to what is recorded of its key. -/
theorem recorded_cons (i : ι) (k : Str) (progress : ι → Progress) :
    World.recorded calls { w with progress := progress, reads := i :: w.reads } k =
      (if (calls i).key X = k then (calls i).amount.toNat else 0) + w.recorded calls k := by
  unfold World.recorded
  by_cases h : (calls i).key X = k
  · rw [List.filter_cons_of_pos (by simpa using h), if_pos h, List.map_cons, List.sum_cons]
  · rw [List.filter_cons_of_neg (by simpa using h), if_neg h, Nat.zero_add]

/-- Counts are at most what the calls that have read add up to, those in the store and those that
calls between their halves are about to write. -/
structure Bounded (held : CounterStore X → Str → Counter → Prop) (calls : ι → Call)
    (w : World X ι) : Prop where
  /-- In the store. -/
  stored : ∀ k v, held w.store k v → v.count.toNat ≤ w.recorded calls k
  /-- In flight. -/
  inFlight : ∀ i current, w.progress i = .inFlight current →
    current.toNat + (calls i).amount.toNat ≤ w.recorded calls ((calls i).key X)

namespace Bounded

/-- Where nothing has happened nothing is held or in flight, so it is within what was recorded. -/
theorem new (hmoka : (X.moka Str Counter).Remembers held) (start : Nat) :
    Bounded held calls (World.new start) where
  stored k v h := absurd h (hmoka.build none k v)
  inFlight i current h := by cases h

/-- What a look-up finds at any instant is at most what is recorded of its key. -/
theorem get_le (hmoka : (X.moka Str Counter).Remembers held) (h : Bounded held calls w)
    (now : Nat) (name : Str) (ip : IpAddr) :
    (CounterStore.get w.store now name ip).toNat ≤
      w.recorded calls (CounterStore.key X name ip) := by
  unfold CounterStore.get
  cases hfound : (X.moka Str Counter).get w.store now (CounterStore.key X name ip) with
  | none => exact Nat.zero_le _
  | some v => exact h.stored _ v (hmoka.get hfound)

/-- An event keeps what the store and the calls in flight hold within what was recorded. -/
theorem step [DecidableEq ι] (hmoka : (X.moka Str Counter).Remembers held)
    (h : Bounded held calls w) (e : Event ι) : Bounded held calls (step calls w e).1 := by
  have hkind := stepKind calls w e
  generalize RateLimit.step calls w e = after at hkind ⊢
  cases hkind with
  | read i hprogress =>
      have hgrows : ∀ k, w.recorded calls k ≤ World.recorded calls { w with
          progress := Function.update w.progress i (.inFlight ((calls i).read w.store w.now))
          reads := i :: w.reads } k := by
        intro k
        rw [recorded_cons]
        exact Nat.le_add_left _ _
      refine ⟨fun k v hv => (h.stored k v hv).trans (hgrows k), ?_⟩
      intro j current hj
      rcases inFlight_of_update hj with ⟨rfl, hcurrent⟩ | ⟨-, hj⟩
      · obtain rfl := Progress.inFlight.inj hcurrent
        have hread := h.get_le hmoka w.now (calls j).name (calls j).ip
        rw [recorded_cons, if_pos rfl, Nat.add_comm]
        exact Nat.add_le_add_left hread _
      · exact (h.inFlight j current hj).trans (hgrows _)
  | insert i current hprogress =>
      refine ⟨?_, ?_⟩
      · intro k v hv
        rcases hmoka.insert hv with ⟨rfl, rfl⟩ | ⟨-, hv⟩
        · exact ((calls i).toNat_count_le current).trans (h.inFlight i current hprogress)
        · exact h.stored k v hv
      · intro j current' hj
        rcases inFlight_of_update hj with ⟨-, ⟨⟩⟩ | ⟨-, hj⟩
        exact h.inFlight j current' hj
  | readBefore i hprogress => exact h
  | insertOutOfTurn i hprogress => exact h
  | get name ip => exact h
  | pass elapsed => exact ⟨h.stored, h.inFlight⟩
  | maintain => exact ⟨fun k v hv => h.stored k v (hmoka.runPendingTasks hv), h.inFlight⟩

/-- An event returns no more than was recorded for its key. -/
theorem returned_le [DecidableEq ι] (hmoka : (X.moka Str Counter).Remembers held)
    (h : Bounded held calls w) (e : Event ι) : ∀ r ∈ (RateLimit.step calls w e).2,
    r.value.toNat ≤ (RateLimit.step calls w e).1.recorded calls r.key := by
  have hkind := stepKind calls w e
  generalize RateLimit.step calls w e = after at hkind ⊢
  intro r hr
  cases hkind with
  | read i hprogress => cases hr
  | insert i current hprogress =>
      obtain rfl := List.mem_singleton.mp hr
      exact ((calls i).toNat_count_le current).trans (h.inFlight i current hprogress)
  | readBefore i hprogress => cases hr
  | insertOutOfTurn i hprogress => cases hr
  | get name ip =>
      obtain rfl := List.mem_singleton.mp hr
      exact h.get_le hmoka w.now name ip
  | pass elapsed => cases hr
  | maintain => cases hr

end Bounded

/-- A condition on a counter, as documented for thresholds. -/
def threshold (X : Crates) (counter : Str) (op : Op X) : CompiledCond X :=
  ⟨.counter counter, op, false, []⟩

/-- A threshold tests the count that a look-up finds. -/
theorem threshold_matches {op : Op X} (hop : ∀ net, op ≠ .cidr net) (counter : Str) (now : Now)
    (ctx : RequestCtx) (counters : CounterStore X) :
    (threshold X counter op).matchesRequest now ctx counters =
      evalOp op (Str.ofNat (CounterStore.get counters now.mono counter ctx.client.ip).toNat) := by
  have heval : (threshold X counter op).evalCandidates
      (collectCandidates now ctx counters (.counter counter)) =
      evalOp op (Str.ofNat (CounterStore.get counters now.mono counter ctx.client.ip).toNat) := by
    simp [threshold, CompiledCond.evalCandidates, collectCandidates]
  rw [← heval]
  unfold CompiledCond.matchesRequest CompiledCond.test threshold
  dsimp only
  rw [Bool.xor_false]
  split
  · rename_i net
    exact absurd rfl (hop net)
  · rfl

/-- A numeric test holds of a count that fits an `i64`, and of which it is true. -/
theorem numericTest_ofNat {test : Int → Bool} {n : Nat} :
    numericTest test (Str.ofNat n) = true ↔ n < 2 ^ 63 ∧ test n = true := by
  rw [numericTest, Str.trim_ofNat, Str.parseInt_ofNat]
  by_cases hfits : n < 2 ^ 63
  · rw [if_pos hfits, Option.any_some]
    exact (and_iff_right hfits).symm
  · rw [if_neg hfits, Option.any_none]
    exact iff_of_false Bool.false_ne_true fun h => hfits h.1

/-- The world that calls have made of an empty store. -/
def World.after [DecidableEq ι] (calls : ι → Call) (start : Nat) (events : List (Event ι)) :
    World X ι :=
  (run (step calls) (World.new start) events).1

/-- The calls that have read are those that wait no longer, and each counts once. -/
theorem reads_spec [DecidableEq ι] (calls : ι → Call) (start : Nat) (events : List (Event ι)) :
    (World.after (X := X) calls start events).reads.Nodup ∧
      ∀ i, i ∈ (World.after (X := X) calls start events).reads ↔
        (World.after (X := X) calls start events).progress i ≠ .waiting := by
  refine run_keeps (P := fun w : World X ι => w.reads.Nodup ∧
    ∀ i, i ∈ w.reads ↔ w.progress i ≠ .waiting) ?_ ⟨List.nodup_nil, by simp [World.new]⟩
  intro w e _ h
  have hkind := stepKind calls w e
  generalize step calls w e = after at hkind ⊢
  cases hkind with
  | read i hprogress =>
      refine ⟨List.nodup_cons.mpr ⟨fun hi => (h.2 i).mp hi hprogress, h.1⟩, ?_⟩
      intro j
      by_cases heq : j = i
      · subst heq
        simp
      · simp [heq, h.2 j]
  | insert i current hprogress =>
      refine ⟨h.1, ?_⟩
      intro j
      by_cases heq : j = i
      · subst heq
        simp [h.2 j, hprogress]
      · simp [heq, h.2 j]
  | readBefore i hprogress => exact h
  | insertOutOfTurn i hprogress => exact h
  | get name ip => exact h
  | pass elapsed => exact h
  | maintain => exact h

/-- **A call alone is `incr`**: its halves, one after the other, return its count and leave its
store. -/
theorem run_halves [DecidableEq ι] (calls : ι → Call) {w : World X ι} {i : ι}
    (h : w.progress i = .waiting) :
    let incr := CounterStore.incr w.store w.now (calls i).name (calls i).ip (calls i).amount
      (calls i).windowSecs
    let r := run (step calls) w [.access (.read i), .access (.insert i)]
    r.1.store = incr.2 ∧ r.2 = [⟨(calls i).key X, incr.1⟩] := by
  intro incr r
  have hincr : incr = _ := (calls i).incr_eq w.store w.now
  have hr : r = run (step calls) w [.access (.read i), .access (.insert i)] := rfl
  rw [hincr, hr]
  simp [run_cons, run_nil, step, accessStep, h]

/-- No count is above the truth: none in the store at any instant, none that the next event
returns, and none that a threshold takes for more than its limit. The truth counts each call once,
and a call that is alone is `incr`. -/
structure NeverOver [DecidableEq ι] (calls : ι → Call) (w : World X ι) : Prop where
  /-- In the store. -/
  stored : ∀ now k v, (X.moka Str Counter).get w.store now k = some v →
    v.count.toNat ≤ w.recorded calls k
  /-- Returned. -/
  returned : ∀ e, ∀ r ∈ (step calls w e).2,
    r.value.toNat ≤ (step calls w e).1.recorded calls r.key
  /-- Above a limit. -/
  above : ∀ counter limit now ctx,
    (threshold X counter (.gt limit)).matchesRequest now ctx w.store = true →
      limit < w.recorded calls (CounterStore.key X counter ctx.client.ip)
  /-- At a limit. -/
  reached : ∀ counter limit now ctx,
    (threshold X counter (.ge limit)).matchesRequest now ctx w.store = true →
      limit ≤ w.recorded calls (CounterStore.key X counter ctx.client.ip)
  /-- Each call that has read counts once. -/
  once : w.reads.Nodup ∧ ∀ i, i ∈ w.reads ↔ w.progress i ≠ .waiting
  /-- The next call, if it is alone. -/
  alone : ∀ i, w.progress i = .waiting →
    let incr := CounterStore.incr w.store w.now (calls i).name (calls i).ip (calls i).amount
      (calls i).windowSecs
    let r := run (step calls) w [.access (.read i), .access (.insert i)]
    r.1.store = incr.2 ∧ r.2 = [⟨(calls i).key X, incr.1⟩]

/-- **Counters never over-count**, whatever calls there are, however their halves are interleaved,
and whatever is evicted in between. -/
theorem counters_never_overcount [DecidableEq ι] (hmoka : (X.moka Str Counter).Remembers held)
    (calls : ι → Call) (start : Nat) (events : List (Event ι)) :
    NeverOver calls (World.after (X := X) calls start events) := by
  have hbounded : Bounded (X := X) held calls (World.after calls start events) :=
    run_keeps (fun _ e _ h => h.step hmoka e) (.new hmoka start)
  constructor
  · intro now k v hfound
    exact hbounded.stored k v (hmoka.get hfound)
  · exact hbounded.returned_le hmoka
  · intro counter limit now ctx h
    have hle := hbounded.get_le hmoka now.mono counter ctx.client.ip
    rw [threshold_matches (by rintro net ⟨⟩)] at h
    have htest := of_decide_eq_true (numericTest_ofNat.mp h).2
    omega
  · intro counter limit now ctx h
    have hle := hbounded.get_le hmoka now.mono counter ctx.client.ip
    rw [threshold_matches (by rintro net ⟨⟩)] at h
    have htest := of_decide_eq_true (numericTest_ofNat.mp h).2
    omega
  · exact reads_spec calls start events
  · exact fun i h => run_halves calls h

/-- The address 203.0.113.7, which logs in. -/
abbrev loginAddr : IpAddr := .v4 0xCB007107#32

/-- The log-ins of this address, each of which counts one. -/
def logins (_ : Nat) : Call := ⟨"login", loginAddr, 1, 60⟩

/-- Two log-ins that both read before either writes: one of them is lost, and none is made up. -/
def racingLogins : List (Event Nat) :=
  [.access (.read 0), .access (.read 1), .access (.insert 1), .access (.insert 0)]

/-- In the run of the example, where logins race, the count is never more than what was added. -/
theorem racing_logins_counted :
    NeverOver (X := .plain .none .none) logins (World.after logins 0 racingLogins) ∧
      (World.after (X := .plain .none .none) logins 0 racingLogins).stored "login" loginAddr = 1 ∧
      World.recorded (X := .plain .none .none) logins (World.after logins 0 racingLogins)
        ((logins 0).key (.plain .none .none)) = 2 :=
  ⟨counters_never_overcount Cache.remembers_timed logins 0 racingLogins, by decide +kernel,
    by decide +kernel⟩

/-! ## No count lower than before -/

/-- The half of a call that an event is. -/
def Event.toAccess : Event ι → Option (Access ι)
  | .access a => some a
  | _ => none

/-- The halves of calls, in their order. -/
def accesses (events : List (Event ι)) : List (Access ι) := events.filterMap Event.toAccess

/-- A schedule of accesses only has these accesses. -/
theorem accesses_map (s : List (Access ι)) : accesses (s.map .access) = s := by
  unfold accesses
  rw [List.filterMap_map]
  exact List.filterMap_some

/-- Calls that are executed: each half comes at most once, and a read before its write. -/
structure IsSchedule (s : List (Access ι)) : Prop where
  /-- At most once. -/
  nodup : s.Nodup
  /-- The read first. -/
  read_first : ∀ i, .insert i ∈ s → [.read i, .insert i] <+ s

/-- No other call writes between the halves of a call. -/
def Undisturbed (s : List (Access ι)) : Prop :=
  ∀ i j, i ≠ j → ¬ [.read i, .insert j, .insert i] <+ s

/-- Calls that all add to one counter of one address. -/
def onKey (name : Str) (ip : IpAddr) (amount windowSecs : ι → UInt64) (i : ι) : Call :=
  ⟨name, ip, amount i, windowSecs i⟩

section key

variable [DecidableEq ι] (calls : ι → Call) (name : Str) (ip : IpAddr)

/-- Where no call writes, the entry is found as before: it neither expires nor is it evicted. -/
def EntryStays (w : World X ι) : Event ι → Prop
  | .access _ => True
  | e => (X.moka Str Counter).get (step calls w e).1.store (step calls w e).1.now
      (CounterStore.key X name ip) =
        (X.moka Str Counter).get w.store w.now (CounterStore.key X name ip)

/-- The count that is found after an event is at least the one before. -/
def NeverDecreases (w : World X ι) (events : List (Event ι)) : Prop :=
  Along (step calls)
    (fun w e => (w.stored name ip).toNat ≤ ((step calls w e).1.stored name ip).toNat) w events

end key

/-- A call whose write is to come has read the count that is there, and it is the next one that
writes. -/
structure Fresh (name : Str) (ip : IpAddr) (w : World X ι) (rest : List (Access ι)) : Prop where
  /-- The store is one without an idle time. -/
  grown : (X.moka Str Counter).Grown w.store
  /-- What was read is there. -/
  current : ∀ i c, w.progress i = .inFlight c → .insert i ∈ rest → c = w.stored name ip
  /-- No other call writes first. -/
  next : ∀ i j c, w.progress i = .inFlight c → i ≠ j → ¬ [.insert j, .insert i] <+ rest
  /-- No call writes between the halves of a call to come. -/
  undisturbed : Undisturbed rest

section fresh

variable {name : Str} {ip : IpAddr} {amount windowSecs : ι → UInt64}

/-- What is fresh stays so when its first access is taken away. -/
theorem Fresh.tail {a : Access ι} {rest : List (Access ι)} (h : Fresh name ip w (a :: rest)) :
    Fresh name ip w rest where
  grown := h.grown
  current i c hi hmem := h.current i c hi (List.mem_cons_of_mem a hmem)
  next i j c hi hne hsub := h.next i j c hi hne (hsub.cons a)
  undisturbed i j hne hsub := h.undisturbed i j hne (hsub.cons a)

/-- The count that was just written is found. -/
theorem stored_write [DecidableEq ι] (hmoka : (X.moka Str Counter).Remembers held)
    (hgrown : (X.moka Str Counter).Grown w.store) (i : ι) (c : UInt64)
    (progress : ι → Progress) :
    World.stored (X := X) { w with
      store := (onKey name ip amount windowSecs i).write w.store w.now c
      progress := progress } name ip = saturatingAdd64 c (amount i) := by
  have hpos : 0 < max (windowSecs i).toNat 1 * nanos :=
    Nat.mul_pos (Nat.lt_of_lt_of_le Nat.one_pos (Nat.le_max_right _ _)) (by decide)
  have hfound := hmoka.found hgrown w.now (CounterStore.key X name ip)
    ((onKey name ip amount windowSecs i).counter c) hpos
  exact congrArg (fun o => (Option.map Counter.count o).getD 0) hfound

/-- Once a call has written, its count is found: what it read and its amount. -/
theorem stored_insert [DecidableEq ι] (hmoka : (X.moka Str Counter).Remembers held)
    (hgrown : (X.moka Str Counter).Grown w.store) {i : ι} {c : UInt64}
    (h : w.progress i = .inFlight c) :
    (step (onKey name ip amount windowSecs) w (.access (.insert i))).1.stored name ip =
      saturatingAdd64 c (amount i) := by
  have hstep : (step (onKey name ip amount windowSecs) w (.access (.insert i))).1 =
      { w with
        store := (onKey name ip amount windowSecs i).write w.store w.now c
        progress := Function.update w.progress i .done } := by
    simp only [step, accessStep, h]
  rw [hstep, stored_write hmoka hgrown]

/-- **One event** does not lower the count, and leaves every call fresh. -/
theorem Fresh.step [DecidableEq ι] (hmoka : (X.moka Str Counter).Remembers held) {e : Event ι}
    {es : List (Event ι)} (h : Fresh name ip w (accesses (e :: es)))
    (hstays : EntryStays (onKey name ip amount windowSecs) name ip w e) :
    (w.stored name ip).toNat ≤
        ((step (onKey name ip amount windowSecs) w e).1.stored name ip).toNat ∧
      Fresh name ip (step (onKey name ip amount windowSecs) w e).1 (accesses es) := by
  have hsame : ∀ w' : World X ι, w'.progress = w.progress →
      (X.moka Str Counter).Grown w'.store → w'.stored name ip = w.stored name ip →
      accesses (e :: es) = accesses es →
      (w.stored name ip).toNat ≤ (w'.stored name ip).toNat ∧ Fresh name ip w' (accesses es) := by
    intro w' hprogress hgrown hstored haccesses
    rw [haccesses] at h
    refine ⟨(congrArg UInt64.toNat hstored).ge, hgrown, ?_, ?_, h.undisturbed⟩
    · intro i c hi
      rw [hstored]
      exact h.current i c (hprogress ▸ hi)
    · intro i j c hi
      exact h.next i j c (hprogress ▸ hi)
  have hkind := stepKind (onKey name ip amount windowSecs) w e
  generalize RateLimit.step (onKey name ip amount windowSecs) w e = after at hkind hstays ⊢
  cases hkind with
  | read i hprogress =>
      -- What it has read is there, and what comes behind it is undisturbed.
      refine ⟨le_refl _, h.grown, ?_, ?_, (Fresh.tail h).undisturbed⟩
      · intro j c hj hmem
        rcases inFlight_of_update hj with ⟨rfl, hc⟩ | ⟨-, hj⟩
        · exact (Progress.inFlight.inj hc).symm
        · exact (Fresh.tail h).current j c hj hmem
      · intro j k c hj hne hsub
        rcases inFlight_of_update hj with ⟨rfl, -⟩ | ⟨-, hj⟩
        · exact h.undisturbed j k hne (hsub.cons_cons _)
        · exact (Fresh.tail h).next j k c hj hne hsub
  | insert i c hprogress =>
      have hc : c = w.stored name ip := h.current i c hprogress List.mem_cons_self
      refine ⟨?_, .insert _ _ _ _ h.grown, ?_, ?_, (Fresh.tail h).undisturbed⟩
      · rw [stored_write hmoka h.grown, ← hc]
        exact (onKey name ip amount windowSecs i).le_count c
      · -- No call that has read writes any more.
        intro j c' hj hmem
        rcases inFlight_of_update hj with ⟨-, ⟨⟩⟩ | ⟨hne, hj⟩
        have hsub := (List.singleton_sublist.mpr hmem).cons_cons (Access.insert i)
        exact absurd hsub (h.next j i c' hj hne)
      · intro j k c' hj hne
        rcases inFlight_of_update hj with ⟨-, ⟨⟩⟩ | ⟨-, hj⟩
        exact (Fresh.tail h).next j k c' hj hne
  | readBefore i hprogress => exact ⟨le_refl _, Fresh.tail h⟩
  | insertOutOfTurn i hprogress => exact ⟨le_refl _, Fresh.tail h⟩
  | get name' ip' => exact hsame w rfl h.grown rfl rfl
  | pass elapsed =>
      refine hsame _ rfl h.grown ?_ rfl
      exact congrArg (fun o => (Option.map Counter.count o).getD 0) hstays
  | maintain =>
      refine hsame _ rfl (.runPendingTasks _ h.grown) ?_ rfl
      exact congrArg (fun o => (Option.map Counter.count o).getD 0) hstays

/-- **Undisturbed calls never lower the count.** -/
theorem neverDecreases_of_fresh [DecidableEq ι] (hmoka : (X.moka Str Counter).Remembers held)
    {events : List (Event ι)} (h : Fresh name ip w (accesses events))
    (hstays : Along (step (onKey name ip amount windowSecs))
      (EntryStays (onKey name ip amount windowSecs) name ip) w events) :
    NeverDecreases (onKey name ip amount windowSecs) name ip w events := by
  induction events generalizing w with
  | nil => trivial
  | cons e es ih =>
      obtain ⟨hle, hfresh⟩ := h.step hmoka hstays.1
      exact ⟨hle, ih hfresh hstays.2⟩

end fresh

/-! ### Where a call is disturbed -/

section disturbed

variable [DecidableEq ι] {i : ι}

/-- A call that has read keeps what it read until it writes. -/
theorem inFlight_step (calls : ι → Call) {c : UInt64} (h : w.progress i = .inFlight c) {e : Event ι}
    (hne : e ≠ .access (.insert i)) : (step calls w e).1.progress i = .inFlight c := by
  have hkind := stepKind calls w e
  generalize step calls w e = after at hkind ⊢
  cases hkind with
  | read j hprogress =>
      have hij : i ≠ j := by
        rintro rfl
        rw [h] at hprogress
        cases hprogress
      simp [Function.update_of_ne hij, h]
  | insert j c' hprogress =>
      have hij : i ≠ j := by
        rintro rfl
        exact hne rfl
      simp [Function.update_of_ne hij, h]
  | readBefore j hprogress => exact h
  | insertOutOfTurn j hprogress => exact h
  | get name ip => exact h
  | pass elapsed => exact h
  | maintain => exact h

/-- A call stays in flight over a run in which it does not write. -/
theorem inFlight_run (calls : ι → Call) {c : UInt64} (h : w.progress i = .inFlight c)
    {s : List (Access ι)} (hi : .insert i ∉ s) :
    (run (step calls) w (s.map .access)).1.progress i = .inFlight c := by
  refine run_keeps (P := fun w : World X ι => w.progress i = .inFlight c) ?_ h
  intro w' e he hw'
  obtain ⟨a, ha, rfl⟩ := List.mem_map.mp he
  refine inFlight_step calls hw' ?_
  rintro heq
  exact hi (Event.access.inj heq ▸ ha)

/-- A call whose read has come and whose write has not is in flight. -/
theorem inFlight_of_read (calls : ι → Call) (h : w.progress i = .waiting) {s : List (Access ι)}
    (hread : .read i ∈ s) (hi : .insert i ∉ s) :
    ∃ c, (run (step calls) w (s.map .access)).1.progress i = .inFlight c := by
  induction s generalizing w with
  | nil => cases hread
  | cons a s ih =>
      have hrest : Access.insert i ∉ s := List.not_mem_of_not_mem_cons hi
      have hkind := stepKind calls w (.access a)
      rw [List.map_cons, run_cons]
      dsimp only
      by_cases ha : a = .read i
      · subst ha
        refine ⟨_, inFlight_run calls (c := (calls i).read w.store w.now) ?_ hrest⟩
        simp [step, accessStep, h]
      · refine ih ?_ ((List.mem_cons.mp hread).resolve_left (Ne.symm ha)) hrest
        generalize step calls w (.access a) = after at hkind ⊢
        cases hkind with
        | read j hprogress =>
            have hij : i ≠ j := by
              rintro rfl
              exact ha rfl
            simp [Function.update_of_ne hij, h]
        | insert j c hprogress =>
            have hij : i ≠ j := by
              rintro rfl
              rw [h] at hprogress
              cases hprogress
            simp [Function.update_of_ne hij, h]
        | readBefore j hprogress => exact h
        | insertOutOfTurn j hprogress => exact h

/-- No count is anything but zero, neither in the store nor in flight. -/
structure AllZero (held : CounterStore X → Str → Counter → Prop) (w : World X ι) : Prop where
  /-- In the store. -/
  stored : ∀ k v, held w.store k v → v.count = 0
  /-- In flight. -/
  inFlight : ∀ i c, w.progress i = .inFlight c → c = 0

/-- It stays so while no call writes that adds something. -/
theorem AllZero.step (hmoka : (X.moka Str Counter).Remembers held) (h : AllZero held w)
    {e : Event ι} (hzero : ∀ i, e = .access (.insert i) → (calls i).amount = 0) :
    AllZero held (step calls w e).1 := by
  have hkind := stepKind calls w e
  generalize RateLimit.step calls w e = after at hkind ⊢
  cases hkind with
  | read i hprogress =>
      refine ⟨h.stored, ?_⟩
      intro j c hj
      rcases inFlight_of_update hj with ⟨rfl, hc⟩ | ⟨-, hj⟩
      · rw [← Progress.inFlight.inj hc]
        unfold Call.read CounterStore.get
        cases hfound : (X.moka Str Counter).get w.store w.now
            (CounterStore.key X (calls j).name (calls j).ip) with
        | none => rfl
        | some v => exact h.stored _ v (hmoka.get hfound)
      · exact h.inFlight j c hj
  | insert i c hprogress =>
      refine ⟨?_, ?_⟩
      · intro k v hv
        rcases hmoka.insert hv with ⟨rfl, rfl⟩ | ⟨-, hv⟩
        · unfold Call.counter Call.count
          rw [h.inFlight i c hprogress, hzero i rfl]
          rfl
        · exact h.stored k v hv
      · intro j c' hj
        rcases inFlight_of_update hj with ⟨-, ⟨⟩⟩ | ⟨-, hj⟩
        exact h.inFlight j c' hj
  | readBefore i hprogress => exact h
  | insertOutOfTurn i hprogress => exact h
  | get name ip => exact h
  | pass elapsed => exact ⟨h.stored, h.inFlight⟩
  | maintain => exact ⟨fun k v hv => h.stored k v (hmoka.runPendingTasks hv), h.inFlight⟩

/-- Of two things in this order, the first one stands before the only place of the second one. -/
theorem mem_of_sublist {α : Type} {a b : α} (hab : a ≠ b) {d rest : List α} (hb : b ∉ rest)
    (h : [a, b] <+ d ++ b :: rest) : a ∈ d := by
  induction d with
  | nil =>
      cases h with
      | cons _ h => exact absurd (h.subset (by simp)) hb
      | cons_cons _ h => exact absurd rfl hab
  | cons x d ih =>
      cases h with
      | cons _ h => exact List.mem_cons_of_mem x (ih h)
      | cons_cons _ h => exact List.mem_cons_self

variable {name : Str} {ip : IpAddr}

/-- An event builds no new store, so the store has grown from the one it was. -/
theorem grown_step (calls : ι → Call) (h : (X.moka Str Counter).Grown w.store) (e : Event ι) :
    (X.moka Str Counter).Grown (step calls w e).1.store := by
  have hkind := stepKind calls w e
  generalize step calls w e = after at hkind ⊢
  cases hkind with
  | insert i c hprogress => exact .insert _ _ _ _ h
  | maintain => exact .runPendingTasks _ h
  | _ => exact h

/-- The store of a run was built without an idle time. -/
theorem grown_run (calls : ι → Call) (h : (X.moka Str Counter).Grown w.store)
    (events : List (Event ι)) :
    (X.moka Str Counter).Grown (run (step calls) w events).1.store :=
  run_keeps (P := fun w : World X ι => (X.moka Str Counter).Grown w.store)
    (fun _ e _ hw => grown_step calls hw e) h

/-- One call adds one, and all others nothing. -/
def onlyAdds (j : ι) (i : ι) : UInt64 := if i = j then 1 else 0

/-- A call that has read zero and adds nothing lowers what another one has written before it. -/
theorem lowered_of_inFlight (hmoka : (X.moka Str Counter).Remembers held) {i j : ι} (hij : i ≠ j)
    {windowSecs : ι → UInt64} (hgrown : (X.moka Str Counter).Grown w.store)
    (hi : w.progress i = .inFlight 0) {c : UInt64} (hj : w.progress j = .inFlight c)
    {middle : List (Access ι)} (hmiddle : .insert i ∉ middle) (rest : List (Access ι)) :
    ¬ NeverDecreases (onKey name ip (onlyAdds j) windowSecs) name ip w
      ((.insert j :: (middle ++ .insert i :: rest)).map .access) := by
  intro hnever
  rw [List.map_cons, List.map_append, List.map_cons] at hnever
  obtain ⟨hraised, hlowered, -⟩ := along_append_iff.mp hnever.2
  have hstays := le_run_of_along hraised
  have hone : 1 ≤ (saturatingAdd64 c (onlyAdds j j)).toNat := by
    have hunit : (1 : UInt64).toNat = 1 := rfl
    unfold saturatingAdd64 onlyAdds
    rw [if_pos rfl]
    split
    · rw [UInt64.toNat_add]
      omega
    · decide
  have hnone : (saturatingAdd64 0 (onlyAdds j i)).toNat = 0 := by
    unfold onlyAdds
    rw [if_neg hij]
    rfl
  have hne : (Event.access (.insert j) : Event ι) ≠ .access (.insert i) :=
    fun heq => hij (Access.insert.inj (Event.access.inj heq)).symm
  have hflight := inFlight_run (onKey name ip (onlyAdds j) windowSecs)
    (inFlight_step (onKey name ip (onlyAdds j) windowSecs) hi hne) hmiddle
  have hlater := grown_run (onKey name ip (onlyAdds j) windowSecs)
    (grown_step (onKey name ip (onlyAdds j) windowSecs) hgrown (.access (.insert j)))
    (middle.map .access)
  rw [stored_insert hmoka hgrown hj] at hstays
  rw [stored_insert hmoka hlater hflight] at hlowered
  omega

/-- **A disturbed call lowers the count**, where the call that disturbs it adds one and no other
call anything. -/
theorem decreases_of_disturbed (hmoka : (X.moka Str Counter).Remembers held) (start : Nat)
    {s : List (Access ι)} (hs : IsSchedule s) {i j : ι} (hij : i ≠ j)
    (hsub : [.read i, .insert j, .insert i] <+ s) (windowSecs : ι → UInt64) :
    ¬ NeverDecreases (onKey name ip (onlyAdds j) windowSecs) name ip (World.new (X := X) start)
      (s.map .access) := by
  -- The other call writes behind `front`, the disturbed one behind `middle`.
  obtain ⟨front, middle, rest, rfl, hread⟩ : ∃ front middle rest,
      s = front ++ .insert j :: (middle ++ .insert i :: rest) ∧ .read i ∈ front := by
    obtain ⟨r₁, r₂, rfl, hread, hother⟩ := List.cons_sublist_iff.mp hsub
    obtain ⟨r₃, r₄, rfl, hother, hlast⟩ := List.cons_sublist_iff.mp hother
    obtain ⟨d₁, d₂, rfl⟩ := List.append_of_mem hother
    obtain ⟨b, rest, rfl⟩ := List.append_of_mem (List.singleton_sublist.mp hlast)
    exact ⟨r₁ ++ d₁, d₂ ++ b, rest, by simp, List.mem_append_left _ hread⟩
  obtain ⟨-, htail, hdisjoint⟩ := List.nodup_append.mp hs.nodup
  obtain ⟨hother, htail⟩ := List.nodup_cons.mp htail
  have hj : Access.insert j ∉ front := fun h => hdisjoint _ h _ List.mem_cons_self rfl
  have hi : Access.insert i ∉ front := fun h => hdisjoint _ h _ (by simp) rfl
  have hmiddle : Access.insert i ∉ middle :=
    fun h => (List.nodup_append.mp htail).2.2 _ h _ List.mem_cons_self rfl
  have hreadj : Access.read j ∈ front :=
    mem_of_sublist (by simp) hother (hs.read_first j (by simp))
  -- Before the other call writes, both have read, and all counts are zero.
  have hzero : AllZero held (run (step (onKey name ip (onlyAdds j) windowSecs))
      (World.new (X := X) start) (front.map .access)).1 := by
    refine run_keeps ?_ ⟨fun k v hv => absurd hv (hmoka.build none k v), fun i c h => by cases h⟩
    intro w e he hw
    refine hw.step hmoka ?_
    rintro k rfl
    obtain ⟨a, ha, heq⟩ := List.mem_map.mp he
    obtain rfl := Event.access.inj heq
    have hne : k ≠ j := by
      rintro rfl
      exact hj ha
    simp [onKey, onlyAdds, hne]
  obtain ⟨c, hc⟩ := inFlight_of_read (onKey name ip (onlyAdds j) windowSecs)
    (w := World.new (X := X) start) rfl hread hi
  obtain ⟨c', hc'⟩ := inFlight_of_read (onKey name ip (onlyAdds j) windowSecs)
    (w := World.new (X := X) start) rfl hreadj hj
  obtain rfl := hzero.inFlight i c hc
  unfold NeverDecreases
  rw [List.map_append, along_append_iff]
  rintro ⟨-, hnever⟩
  exact lowered_of_inFlight hmoka hij (grown_run _ .build _) hc hc' hmiddle rest hnever

/-- **The count of a key never decreases** as long as its entry stays, whatever the amounts are
and whatever happens in between, if and only if no call writes between the halves of another. -/
theorem never_decreases_iff (hmoka : (X.moka Str Counter).Remembers held) (name : Str)
    (ip : IpAddr) (start : Nat) {s : List (Access ι)} (hs : IsSchedule s) :
    (∀ (amount windowSecs : ι → UInt64) (events : List (Event ι)), accesses events = s →
      Along (step (onKey name ip amount windowSecs))
        (EntryStays (onKey name ip amount windowSecs) name ip) (World.new (X := X) start) events →
      NeverDecreases (onKey name ip amount windowSecs) name ip (World.new (X := X) start) events) ↔
      Undisturbed s := by
  constructor
  · intro h i j hij hsub
    refine decreases_of_disturbed hmoka start hs hij hsub (fun _ => 1) (h _ _ _ ?_ ?_)
    · exact accesses_map s
    · refine along_of_forall fun w e he => ?_
      obtain ⟨a, -, rfl⟩ := List.mem_map.mp he
      trivial
  · rintro hfree amount windowSecs events rfl hstays
    refine neverDecreases_of_fresh hmoka ⟨.build, ?_, ?_, hfree⟩ hstays
    · rintro i c ⟨⟩
    · rintro i j c ⟨⟩

end disturbed

/-! ### Log-ins from one address -/

/-- Two log-ins one after the other, a second apart. -/
def serialLogins : List (Event Bool) :=
  [.access (.read false), .access (.insert false), .pass nanos, .access (.read true),
    .access (.insert true)]

/-- Logins that are counted one after the other never decrease the count. -/
theorem serial_logins_counted :
    NeverDecreases (onKey "login" loginAddr (fun _ => 1) (fun _ => 60)) "login" loginAddr
      (World.new (X := .plain .none .none) 0) serialLogins :=
  (never_decreases_iff (X := .plain .none .none) Cache.remembers_timed "login" loginAddr 0
    (s := [.read false, .insert false, .read true, .insert true]) ⟨by decide, by decide⟩).mpr
    (by unfold Undisturbed; decide) (fun _ => 1) (fun _ => 60) serialLogins rfl
    ⟨trivial, trivial, rfl, trivial, trivial, trivial⟩

/-- A log-in that reads first and writes last, and three more in between. -/
def lateInsert : List (Access (Fin 4)) :=
  [.read 0, .read 1, .insert 1, .read 2, .insert 2, .read 3, .insert 3, .insert 0]

/-- The late write sets the count from three back to one. -/
theorem late_insert_erases : IsSchedule lateInsert ∧
    (World.after (X := .plain .none .none) (onKey "login" loginAddr (fun _ => 1) fun _ => 60) 0
      (lateInsert.dropLast.map .access)).stored "login" loginAddr = 3 ∧
    (World.after (X := .plain .none .none) (onKey "login" loginAddr (fun _ => 1) fun _ => 60) 0
      (lateInsert.map .access)).stored "login" loginAddr = 1 ∧
    ¬ ∀ events : List (Event (Fin 4)), accesses events = lateInsert →
      Along (step (onKey "login" loginAddr (fun _ => 1) fun _ => 60))
        (EntryStays (onKey "login" loginAddr (fun _ => 1) fun _ => 60) "login" loginAddr)
        (World.new (X := .plain .none .none) 0) events →
      NeverDecreases (onKey "login" loginAddr (fun _ => 1) fun _ => 60) "login" loginAddr
        (World.new (X := .plain .none .none) 0) events := by
  refine ⟨⟨by decide, by decide⟩, by decide +kernel, by decide +kernel, ?_⟩
  intro h
  obtain ⟨-, -, -, -, -, -, -, hlast, -⟩ := h (lateInsert.map .access) rfl
    ⟨trivial, trivial, trivial, trivial, trivial, trivial, trivial, trivial, trivial⟩
  exact absurd hlast (by decide +kernel)

end BuduWaf.RateLimit
