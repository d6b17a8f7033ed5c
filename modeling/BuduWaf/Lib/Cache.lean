import Mathlib.Data.Option.Basic
import Mathlib.Tactic.Common

/-!
# Caches with expiring entries

A concurrent cache as its callers see it, in state-passing form: what a lookup at an instant
returns, and how reads, writes and time change the content. Instants and durations are
nanoseconds.

* **`Cache`** is the interface. Nothing is assumed about evictions, so a result proved over it
  holds for every capacity and eviction policy.
* **`Cache.timed`** is the plain instance: an entry lives until its write deadline or until it
  has been idle too long, and nothing else removes it. Contents with the same live entries behave
  alike (`SameLive`), and contents with some entries in common behave alike on those keys
  (`Timed.AgreeOn`). `Cache.ModelledBy` says of any cache that it behaves as this one.
* **`Cache.Keeps`** says of one with a bounded capacity that it drops nothing live while no more
  keys are written than it has room for.
* **`Cache.Remembers`** says of any cache only that it answers with what was written last, or not
  at all.

Time is an argument of every operation and the content does not move by itself. An expired entry
may therefore still be stored, and `live` says whether it is found. The relations between contents
below are about what is found, not about what is stored, since pending evictions may be carried out
at any moment.

* **`timed_getWith`** and **`ModelledBy.getWith`** are the one rule for a lookup that stores what it
  misses, for the plain cache and for those that behave as it does.
* **`Keeps.getWith`** is the same rule for a bounded cache that has room: what it holds may have
  been swept meanwhile (`Timed.Swept`), and the value that is found is the same.
-/

namespace BuduWaf

/-- A cache from `κ` to `ν` as its callers see it. -/
structure Cache (κ ν : Type) where
  /-- What the cache holds at some moment. -/
  Content : Type
  /-- A new, empty cache; `some d` evicts an entry that has been idle for `d`. -/
  build : (timeToIdle : Option Nat) → Content
  /-- The live value of a key at an instant. -/
  get : Content → (now : Nat) → κ → Option ν
  /-- The content after a read of a key. -/
  touch : Content → (now : Nat) → κ → Content
  /-- The content after a write; `some d` lets the entry live for `d`. -/
  insert : Content → (now : Nat) → κ → ν → (ttl : Option Nat) → Content
  /-- The content after the value of a key changed behind its shared pointer, which is no
  operation of the cache itself. -/
  mutate : Content → κ → ν → Content
  /-- The content after pending evictions were carried out. -/
  runPendingTasks : Content → (now : Nat) → Content

namespace Cache

variable {κ ν : Type}

/-- The value of a key, which is `init` and newly stored where there was none. -/
def getWith (C : Cache κ ν) (c : C.Content) (now : Nat) (k : κ) (init : ν) : ν × C.Content :=
  match C.get c now k with
  | some v => (v, C.touch c now k)
  | none => (init, C.insert c now k init none)

/-! ## The plain instance -/

/-- An entry: its value, the instant its write expires, and its last use. -/
structure Entry (ν : Type) where
  /-- The stored value. -/
  value : ν
  /-- The instant from which the entry is gone, if its write set one. -/
  deadline : Option Nat
  /-- The last read or write. -/
  used : Nat

/-- The content of a plain cache: its entries by their keys, and the idle time after which one is
gone. -/
structure Timed (κ ν : Type) where
  /-- The idle time after which an entry is gone, if the cache was built with one. -/
  idle : Option Nat
  /-- The entries, live or not. -/
  entry : κ → Option (Entry ν)

/-- An entry is live before its deadline and before its idle time ran out. -/
def Entry.live (idle : Option Nat) (now : Nat) (e : Entry ν) : Bool :=
  e.deadline.all (now < ·) && idle.all (now < e.used + ·)

/-- The plain cache: nothing but deadlines and idle times removes an entry. -/
def timed (κ ν : Type) [DecidableEq κ] : Cache κ ν where
  Content := Timed κ ν
  build idle := ⟨idle, fun _ => none⟩
  get c now k := ((c.entry k).filter (Entry.live c.idle now)).map Entry.value
  touch c now k :=
    { c with entry := fun j => if j = k then (c.entry k).map ({ · with used := now })
                               else c.entry j }
  insert c now k v ttl :=
    { c with entry := fun j => if j = k then some ⟨v, ttl.map (now + ·), now⟩ else c.entry j }
  mutate c k v :=
    { c with entry := fun j => if j = k then (c.entry k).map ({ · with value := v })
                               else c.entry j }
  runPendingTasks c now := { c with entry := fun j => (c.entry j).filter (Entry.live c.idle now) }

/-- After a lookup that stores what it misses, the key's entry was used now; no deadline is set
that was not there, and other entries are as they were. -/
theorem timed_getWith [DecidableEq κ] (c : Timed κ ν) (now : Nat) (k : κ) (init : ν) :
    ((timed κ ν).getWith c now k init).2.idle = c.idle ∧
      (∃ e, ((timed κ ν).getWith c now k init).2.entry k = some e ∧ e.used = now ∧
        ((c.entry k).all (·.deadline.isNone) → e.deadline = none)) ∧
      ∀ j, j ≠ k → ((timed κ ν).getWith c now k init).2.entry j = c.entry j := by
  unfold Cache.getWith
  cases hget : (timed κ ν).get c now k with
  | none =>
      refine ⟨rfl, ⟨⟨init, none, now⟩, if_pos rfl, rfl, fun _ => rfl⟩, ?_⟩
      intro j hj
      exact if_neg hj
  | some v =>
      obtain ⟨e, he, -⟩ := Option.map_eq_some_iff.mp hget
      have hentry := (Option.filter_eq_some_iff.mp he).1
      refine ⟨rfl, ⟨{ e with used := now }, ?_, rfl, ?_⟩, ?_⟩
      · show (if k = k then _ else _) = _
        rw [if_pos rfl, hentry, Option.map_some]
      · intro hnone
        rw [hentry] at hnone
        simpa using hnone
      · intro j hj
        exact if_neg hj

/-- A cache behaves as the plain one does: `abs` reads its content as entries. -/
structure ModelledBy [DecidableEq κ] (C : Cache κ ν) (abs : C.Content → Timed κ ν) : Prop where
  build : ∀ idle, abs (C.build idle) = (timed κ ν).build idle
  get : ∀ c now k, C.get c now k = (timed κ ν).get (abs c) now k
  touch : ∀ c now k, abs (C.touch c now k) = (timed κ ν).touch (abs c) now k
  insert : ∀ c now k v ttl, abs (C.insert c now k v ttl) = (timed κ ν).insert (abs c) now k v ttl
  mutate : ∀ c k v, abs (C.mutate c k v) = (timed κ ν).mutate (abs c) k v
  runPendingTasks : ∀ c now,
    abs (C.runPendingTasks c now) = (timed κ ν).runPendingTasks (abs c) now

/-- The plain cache behaves as itself, its content read as it is. -/
theorem ModelledBy.self [DecidableEq κ] : (timed κ ν).ModelledBy id :=
  ⟨fun _ => rfl, fun _ _ _ => rfl, fun _ _ _ => rfl, fun _ _ _ _ _ => rfl, fun _ _ _ => rfl,
    fun _ _ => rfl⟩

/-- A cache that behaves as the plain one looks up, and stores what it misses, as the plain one
does. -/
theorem ModelledBy.getWith [DecidableEq κ] {C : Cache κ ν} {abs : C.Content → Timed κ ν}
    (h : C.ModelledBy abs) (c : C.Content) (now : Nat) (k : κ) (init : ν) :
    (C.getWith c now k init).1 = ((timed κ ν).getWith (abs c) now k init).1 ∧
      abs (C.getWith c now k init).2 = ((timed κ ν).getWith (abs c) now k init).2 := by
  unfold Cache.getWith
  rw [h.get c now k]
  cases (timed κ ν).get (abs c) now k with
  | none => exact ⟨rfl, h.insert c now k init none⟩
  | some v => exact ⟨rfl, h.touch c now k⟩

/-! ### What a cache answers with -/

/-- Contents of a cache that was built without an idle time. -/
inductive Grown (C : Cache κ ν) : C.Content → Prop
  | build : Grown C (C.build none)
  | insert {c : C.Content} (now : Nat) (k : κ) (v : ν) (ttl : Option Nat) :
      Grown C c → Grown C (C.insert c now k v ttl)
  | runPendingTasks {c : C.Content} (now : Nat) : Grown C c → Grown C (C.runPendingTasks c now)

/-- A content of a cache built without an idle time, read as entries, has none. -/
theorem ModelledBy.idle_of_grown [DecidableEq κ] {C : Cache κ ν} {abs : C.Content → Timed κ ν}
    (h : C.ModelledBy abs) {c : C.Content} (hc : Grown C c) : (abs c).idle = none := by
  induction hc with
  | build => rw [h.build]; rfl
  | insert now k v ttl _ ih => rw [h.insert]; exact ih
  | runPendingTasks now _ ih => rw [h.runPendingTasks]; exact ih

/-- A cache answers with what was written last, or not at all, whatever it evicts: `held` are the
values that it may still answer with. -/
structure Remembers (C : Cache κ ν) (held : C.Content → κ → ν → Prop) : Prop where
  build : ∀ idle k v, ¬ held (C.build idle) k v
  get : ∀ {c now k v}, C.get c now k = some v → held c k v
  insert : ∀ {c now k v ttl j w}, held (C.insert c now k v ttl) j w →
    j = k ∧ w = v ∨ j ≠ k ∧ held c j w
  found : ∀ {c}, C.Grown c → ∀ now k v {ttl}, 0 < ttl →
    C.get (C.insert c now k v (some ttl)) now k = some v
  runPendingTasks : ∀ {c now k v}, held (C.runPendingTasks c now) k v → held c k v

/-- The plain cache remembers: what it may answer with is what its entries hold, live or not. -/
theorem remembers_timed [DecidableEq κ] :
    (timed κ ν).Remembers fun c k v => ∃ e, c.entry k = some e ∧ e.value = v where
  build idle k v := by
    rintro ⟨e, he, -⟩
    cases he
  get h := by
    obtain ⟨e, he, hv⟩ := Option.map_eq_some_iff.mp h
    exact ⟨e, (Option.filter_eq_some_iff.mp he).1, hv⟩
  insert := by
    rintro c now k v ttl j w ⟨e, he, hw⟩
    simp only [timed] at he
    split at he
    · rename_i hj
      obtain rfl := Option.some.inj he
      exact Or.inl ⟨hj, hw.symm⟩
    · rename_i hj
      exact Or.inr ⟨hj, e, he, hw⟩
  found := by
    intro c hc now k v ttl httl
    have hidle : c.idle = none := by
      induction hc with
      | build => rfl
      | insert _ _ _ _ _ ih => exact ih
      | runPendingTasks _ _ ih => exact ih
    have hlater : now < now + ttl := Nat.lt_add_of_pos_right httl
    simp [timed, Entry.live, hidle, hlater]
  runPendingTasks := by
    rintro c now k v ⟨e, he, hv⟩
    exact ⟨e, (Option.filter_eq_some_iff.mp he).1, hv⟩

/-! ### Entries that are gone -/

/-- The entry of a key, where it is live. -/
def Timed.liveEntry (c : Timed κ ν) (now : Nat) (k : κ) : Option (Entry ν) :=
  (c.entry k).filter (Entry.live c.idle now)

/-- Two contents with the same live entries. -/
structure SameLive (now : Nat) (c c' : Timed κ ν) : Prop where
  /-- The same idle time. -/
  idle : c.idle = c'.idle
  /-- The same live entries. -/
  entry : ∀ k, c.liveEntry now k = c'.liveEntry now k

/-- An entry that is live at a later instant is live now. -/
theorem Entry.live_of_later {idle : Option Nat} {now elapsed : Nat} {e : Entry ν}
    (h : e.live idle (now + elapsed) = true) : e.live idle now = true := by
  unfold Entry.live at h ⊢
  rw [Bool.and_eq_true, Option.all_eq_true, Option.all_eq_true] at h ⊢
  constructor
  · intro d hd
    have hdeadline := h.1 d hd
    simp only [decide_eq_true_eq] at hdeadline ⊢
    omega
  · intro d hd
    have hidle := h.2 d hd
    simp only [decide_eq_true_eq] at hidle ⊢
    omega

/-- What is live at a later instant is what is live now and still is then. -/
theorem Timed.liveEntry_later (c : Timed κ ν) (now elapsed : Nat) (k : κ) :
    c.liveEntry (now + elapsed) k =
      (c.liveEntry now k).filter (Entry.live c.idle (now + elapsed)) := by
  unfold Timed.liveEntry
  cases c.entry k with
  | none => rfl
  | some e =>
      cases hlater : e.live c.idle (now + elapsed) with
      | true => simp [Option.filter, hlater, Entry.live_of_later hlater]
      | false => cases hnow : e.live c.idle now <;> simp [Option.filter, hlater, hnow]

/-- An entry that was last used its idle time ago is gone. -/
theorem Timed.liveEntry_of_used {c : Timed κ ν} {now idle : Nat} {k : κ}
    (hidle : c.idle = some idle) (h : ∀ e, c.entry k = some e → e.used + idle ≤ now) :
    c.liveEntry now k = none := by
  unfold liveEntry
  cases hentry : c.entry k with
  | none => rfl
  | some e =>
      have hgone : ¬ now < e.used + idle := Nat.not_lt.mpr (h e hentry)
      simp [Option.filter, Entry.live, hidle, hgone]

namespace SameLive

variable {now : Nat} {c c' : Timed κ ν}

/-- Contents with the same live entries have the same ones from then on. -/
theorem later (h : SameLive now c c') (elapsed : Nat) : SameLive (now + elapsed) c c' := by
  refine ⟨h.idle, ?_⟩
  intro k
  rw [Timed.liveEntry_later, Timed.liveEntry_later, h.entry k, h.idle]

variable [DecidableEq κ]

/-- Contents with the same live entries still have them after the same write to both. -/
theorem insert (h : SameLive now c c') (k : κ) (v : ν) (ttl : Option Nat) :
    SameLive now ((timed κ ν).insert c now k v ttl) ((timed κ ν).insert c' now k v ttl) := by
  refine ⟨h.idle, ?_⟩
  intro j
  have hj := h.entry j
  simp only [timed, Timed.liveEntry, h.idle] at hj ⊢
  split
  · rfl
  · exact hj

/-- Contents with the same live entries still have them after a read of a key whose entry is the
same. -/
theorem touch (h : SameLive now c c') {k : κ} (hk : c.entry k = c'.entry k) :
    SameLive now ((timed κ ν).touch c now k) ((timed κ ν).touch c' now k) := by
  refine ⟨h.idle, ?_⟩
  intro j
  have hj := h.entry j
  simp only [timed, Timed.liveEntry, h.idle, hk] at hj ⊢
  split
  · rfl
  · exact hj

/-- A lookup that stores what it misses gives the same value of both, and keeps their live entries
the same. -/
theorem getWith (h : SameLive now c c') (k : κ) (init : ν) :
    ((timed κ ν).getWith c now k init).1 = ((timed κ ν).getWith c' now k init).1 ∧
      SameLive now ((timed κ ν).getWith c now k init).2
        ((timed κ ν).getWith c' now k init).2 := by
  have hget : ∀ c : Timed κ ν,
      (timed κ ν).get c now k = (c.liveEntry now k).map Entry.value := fun _ => rfl
  unfold Cache.getWith
  rw [hget, hget, ← h.entry k]
  cases hlive : c.liveEntry now k with
  | none => exact ⟨rfl, h.insert k init none⟩
  | some e =>
      have hentry : ∀ c : Timed κ ν, c.liveEntry now k = some e → c.entry k = some e :=
        fun c hc => (Option.filter_eq_some_iff.mp hc).1
      refine ⟨rfl, h.touch ?_⟩
      rw [hentry c hlive, hentry c' ((h.entry k).symm.trans hlive)]

/-- Contents with the same live entries still have them after a value changed behind its pointer in
both. -/
theorem mutate (h : SameLive now c c') (k : κ) (v : ν) :
    SameLive now ((timed κ ν).mutate c k v) ((timed κ ν).mutate c' k v) := by
  have hvalue : ∀ (idle : Option Nat) (o : Option (Entry ν)),
      (o.map ({ · with value := v })).filter (Entry.live idle now) =
        (o.filter (Entry.live idle now)).map ({ · with value := v }) := by
    intro idle o
    cases o with
    | none => rfl
    | some e =>
        have hlive : ({ e with value := v } : Entry ν).live idle now = e.live idle now := rfl
        simp only [Option.map_some, Option.filter_some, hlive]
        split <;> rfl
  refine ⟨h.idle, ?_⟩
  intro j
  have hj := h.entry j
  have hk := h.entry k
  simp only [timed, Timed.liveEntry] at hj hk ⊢
  split
  · rw [hvalue, hvalue, hk]
  · exact hj

end SameLive

/-! ### Caches that keep what is live -/

/-- A content, after some of the entries that are gone were dropped. -/
structure Timed.Swept (now : Nat) (c c' : Timed κ ν) : Prop where
  /-- The same idle time. -/
  idle : c'.idle = c.idle
  /-- The same entries, but for some that are not live. -/
  entry : ∀ k, c'.entry k = c.entry k ∨ c'.entry k = none ∧ c.liveEntry now k = none

namespace Timed.Swept

variable {now : Nat} {c c' : Timed κ ν}

/-- A content is a sweep of itself, where nothing was gone. -/
theorem refl (c : Timed κ ν) : Swept now c c := ⟨rfl, fun _ => .inl rfl⟩

/-- A sweep keeps every entry that is live. -/
theorem entry_of_live (h : Swept now c c') {k : κ} {e : Entry ν} (he : c.entry k = some e)
    (hlive : e.live c.idle now = true) : c'.entry k = some e := by
  obtain hsame | ⟨-, hgone⟩ := h.entry k
  · exact hsame.trans he
  · rw [liveEntry, he, Option.filter_some, if_pos hlive] at hgone
    cases hgone

/-- A sweep adds nothing: each entry it leaves was there before. -/
theorem entry_of_some (h : Swept now c c') {k : κ} {e : Entry ν} (he : c'.entry k = some e) :
    c.entry k = some e := by
  obtain hsame | ⟨hnone, -⟩ := h.entry k
  · exact hsame.symm.trans he
  · rw [hnone] at he
    cases he

/-- A content and its sweep have the same live entry of each key. -/
theorem liveEntry_eq (h : Swept now c c') (k : κ) : c'.liveEntry now k = c.liveEntry now k := by
  obtain hsame | ⟨hnone, hgone⟩ := h.entry k
  · unfold liveEntry
    rw [hsame, h.idle]
  · rw [hgone, liveEntry, hnone]
    rfl

end Timed.Swept

/-- The cache holds entries of keys with some property only. -/
def Timed.Within (K : κ → Prop) (c : Timed κ ν) : Prop := ∀ k e, c.entry k = some e → K k

/-- **A cache with room for some keys**: as long as no others are written, it drops an entry only
when that is gone. `abs` reads its content as entries. -/
structure Keeps [DecidableEq κ] (C : Cache κ ν) (K : κ → Prop) (abs : C.Content → Timed κ ν) :
    Prop where
  /-- A new cache is empty. -/
  build : ∀ idle, abs (C.build idle) = (timed κ ν).build idle
  /-- A lookup finds what is live. -/
  get : ∀ c now k, C.get c now k = (timed κ ν).get (abs c) now k
  /-- A read. -/
  touch : ∀ {c}, (abs c).Within K → ∀ now k,
    Timed.Swept now ((timed κ ν).touch (abs c) now k) (abs (C.touch c now k))
  /-- A write of one of the keys. -/
  insert : ∀ {c}, (abs c).Within K → ∀ now {k}, K k → ∀ v ttl,
    Timed.Swept now ((timed κ ν).insert (abs c) now k v ttl) (abs (C.insert c now k v ttl))
  /-- A value that changed behind its pointer. -/
  mutate : ∀ c k v, abs (C.mutate c k v) = (timed κ ν).mutate (abs c) k v
  /-- The pending evictions. -/
  runPendingTasks : ∀ {c}, (abs c).Within K → ∀ now,
    Timed.Swept now (abs c) (abs (C.runPendingTasks c now))

section keeps

variable [DecidableEq κ]

/-- The plain content after the pending evictions. -/
theorem timed_runPendingTasks (c : Timed κ ν) (now : Nat) :
    Timed.Swept now c ((timed κ ν).runPendingTasks c now) := by
  refine ⟨rfl, ?_⟩
  intro k
  show c.liveEntry now k = c.entry k ∨ c.liveEntry now k = none ∧ _
  unfold Timed.liveEntry
  cases c.entry k with
  | none => exact .inl rfl
  | some e =>
      rw [Option.filter_some]
      split
      · exact .inl rfl
      · exact .inr ⟨rfl, rfl⟩

/-- The plain cache has no bound: it drops nothing live, whatever keys are written. -/
theorem keeps_timed (K : κ → Prop) : (timed κ ν).Keeps K id where
  build _ := rfl
  get _ _ _ := rfl
  touch _ _ _ := .refl _
  insert _ _ _ _ _ _ := .refl _
  mutate _ _ _ := rfl
  runPendingTasks _ now := timed_runPendingTasks _ now

/-- A cache that behaves as the plain one drops nothing live. -/
theorem ModelledBy.keeps {C : Cache κ ν} {abs : C.Content → Timed κ ν} (h : C.ModelledBy abs)
    (K : κ → Prop) : C.Keeps K abs where
  build := h.build
  get := h.get
  touch _ now k := by
    rw [h.touch]
    exact .refl _
  insert _ now _ _ v ttl := by
    rw [h.insert]
    exact .refl _
  mutate := h.mutate
  runPendingTasks _ now := by
    rw [h.runPendingTasks]
    exact timed_runPendingTasks _ now

/-- Where a cache drops nothing live, a lookup that stores what it misses gives what the plain one
gives, on a content that is swept at most. -/
theorem Keeps.getWith {C : Cache κ ν} {K : κ → Prop} {abs : C.Content → Timed κ ν}
    (h : C.Keeps K abs) {c : C.Content} (hc : (abs c).Within K) (now : Nat) {k : κ} (hk : K k)
    (init : ν) :
    (C.getWith c now k init).1 = ((timed κ ν).getWith (abs c) now k init).1 ∧
      Timed.Swept now ((timed κ ν).getWith (abs c) now k init).2
        (abs (C.getWith c now k init).2) := by
  unfold Cache.getWith
  rw [h.get c now k]
  cases (timed κ ν).get (abs c) now k with
  | none => exact ⟨rfl, h.insert hc now hk init none⟩
  | some v => exact ⟨rfl, h.touch hc now k⟩

end keeps

/-! ### Entries that others see -/

/-- Two contents that are the same on some of the keys. -/
structure Timed.AgreeOn (P : κ → Prop) (c c' : Timed κ ν) : Prop where
  /-- The same idle time. -/
  idle : c.idle = c'.idle
  /-- The same entries under these keys. -/
  entry : ∀ k, P k → c.entry k = c'.entry k

namespace Timed.AgreeOn

variable {P : κ → Prop} {c c' c'' : Timed κ ν}

/-- A content agrees with itself on every set of keys. -/
theorem refl (c : Timed κ ν) : AgreeOn P c c := ⟨rfl, fun _ _ => rfl⟩

/-- Having the entries of some keys in common is transitive. -/
theorem trans (h : AgreeOn P c c') (h' : AgreeOn P c' c'') : AgreeOn P c c'' :=
  ⟨h.idle.trans h'.idle, fun k hk => (h.entry k hk).trans (h'.entry k hk)⟩

variable [DecidableEq κ]

/-- Contents with the entries of some keys in common answer alike for these keys. -/
theorem get (h : AgreeOn P c c') (now : Nat) {k : κ} (hk : P k) :
    (timed κ ν).get c now k = (timed κ ν).get c' now k := by
  simp only [timed, h.idle, h.entry k hk]

/-- Contents with the entries of some keys in common keep them so where both are written. -/
theorem insert (h : AgreeOn P c c') (now : Nat) (k : κ) (v : ν) (ttl : Option Nat) :
    AgreeOn P ((timed κ ν).insert c now k v ttl) ((timed κ ν).insert c' now k v ttl) := by
  refine ⟨h.idle, ?_⟩
  intro j hj
  simp only [timed, h.entry j hj]

/-- Contents with the entries of some keys in common keep them so where the first is written at
another key. -/
theorem insert_left (h : AgreeOn P c c') (now : Nat) {k : κ} (hk : ¬P k) (v : ν)
    (ttl : Option Nat) : AgreeOn P ((timed κ ν).insert c now k v ttl) c' := by
  refine ⟨h.idle, ?_⟩
  intro j hj
  have hne : j ≠ k := fun hjk => hk (hjk ▸ hj)
  simp only [timed, if_neg hne, h.entry j hj]

/-- Contents with the entries of some keys in common keep them so where both are read at one of
these. -/
theorem touch (h : AgreeOn P c c') (now : Nat) {k : κ} (hk : P k) :
    AgreeOn P ((timed κ ν).touch c now k) ((timed κ ν).touch c' now k) := by
  refine ⟨h.idle, ?_⟩
  intro j hj
  simp only [timed, h.entry j hj, h.entry k hk]

/-- Contents with the entries of some keys in common keep them so where the value of one of these
changes in both. -/
theorem mutate (h : AgreeOn P c c') {k : κ} (hk : P k) (v : ν) :
    AgreeOn P ((timed κ ν).mutate c k v) ((timed κ ν).mutate c' k v) := by
  refine ⟨h.idle, ?_⟩
  intro j hj
  simp only [timed, h.entry j hj, h.entry k hk]

/-- Contents with the entries of some keys in common keep them so where both are swept. -/
theorem runPendingTasks (h : AgreeOn P c c') (now : Nat) :
    AgreeOn P ((timed κ ν).runPendingTasks c now) ((timed κ ν).runPendingTasks c' now) := by
  refine ⟨h.idle, ?_⟩
  intro j hj
  simp only [timed, h.idle, h.entry j hj]

/-- A lookup of one of these keys that stores what it misses. -/
theorem getWith (h : AgreeOn P c c') (now : Nat) {k : κ} (hk : P k) (init : ν) :
    ((timed κ ν).getWith c now k init).1 = ((timed κ ν).getWith c' now k init).1 ∧
      AgreeOn P ((timed κ ν).getWith c now k init).2 ((timed κ ν).getWith c' now k init).2 := by
  unfold Cache.getWith
  rw [h.get now hk]
  cases (timed κ ν).get c' now k with
  | none => exact ⟨rfl, h.insert now k init none⟩
  | some v => exact ⟨rfl, h.touch now hk⟩

end Timed.AgreeOn

end Cache

end BuduWaf
