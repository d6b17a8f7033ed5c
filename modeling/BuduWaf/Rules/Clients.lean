import BuduWaf.CounterMap
import BuduWaf.RateBound
import BuduWaf.Rules.BigStep
import BuduWaf.Rules.Generations

/-!
# `budu-rules`: one client among the others

The rules keep what they know of a client under its address: a bucket behind each limiter, and a
count under each counter's name. So a client's requests leave what the others find as it was.

* **`OthersAlike`**: two states that are the same but for what is kept of one client.
* **`evaluateCounting_of_other`**, **`evaluateResponse_of_other`**: on such states another client is
  answered alike, and such states are left.
* **`evaluateCounting_of_client`**, **`evaluateResponse_of_client`**: the client's own requests, on
  one side only, keep the states so.

The proof is a two-run simulation with `OthersAlike` between the states. There is a lemma for each
thing a rule may do to the state (ask a limiter, add to a counter), once for the client's requests,
which run on one side only, and once for the others', which run on both. A rule is then one of
these, and a rule list is a pass with the relation kept (`scan_rel`).

It needs that limiters do not share cells, which holds of every rule file (`wired_of_load`), and
that the keys of different addresses differ.
-/

namespace BuduWaf.Rules

open RateLimit

variable {X : Crates}

/-! ## The limiters of a load -/

/-- Limiters in cells of their own, none of them in a cell of a later load. -/
structure Wired (generation : Nat) (limiters : List IpRateLimiter) : Prop where
  /-- No two share a cell. -/
  nodup : (limiters.map IpRateLimiter.cell).Nodup
  /-- None has a cell of a later load. -/
  cells : ∀ l ∈ limiters, ∀ later, generation < later → ∀ position, l.cell ≠ .rule later position

/-- The limiters of a load have cells of their own, and of that load. -/
theorem cells_of_load {fs : FileSystem} {path : Str} {scoring : ScoringConfig} {defaultTz : Int}
    {generation : Nat} {rs : RuleSet X}
    (h : RuleSet.load X fs path scoring defaultTz generation = .ok rs) :
    (rs.limiters.map IpRateLimiter.cell).Nodup ∧
      ∀ l ∈ rs.limiters, ∃ position, l.cell = .rule generation position := by
  rw [load_generation] at h
  obtain ⟨first, hfirst, rfl⟩ := map_ok_iff.mp h
  have hplaced := placed_of_load hfirst
  rw [RuleSet.limiters_inGeneration]
  constructor
  · have hcells : (first.limiters.map (limiterIn generation)).map IpRateLimiter.cell =
        (first.limiters.map IpRateLimiter.cell).map (cellIn generation) := by
      rw [List.map_map, List.map_map]
      rfl
    rw [hcells]
    refine hplaced.nodup.map_on ?_
    intro cell hcell cell' hcell' hsame
    obtain ⟨l, hl, rfl⟩ := List.mem_map.mp hcell
    obtain ⟨l', hl', rfl⟩ := List.mem_map.mp hcell'
    obtain ⟨position, -, hposition⟩ := hplaced.cells l hl
    obtain ⟨position', -, hposition'⟩ := hplaced.cells l' hl'
    rw [hposition, hposition'] at hsame ⊢
    injection hsame with _ hsame
    rw [hsame]
  · intro l hl
    obtain ⟨first, hmem, rfl⟩ := List.mem_map.mp hl
    obtain ⟨position, -, hposition⟩ := hplaced.cells first hmem
    exact ⟨position, by rw [limiterIn, hposition, cellIn]⟩

/-- The limiters of the rules of a file have cells of their own, also beside the global one. -/
theorem wired_of_load {fs : FileSystem} {path : Str} {scoring : ScoringConfig} {defaultTz : Int}
    {generation : Nat} {rs : RuleSet X}
    (h : RuleSet.load X fs path scoring defaultTz generation = .ok rs) {global : IpRateLimiter}
    (hglobal : global.cell = .global) : Wired generation (global :: rs.limiters) := by
  obtain ⟨hnodup, hcells⟩ := cells_of_load h
  constructor
  · rw [List.map_cons, List.nodup_cons, hglobal]
    refine ⟨?_, hnodup⟩
    intro hmem
    obtain ⟨l, hl, hcell⟩ := List.mem_map.mp hmem
    obtain ⟨position, hposition⟩ := hcells l hl
    rw [hposition] at hcell
    cases hcell
  · intro l hl later hlater position hcell
    rcases List.mem_cons.mp hl with rfl | hl
    · rw [hglobal] at hcell
      cases hcell
    · obtain ⟨position', hposition⟩ := hcells l hl
      rw [hposition] at hcell
      injection hcell with hgeneration
      omega

/-! ## What is kept of the others -/

variable (X) in
/-- A key of the counter store that is not the client's, whatever the name of the counter. -/
def KeyOfOthers (client : IpAddr) (key : Str) : Prop :=
  ∀ name, key ≠ CounterStore.key X name client

section others

variable (buckets : (X.moka IpAddr X.Bucket).Content → Cache.Timed IpAddr X.Bucket)
  (counts : (X.moka Str Counter).Content → Cache.Timed Str Counter)

/-- Two states that are the same to everyone but one client. -/
structure OthersAlike (client : IpAddr) (generation : Nat) (limiters : List IpRateLimiter)
    (s t : RuleState X) : Prop where
  /-- The counters of the others. -/
  counters : (counts s.counters).AgreeOn (KeyOfOthers X client) (counts t.counters)
  /-- The buckets of the others. -/
  buckets : ∀ l ∈ limiters,
    (buckets (l.buckets s.limiters)).AgreeOn (· ≠ client) (buckets (l.buckets t.limiters))
  /-- No bucket of a later load is there yet. -/
  unused : ∀ later, generation < later → ∀ position,
    s.limiters (.rule later position) = none ∧ t.limiters (.rule later position) = none

end others

variable {buckets : (X.moka IpAddr X.Bucket).Content → Cache.Timed IpAddr X.Bucket}
  {counts : (X.moka Str Counter).Content → Cache.Timed Str Counter}
  {client : IpAddr} {generation : Nat} {limiters : List IpRateLimiter}

/-! ## One bucket -/

section buckets

variable (hbuckets : (X.moka IpAddr X.Bucket).ModelledBy buckets)

include hbuckets

/-- Another client's check is answered alike. -/
theorem checkIn_of_other (l : IpRateLimiter) {c c' : (X.moka IpAddr X.Bucket).Content}
    (h : (buckets c).AgreeOn (· ≠ client) (buckets c')) (now : Nat) {ip : IpAddr}
    (hip : ip ≠ client) :
    (l.checkIn c now ip).1 = (l.checkIn c' now ip).1 ∧
      (buckets (l.checkIn c now ip).2).AgreeOn (· ≠ client) (buckets (l.checkIn c' now ip).2) := by
  obtain ⟨hvalue, hcontent⟩ := hbuckets.getWith c now ip (X.direct l.quota now)
  obtain ⟨hvalue', hcontent'⟩ := hbuckets.getWith c' now ip (X.direct l.quota now)
  obtain ⟨hsame, hagree⟩ := h.getWith now hip (X.direct l.quota now)
  rw [← hvalue, ← hvalue'] at hsame
  rw [← hcontent, ← hcontent'] at hagree
  unfold IpRateLimiter.checkIn
  rcases hs : (X.moka IpAddr X.Bucket).getWith c now ip (X.direct l.quota now) with ⟨bucket, d⟩
  rcases ht : (X.moka IpAddr X.Bucket).getWith c' now ip (X.direct l.quota now) with ⟨bucket', d'⟩
  rw [hs, ht] at hsame hagree
  obtain rfl : bucket = bucket' := hsame
  dsimp only
  rcases X.check bucket now with ⟨_ | _, checked⟩
  · refine ⟨rfl, ?_⟩
    rw [hbuckets.mutate, hbuckets.mutate]
    exact hagree.mutate hip checked
  · refine ⟨rfl, ?_⟩
    rw [hbuckets.mutate, hbuckets.mutate]
    exact hagree.mutate hip checked

/-- The client's check leaves the buckets of the others. -/
theorem checkIn_of_client (l : IpRateLimiter) {c c' : (X.moka IpAddr X.Bucket).Content}
    (h : (buckets c).AgreeOn (· ≠ client) (buckets c')) (now : Nat) :
    (buckets (l.checkIn c now client).2).AgreeOn (· ≠ client) (buckets c') := by
  have hothers : (buckets (l.checkIn c now client).2).AgreeOn (· ≠ client) (buckets c) := by
    obtain ⟨hidle, -, hother⟩ :=
      Cache.timed_getWith (buckets c) now client (X.direct l.quota now)
    rw [(l.checkIn_eq c now client).2, hbuckets.mutate, (hbuckets.getWith c now client _).2]
    exact ⟨hidle, fun j hj => (if_neg hj).trans (hother j hj)⟩
  exact hothers.trans h

end buckets

/-! ## One write -/

namespace OthersAlike

variable {s t : RuleState X}

/-- A limiter's cell, rewritten on either side. -/
theorem rewrite (h : OthersAlike buckets counts client generation limiters s t)
    (hwired : Wired generation limiters) {l : IpRateLimiter} (hl : l ∈ limiters)
    {ls ls' : Limiters X}
    (hcell : (buckets (l.buckets ls)).AgreeOn (· ≠ client) (buckets (l.buckets ls')))
    (hs : ∀ cell, cell ≠ l.cell → ls cell = s.limiters cell)
    (ht : ∀ cell, cell ≠ l.cell → ls' cell = t.limiters cell) :
    OthersAlike buckets counts client generation limiters { s with limiters := ls }
      { t with limiters := ls' } := by
  refine { h with buckets := ?_, unused := ?_ }
  · intro l' hl'
    by_cases hsame : l'.cell = l.cell
    · obtain rfl := List.inj_on_of_nodup_map hwired.nodup hl' hl hsame
      exact hcell
    · have hother := h.buckets l' hl'
      show (buckets (l'.buckets ls)).AgreeOn (· ≠ client) (buckets (l'.buckets ls'))
      unfold IpRateLimiter.buckets at hother ⊢
      rw [hs _ hsame, ht _ hsame]
      exact hother
  · intro later hlater position
    have hne : Cell.rule later position ≠ l.cell :=
      (hwired.cells l hl later hlater position).symm
    obtain ⟨hnone, hnone'⟩ := h.unused later hlater position
    exact ⟨(hs _ hne).trans hnone, (ht _ hne).trans hnone'⟩

section moka

variable (hbuckets : (X.moka IpAddr X.Bucket).ModelledBy buckets)
  (hwired : Wired generation limiters)

include hbuckets hwired

/-- Another client's check, on both sides. -/
theorem check_of_other (h : OthersAlike buckets counts client generation limiters s t)
    {l : IpRateLimiter} (hl : l ∈ limiters) (now : Nat) {ip : IpAddr} (hip : ip ≠ client) :
    (l.check s.limiters now ip).1 = (l.check t.limiters now ip).1 ∧
      OthersAlike buckets counts client generation limiters
        { s with limiters := (l.check s.limiters now ip).2 }
        { t with limiters := (l.check t.limiters now ip).2 } := by
  obtain ⟨hanswer, hagree⟩ := checkIn_of_other hbuckets l (h.buckets l hl) now hip
  refine ⟨hanswer, h.rewrite hwired hl ?_ ?_ ?_⟩
  · rw [IpRateLimiter.buckets_check, IpRateLimiter.buckets_check]
    exact hagree
  · intro cell hcell
    exact Limiters.set_of_ne hcell _ _
  · intro cell hcell
    exact Limiters.set_of_ne hcell _ _

/-- A check of the client, on one side only, keeps the states alike to the others. -/
theorem check_of_client (h : OthersAlike buckets counts client generation limiters s t)
    {l : IpRateLimiter} (hl : l ∈ limiters) (now : Nat) :
    OthersAlike buckets counts client generation limiters
      { s with limiters := (l.check s.limiters now client).2 } t := by
  refine h.rewrite hwired hl ?_ ?_ fun _ _ => rfl
  · rw [IpRateLimiter.buckets_check]
    exact checkIn_of_client hbuckets l (h.buckets l hl) now
  · intro cell hcell
    exact Limiters.set_of_ne hcell _ _

end moka

section moka

variable (hcounts : (X.moka Str Counter).ModelledBy counts)

include hcounts

/-- The client's addition to a counter, on one side. -/
theorem incr_of_client (h : OthersAlike buckets counts client generation limiters s t)
    (now : Nat) (name : Str) (amount windowSecs : UInt64) :
    OthersAlike buckets counts client generation limiters
      { s with counters := (CounterStore.incr s.counters now name client amount windowSecs).2 }
      t := by
  have hown : ¬KeyOfOthers X client (CounterStore.key X name client) := fun hkey => hkey name rfl
  refine { h with counters := ?_ }
  unfold CounterStore.incr
  rw [hcounts.insert]
  exact h.counters.insert_left now hown _ _

variable (htext : Function.Injective X.ipText) (hfree : ∀ ip, Char.ofNat 1 ∉ X.ipText ip)
  {ip : IpAddr} (hip : ip ≠ client)

include htext hfree hip

omit hcounts in
/-- The keys of another client are not the client's. -/
theorem keyOfOthers_key (name : Str) : KeyOfOthers X client (CounterStore.key X name ip) := by
  intro name' hkey
  exact hip (CounterStore.key_injective htext hfree hkey).2

/-- Another client's count is the same on states that are the same to the others. -/
theorem get_of_other (h : OthersAlike buckets counts client generation limiters s t) (now : Nat)
    (name : Str) :
    CounterStore.get s.counters now name ip = CounterStore.get t.counters now name ip := by
  unfold CounterStore.get
  rw [hcounts.get, hcounts.get, h.counters.get now (keyOfOthers_key htext hfree hip name)]

/-- Another client's addition to a counter, on both sides. -/
theorem incr_of_other (h : OthersAlike buckets counts client generation limiters s t) (now : Nat)
    (name : Str) (amount windowSecs : UInt64) :
    OthersAlike buckets counts client generation limiters
      { s with counters := (CounterStore.incr s.counters now name ip amount windowSecs).2 }
      { t with counters := (CounterStore.incr t.counters now name ip amount windowSecs).2 } := by
  refine { h with counters := ?_ }
  unfold CounterStore.incr
  rw [hcounts.insert, hcounts.insert, h.get_of_other hcounts htext hfree hip]
  exact h.counters.insert now _ _ _

end moka

end OthersAlike

/-! ## The client's own requests -/

section client

variable (hbuckets : (X.moka IpAddr X.Bucket).ModelledBy buckets)
  (hcounts : (X.moka Str Counter).ModelledBy counts) (hwired : Wired generation limiters)
  {rs : RuleSet X} (hlimiters : ∀ l ∈ rs.limiters, l ∈ limiters) {now : Now} {s t : RuleState X}

include hcounts

/-- One response rule, on a response to the client, keeps the states alike to the others. -/
theorem responseStep_of_client {rctx : ResponseCtx} (hip : rctx.client.ip = client)
    (rule : CompiledRule X) (h : OthersAlike buckets counts client generation limiters s t) :
    OthersAlike buckets counts client generation limiters (responseStep now rctx rule s).2 t := by
  subst hip
  unfold responseStep
  split
  · cases rule.action with
    | incr counter amount windowSecs =>
        exact h.incr_of_client hcounts now.mono counter amount windowSecs
    | log => exact { h with }
    | _ => exact h
  · exact h

variable (rs now) in
/-- **A response to the client** changes nothing for the others. -/
theorem evaluateResponse_of_client {rctx : ResponseCtx} (hip : rctx.client.ip = client)
    (h : OthersAlike buckets counts client generation limiters s t) :
    OthersAlike buckets counts client generation limiters (rs.evaluateResponse now rctx s).2 t :=
  scan_preserves (I := fun s => OthersAlike buckets counts client generation limiters s t)
    (fun rule _ _ h => responseStep_of_client hcounts hip rule h) h

include hbuckets hwired

/-- What one rule does on a request of the client keeps the states alike to the others. -/
theorem effect_of_client {ctx : RequestCtx} (hip : ctx.client.ip = client) (counting : Bool)
    {rule : CompiledRule X} (hrule : ∀ l, rule.action = .rateLimit l → l ∈ limiters)
    (h : OthersAlike buckets counts client generation limiters s t) :
    OthersAlike buckets counts client generation limiters (effect counting now ctx s rule) t := by
  subst hip
  unfold effect
  split
  · cases haction : rule.action with
    | rateLimit l => exact h.check_of_client hbuckets hwired (hrule l haction) now.mono
    | incr counter amount windowSecs =>
        exact h.incr_of_client hcounts now.mono counter amount windowSecs
    | log =>
        cases counting with
        | true => exact { h with }
        | false => exact h
    | _ => exact h
  · exact h

include hlimiters

variable (now) in
/-- **A request of the client** changes nothing for the others. -/
theorem evaluateCounting_of_client {ctx : RequestCtx} (hip : ctx.client.ip = client)
    (h : OthersAlike buckets counts client generation limiters s t) :
    OthersAlike buckets counts client generation limiters
      (rs.evaluateCounting now ctx s).2 t := by
  have hscan : OthersAlike buckets counts client generation limiters
      (scan (ruleStep true now ctx) rs.rules (s, 0)).2.1 t := by
    refine scan_preserves (I := fun s : RuleState X × UInt32 =>
      OthersAlike buckets counts client generation limiters s.1 t) ?_ h
    rintro rule hrule ⟨s, total⟩ h
    rw [ruleStep_eq]
    exact effect_of_client hbuckets hcounts hwired hip true
      (fun l haction => hlimiters l (RuleSet.mem_limiters hrule haction)) h
  unfold RuleSet.evaluateCounting RuleSet.evaluateInner
  rcases hs : scan (ruleStep true now ctx) rs.rules (s, 0) with ⟨_ | outcome, s', total⟩
  · rw [hs] at hscan
    dsimp only
    split
    · exact hscan
    · exact hscan
  · rw [hs] at hscan
    exact hscan

end client

/-! ## Requests of the others -/

section others

variable (hbuckets : (X.moka IpAddr X.Bucket).ModelledBy buckets)
  (hcounts : (X.moka Str Counter).ModelledBy counts) (htext : Function.Injective X.ipText)
  (hfree : ∀ ip, Char.ofNat 1 ∉ X.ipText ip) (hwired : Wired generation limiters)
  {rs : RuleSet X} (hlimiters : ∀ l ∈ rs.limiters, l ∈ limiters) {now : Now} {s t : RuleState X}

include hcounts htext hfree

/-- One response rule decides alike on a response to another client, and keeps the states alike. -/
theorem responseStep_of_other {rctx : ResponseCtx} (hip : rctx.client.ip ≠ client)
    (rule : CompiledRule X) (h : OthersAlike buckets counts client generation limiters s t) :
    (responseStep now rctx rule s).1 = (responseStep now rctx rule t).1 ∧
      OthersAlike buckets counts client generation limiters (responseStep now rctx rule s).2
        (responseStep now rctx rule t).2 := by
  unfold responseStep
  rw [rule.matchesResponse_of_get (h.get_of_other hcounts htext hfree hip now.mono)]
  split
  · cases rule.action with
    | incr counter amount windowSecs =>
        exact ⟨rfl, h.incr_of_other hcounts htext hfree hip now.mono counter amount windowSecs⟩
    | log => exact ⟨rfl, { h with }⟩
    | _ => exact ⟨rfl, h⟩
  · exact ⟨rfl, h⟩

variable (rs now) in
/-- **A response to another client** is judged alike. -/
theorem evaluateResponse_of_other {rctx : ResponseCtx} (hip : rctx.client.ip ≠ client)
    (h : OthersAlike buckets counts client generation limiters s t) :
    (rs.evaluateResponse now rctx s).1 = (rs.evaluateResponse now rctx t).1 ∧
      OthersAlike buckets counts client generation limiters (rs.evaluateResponse now rctx s).2
        (rs.evaluateResponse now rctx t).2 :=
  scan_rel_self (fun rule _ _ _ h => responseStep_of_other hcounts htext hfree hip rule h) h

include hbuckets hwired

/-- One rule says and does the same on a request of another client, and keeps the states alike. -/
theorem effect_of_other {ctx : RequestCtx} (hip : ctx.client.ip ≠ client) (counting : Bool)
    {rule : CompiledRule X} (hrule : ∀ l, rule.action = .rateLimit l → l ∈ limiters)
    (h : OthersAlike buckets counts client generation limiters s t) :
    verdict now ctx s rule = verdict now ctx t rule ∧
      points now ctx s rule = points now ctx t rule ∧
        OthersAlike buckets counts client generation limiters (effect counting now ctx s rule)
          (effect counting now ctx t rule) := by
  have hmatches : rule.matchesRequest now ctx s.counters = rule.matchesRequest now ctx t.counters :=
    rule.matchesRequest_of_get (h.get_of_other hcounts htext hfree hip now.mono)
  unfold verdict points effect
  rw [hmatches]
  split
  · cases haction : rule.action with
    | rateLimit l =>
        obtain ⟨hanswer, hnext⟩ :=
          h.check_of_other hbuckets hwired (hrule l haction) now.mono hip
        dsimp only
        rw [hanswer]
        exact ⟨rfl, rfl, hnext⟩
    | incr counter amount windowSecs =>
        exact ⟨rfl, rfl,
          h.incr_of_other hcounts htext hfree hip now.mono counter amount windowSecs⟩
    | log =>
        cases counting with
        | true => exact ⟨rfl, rfl, { h with }⟩
        | false => exact ⟨rfl, rfl, h⟩
    | _ => exact ⟨rfl, rfl, h⟩
  · exact ⟨rfl, rfl, h⟩

include hlimiters

/-- One rule of the set is the same step on a request of another client, and keeps the states
alike. -/
theorem ruleStep_of_other {ctx : RequestCtx} (hip : ctx.client.ip ≠ client)
    {rule : CompiledRule X} (hrule : rule ∈ rs.rules) {s t : RuleState X × UInt32}
    (h : s.2 = t.2 ∧ OthersAlike buckets counts client generation limiters s.1 t.1) :
    (ruleStep true now ctx rule s).1 = (ruleStep true now ctx rule t).1 ∧
      (ruleStep true now ctx rule s).2.2 = (ruleStep true now ctx rule t).2.2 ∧
        OthersAlike buckets counts client generation limiters (ruleStep true now ctx rule s).2.1
          (ruleStep true now ctx rule t).2.1 := by
  obtain ⟨s, total⟩ := s
  obtain ⟨t, total'⟩ := t
  obtain ⟨rfl, h⟩ := h
  obtain ⟨hverdict, hpoints, hnext⟩ := effect_of_other hbuckets hcounts htext hfree hwired hip true
    (fun l haction => hlimiters l (RuleSet.mem_limiters hrule haction)) h
  rw [ruleStep_eq, ruleStep_eq, hpoints]
  exact ⟨hverdict, rfl, hnext⟩

variable (now) in
/-- **A request of another client** is answered alike. -/
theorem evaluateCounting_of_other {ctx : RequestCtx} (hip : ctx.client.ip ≠ client)
    (h : OthersAlike buckets counts client generation limiters s t) :
    (rs.evaluateCounting now ctx s).1 = (rs.evaluateCounting now ctx t).1 ∧
      OthersAlike buckets counts client generation limiters (rs.evaluateCounting now ctx s).2
        (rs.evaluateCounting now ctx t).2 := by
  obtain ⟨hanswer, htotal, hnext⟩ := scan_rel_self
    (R := fun s t : RuleState X × UInt32 =>
      s.2 = t.2 ∧ OthersAlike buckets counts client generation limiters s.1 t.1)
    (fun rule hrule s t h => ruleStep_of_other hbuckets hcounts htext hfree hwired hlimiters hip
      hrule h)
    (s := (s, 0)) (t := (t, 0)) ⟨rfl, h⟩
  exact rs.evaluateInner_rel rs rfl rfl hanswer htotal hnext

end others

end BuduWaf.Rules
