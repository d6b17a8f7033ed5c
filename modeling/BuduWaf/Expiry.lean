import BuduWaf.Lib.Runs
import BuduWaf.Plain
import BuduWaf.Reputation

/-!
# `budu-reputation`: expiring entries

A list text is read once, a line that expired is dropped then, and what expires later is pruned
now and again. Each of these reads the clock for itself, and so does each query.

* **`Listed`**: what the text says of an address at some time.
* **`parseBlocklistOver`**: the text as it is read, the clock read at each line.
* **`ListEvent`**: prunes and queries, in any order.
* **`maintained_list_exact`**: every query answers what the text says at its time.

The proof compares the list with its text at every moment. Reading line by line with any clock that
does not run backwards, pruning at any time, and asking at any time all preserve that the list and
the text list the same addresses from then on (`contains_parseBlocklistOver`, `listRun_answers`).
Nothing is said about the time before the list was read, and nothing is needed.

Scope: lines are well formed. What a malformed `until=` does to a line is the subject of the module
on the command line tools.
-/

namespace BuduWaf.Reputation

variable (X : Crates)

/-! ## What a text says -/

/-- The words of a line, without its comment. -/
def lineTokens (raw : Str) : List Str :=
  Str.splitWhitespace (Str.trim ((Str.splitOnce '#' raw).elim raw Prod.fst))

/-- The network a word names; an address names itself. -/
def netOf (word : Str) : Option IpNet :=
  (X.parseNet word).or ((X.parseIp word).map IpNet.ofAddr)

/-- The values of the words that start with `until=`, in their order. -/
def untilValues (words : List Str) : List Str :=
  words.filterMap (Str.stripPrefix ("until=" : Str))

/-- A line that is blank, a comment, or a network whose `until=` values are all numbers. -/
def WellFormedLine (raw : Str) : Prop :=
  ∀ first rest, lineTokens raw = first :: rest →
    (netOf X first).isSome = true ∧
      ∀ v ∈ untilValues rest, (Str.parseUInt 64 v).isSome = true

/-- A line lists an address at some time: its network contains the address, and there is no
`until=` or the last one is later. -/
def LineLists (raw : Str) (ip : IpAddr) (t : Nat) : Prop :=
  ∃ first rest net, lineTokens raw = first :: rest ∧ netOf X first = some net ∧
    net.contains ip = true ∧
      ∀ v, (untilValues rest).getLast? = some v → ∃ u, Str.parseUInt 64 v = some u ∧ t < u

/-- A text lists an address at some time. -/
def Listed (text : Str) (ip : IpAddr) (t : Nat) : Prop :=
  ∃ raw ∈ Str.lines text, LineLists X raw ip t

/-! ## Reading -/

/-- The entries of a list text, with what the clock says at each line.
Source: `budu-reputation/src/lib.rs` `parse_blocklist` -/
def parseBlocklistOver (clock : Nat → Nat) (text : Str) : List BlockEntry :=
  (Str.lines text).zipIdx.filterMap fun l => parseLine X (clock l.2) l.1

/-- With a clock that stands still, the list is the one of `parse_blocklist`. -/
theorem parseBlocklistOver_const (now : Nat) (text : Str) :
    parseBlocklistOver X (fun _ => now) text = parseBlocklist X now text := by
  unfold parseBlocklistOver parseBlocklist
  have hcomp : (fun l : Str × Nat => parseLine X now l.1) = parseLine X now ∘ Prod.fst := rfl
  rw [hcomp, ← List.filterMap_map, List.zipIdx_map_fst]

variable {X}

/-- Where all `until=` values are numbers, the last one is the expiry. -/
theorem foldl_until {words : List Str}
    (h : ∀ v ∈ untilValues words, (Str.parseUInt 64 v).isSome = true) (found : Option Nat) :
    words.foldl (fun acc tok => acc.bind fun untilSecs =>
        match Str.stripPrefix ("until=" : Str) tok with
        | some v => (Str.parseUInt 64 v).map some
        | none => some untilSecs) (some found) =
      some (((untilValues words).getLast?.bind (Str.parseUInt 64)).or found) := by
  induction words generalizing found with
  | nil => rfl
  | cons tok words ih =>
      rw [List.foldl_cons]
      cases hstrip : Str.stripPrefix ("until=" : Str) tok with
      | none =>
          have hvalues : untilValues (tok :: words) = untilValues words :=
            List.filterMap_cons_none hstrip
          rw [hvalues] at h ⊢
          exact ih h found
      | some v =>
          have hvalues : untilValues (tok :: words) = v :: untilValues words :=
            List.filterMap_cons_some hstrip
          rw [hvalues] at h ⊢
          obtain ⟨u, hu⟩ := Option.isSome_iff_exists.mp (h v List.mem_cons_self)
          have hrest : ∀ w ∈ untilValues words, (Str.parseUInt 64 w).isSome = true :=
            fun w hw => h w (List.mem_cons_of_mem v hw)
          rw [Option.bind_some]
          dsimp only
          rw [hu, Option.map_some, ih hrest, List.getLast?_cons]
          cases hlast : (untilValues words).getLast? with
          | none =>
              rw [Option.getD_none, Option.bind_none, Option.bind_some, hu]
              rfl
          | some w =>
              have hw := hrest w (List.mem_of_getLast? hlast)
              obtain ⟨u', hu'⟩ := Option.isSome_iff_exists.mp hw
              rw [Option.getD_some, Option.bind_some, hu']
              rfl

/-- The expiry of a line whose `until=` values are all numbers: the last one, if it is later. -/
theorem lineUntil_eq (hfail2ban : X.features.fail2ban = true) {words : List Str}
    (h : ∀ v ∈ untilValues words, (Str.parseUInt 64 v).isSome = true) (now : Nat) :
    lineUntil X now words =
      (some ((untilValues words).getLast?.bind (Str.parseUInt 64))).filter
        fun untilSecs => untilSecs.all (now < ·) := by
  unfold lineUntil
  rw [if_pos hfail2ban]
  have hfound := foldl_until h none
  rw [Option.or_none] at hfound
  exact congrArg (Option.filter _) hfound

/-- A line that is read at the time it is asked about covers what it lists. -/
theorem parseLine_lists_iff (hfail2ban : X.features.fail2ban = true) {raw : Str}
    (hwell : WellFormedLine X raw) (ip : IpAddr) (t : Nat) :
    (parseLine X t raw).any (·.covers ip t) = true ↔ LineLists X raw ip t := by
  unfold parseLine LineLists
  dsimp only
  cases htokens : lineTokens raw with
  | nil =>
      have hwords : Str.splitWhitespace (Str.trim ((Str.splitOnce '#' raw).elim raw Prod.fst)) =
          [] := htokens
      rw [hwords]
      exact iff_of_false (by rintro ⟨⟩) (by rintro ⟨_, _, _, ⟨⟩, -⟩)
  | cons first rest =>
      have hwords : Str.splitWhitespace (Str.trim ((Str.splitOnce '#' raw).elim raw Prod.fst)) =
          first :: rest := htokens
      obtain ⟨hnet, huntil⟩ := hwell first rest htokens
      obtain ⟨net, hnet⟩ := Option.isSome_iff_exists.mp hnet
      have hfound : (X.parseNet first).or ((X.parseIp first).map IpNet.ofAddr) = some net := hnet
      rw [hwords]
      dsimp only
      rw [hfound, Option.bind_some, lineUntil_eq hfail2ban huntil]
      have hcovers : (((some ((untilValues rest).getLast?.bind (Str.parseUInt 64))).filter
            fun untilSecs => untilSecs.all (t < ·)).map fun untilSecs =>
              BlockEntry.mk net untilSecs).any (·.covers ip t) = true ↔
          net.contains ip = true ∧
            ∀ v, (untilValues rest).getLast? = some v →
              ∃ u, Str.parseUInt 64 v = some u ∧ t < u := by
        cases hlast : (untilValues rest).getLast? with
        | none => simp [Option.filter, BlockEntry.covers, BlockEntry.active]
        | some v =>
            obtain ⟨u, hu⟩ :=
              Option.isSome_iff_exists.mp (huntil v (List.mem_of_getLast? hlast))
            by_cases hlater : t < u
            · simp [Option.filter, hu, hlater, BlockEntry.covers, BlockEntry.active]
            · simp [Option.filter, hu, hlater]
      rw [hcovers]
      constructor
      · rintro ⟨hcontains, hlast⟩
        exact ⟨first, rest, net, rfl, hnet, hcontains, hlast⟩
      · rintro ⟨_, _, net', heq, hnet', hcontains, hlast⟩
        obtain ⟨rfl, rfl⟩ := List.cons.inj heq
        obtain rfl := Option.some.inj (hnet.symm.trans hnet')
        exact ⟨hcontains, hlast⟩

/-- A list that was read by some time contains from then on what its text lists. -/
theorem contains_parseBlocklistOver (hfail2ban : X.features.fail2ban = true) {text : Str}
    (hwell : ∀ raw ∈ Str.lines text, WellFormedLine X raw) {clock : Nat → Nat} {t : Nat}
    (hclock : ∀ n, clock n ≤ t) (ip : IpAddr) :
    contains (parseBlocklistOver X clock text) ip t = true ↔ Listed X text ip t := by
  unfold contains parseBlocklistOver Listed
  rw [List.any_filterMap, List.any_eq_true]
  constructor
  · rintro ⟨⟨raw, n⟩, hmem, hcovers⟩
    have hraw : raw ∈ Str.lines text := List.fst_mem_of_mem_zipIdx hmem
    have hnow : (parseLine X t raw).any (·.covers ip t) = true :=
      (parseLine_covers X (hclock n) (Nat.le_refl t) raw ip).symm.trans hcovers
    exact ⟨raw, hraw, (parseLine_lists_iff hfail2ban (hwell raw hraw) ip t).mp hnow⟩
  · rintro ⟨raw, hraw, hlists⟩
    have hnow := (parseLine_lists_iff hfail2ban (hwell raw hraw) ip t).mpr hlists
    obtain ⟨n, hn⟩ := List.mem_iff_getElem?.mp hraw
    exact ⟨(raw, n), List.mk_mem_zipIdx_iff_getElem?.mpr hn,
      (parseLine_covers X (hclock n) (Nat.le_refl t) raw ip).trans hnow⟩

/-! ## Prunes and queries -/

/-- What happens to a list that is in use. -/
inductive ListEvent where
  /-- The maintenance tick. -/
  | prune
  /-- A question about an address. -/
  | query (ip : IpAddr)
  /-- A request, met by the stage. -/
  | inspect (mono : Nat) (ctx : RequestCtx)

/-- What was answered about an address at some time. -/
structure ListAnswer where
  /-- The time. -/
  time : Nat
  /-- The address. -/
  ip : IpAddr
  /-- Whether it matched. -/
  matched : Bool
deriving DecidableEq

/-- One event on a list, at the time its clock reads.
Source: `budu-reputation/src/lib.rs` `prune_expired`, `contains`, `ReputationStage::inspect` -/
def listStep (set : List BlockEntry) (e : Nat × ListEvent) : List BlockEntry × List ListAnswer :=
  match e.2 with
  | .prune => (pruneExpired set e.1, [])
  | .query ip => (set, [⟨e.1, ip, contains set ip e.1⟩])
  | .inspect mono ctx => (set, [⟨e.1, ctx.client.ip, inspect set ⟨e.1, mono⟩ ctx != .cont⟩])

/-- The stage blocks what the list contains. -/
theorem inspect_ne_cont (set : List BlockEntry) (now : Now) (ctx : RequestCtx) :
    (inspect set now ctx != .cont) = contains set ctx.client.ip now.wall := by
  unfold inspect
  cases contains set ctx.client.ip now.wall <;> rfl

/-- What the list contains from some time on decides what is answered from then on. -/
theorem listRun_answers {listed : IpAddr → Nat → Prop} (events : List (Nat × ListEvent)) :
    ∀ (set : List BlockEntry) (start : Nat), (∀ e ∈ events, start ≤ e.1) →
      events.Pairwise (fun a b => a.1 ≤ b.1) →
      (∀ ip t, start ≤ t → (contains set ip t = true ↔ listed ip t)) →
        ∀ a ∈ (run listStep set events).2, a.matched = true ↔ listed a.ip a.time := by
  induction events with
  | nil =>
      intro set start _ _ _ a ha
      cases ha
  | cons e events ih =>
      intro set start hstart hclock hset a ha
      obtain ⟨hlater, hrest⟩ := List.pairwise_cons.mp hclock
      have hnow : start ≤ e.1 := hstart e List.mem_cons_self
      have hset' : ∀ ip t, e.1 ≤ t → (contains (listStep set e).1 ip t = true ↔ listed ip t) := by
        intro ip t ht
        rw [← hset ip t (hnow.trans ht)]
        obtain ⟨time, event⟩ := e
        cases event with
        | prune =>
            show contains (pruneExpired set time) ip t = true ↔ _
            rw [contains_pruneExpired set ip ht]
        | query _ => exact Iff.rfl
        | inspect _ _ => exact Iff.rfl
      rw [run_cons] at ha
      rcases List.mem_append.mp ha with hfirst | hmore
      · obtain ⟨time, event⟩ := e
        cases event with
        | prune => cases hfirst
        | query ip =>
            obtain rfl := List.mem_singleton.mp hfirst
            exact hset ip time hnow
        | inspect mono ctx =>
            obtain rfl := List.mem_singleton.mp hfirst
            show (inspect set ⟨time, mono⟩ ctx != .cont) = true ↔ _
            rw [inspect_ne_cont]
            exact hset _ time hnow
      · exact ih _ e.1 hlater hrest hset' a hmore

/-- **However a list is maintained, it answers the same.** For a text without malformed lines, read
with any readings of the clock, and any prunes and queries after that, a query at some time matches
exactly if the text lists the address at that time. -/
theorem maintained_list_exact (hfail2ban : X.features.fail2ban = true) {text : Str}
    (hwell : ∀ raw ∈ Str.lines text, WellFormedLine X raw) (clock : Nat → Nat)
    (events : List (Nat × ListEvent)) (hread : ∀ n, ∀ e ∈ events, clock n ≤ e.1)
    (hclock : events.Pairwise fun a b => a.1 ≤ b.1) :
    ∀ a ∈ (run listStep (parseBlocklistOver X clock text) events).2,
      a.matched = true ↔ Listed X text a.ip a.time := by
  cases events with
  | nil =>
      intro a ha
      cases ha
  | cons e events =>
      refine listRun_answers (e :: events) _ e.1 ?_ hclock ?_
      · intro e' he'
        rcases List.mem_cons.mp he' with rfl | he'
        · exact Nat.le_refl _
        · exact (List.pairwise_cons.mp hclock).1 e' he'
      · intro ip t ht
        exact contains_parseBlocklistOver hfail2ban hwell
          (fun n => (hread n e List.mem_cons_self).trans ht) ip

section runs

/-- A plain build with the feature `fail2ban`, in which entries have an end. -/
abbrev timedBuild : Crates := .plain ⟨false, false, true, false⟩ .none

/-- The address 203.0.113.9, which the timed entry is about. -/
def timedClient : IpAddr := .v4 0xCB007109

/-- The client is listed until it is pruned, at the very second its entry ends. -/
theorem timed_entry_pruned :
    (run listStep (parseBlocklist timedBuild 10 "203.0.113.9 until=100 # a scanner")
        [(99, .query timedClient), (100, .prune), (100, .query timedClient)]).2 =
        [⟨99, timedClient, true⟩, ⟨100, timedClient, false⟩] ∧
      Listed timedBuild "203.0.113.9 until=100 # a scanner" timedClient 99 ∧
      ¬ Listed timedBuild "203.0.113.9 until=100 # a scanner" timedClient 100 := by
  -- The clock stands still while the list is read.
  rw [← parseBlocklistOver_const]
  have hanswers : (run listStep
      (parseBlocklistOver timedBuild (fun _ => 10) "203.0.113.9 until=100 # a scanner")
      [(99, .query timedClient), (100, .prune), (100, .query timedClient)]).2 =
        [⟨99, timedClient, true⟩, ⟨100, timedClient, false⟩] := by
    decide +kernel
  have hexact : ∀ a ∈ [(⟨99, timedClient, true⟩ : ListAnswer), ⟨100, timedClient, false⟩],
      a.matched = true ↔ Listed timedBuild "203.0.113.9 until=100 # a scanner" a.ip a.time := by
    rw [← hanswers]
    refine maintained_list_exact rfl ?_ (fun _ => 10) _ ?_ ?_
    · have hlines : Str.lines ("203.0.113.9 until=100 # a scanner" : Str) =
          [("203.0.113.9 until=100 # a scanner" : Str)] := by decide +kernel
      have htokens : lineTokens ("203.0.113.9 until=100 # a scanner" : Str) =
          [("203.0.113.9" : Str), ("until=100" : Str)] := by decide +kernel
      intro raw hraw first rest hwords
      rw [hlines] at hraw
      obtain rfl := List.mem_singleton.mp hraw
      obtain ⟨rfl, rfl⟩ := List.cons.inj (htokens.symm.trans hwords)
      have hvalues : untilValues [("until=100" : Str)] = [("100" : Str)] := by decide +kernel
      refine ⟨by decide +kernel, ?_⟩
      intro v hv
      rw [hvalues] at hv
      obtain rfl := List.mem_singleton.mp hv
      decide +kernel
    · intro n e he
      simp only [List.mem_cons, List.not_mem_nil, or_false] at he
      rcases he with rfl | rfl | rfl <;> decide
    · simp
  refine ⟨hanswers, ?_, fun hlisted => ?_⟩
  · exact (hexact _ List.mem_cons_self).mp rfl
  · have hmatched := (hexact _ (List.mem_cons_of_mem _ List.mem_cons_self)).mpr hlisted
    cases hmatched

end runs

end BuduWaf.Reputation
