import BuduWaf.Supervisor.Process

/-!
# `budu`: runs of blocklist refreshes

The blocklist is rebuilt from inline networks, the list file and the remote feeds in every round;
a feed that fails contributes nothing to the new list.

* **`contains_refreshAll`**: the list in force after a run is the one the last round that read its
  file built (`inForce`).
* **`feeds_keep_blocking_iff`**: in every round of a run, whatever a failing feed had listed
  stays blocked, exactly if in every round either the file could not be read, so that the old
  list stays, or some other source of the round lists the address too.

The list after a run is that of the last round that could build one, so everything comes down to
one round: what its sources list is what is in force, and whatever a feed had contributed before is
gone unless it is among them. A round that cannot read its list file swaps nothing in and loses
nothing.
-/

namespace BuduWaf.Supervisor

open Reputation Pipeline

variable {X : Crates}

/-! ## Rounds -/

/-- What one refresh finds: the files, the feeds' answers, the clocks. -/
structure Round where
  /-- The files. -/
  fs : FileSystem
  /-- The feeds. -/
  feeds : Feeds
  /-- The clocks. -/
  now : Now

/-- The shared state after one refresh.
Source: `budu/src/main.rs` `supervise` (the refresh branch) -/
def refreshRound (cfg : Config) (s : Shared X) (r : Round) : Shared X :=
  (refreshBlocklist r.fs r.feeds cfg { s with now := r.now }).2

/-- The shared state after a run of refreshes. -/
def refreshAll (cfg : Config) (s : Shared X) (rounds : List Round) : Shared X :=
  rounds.foldl (refreshRound cfg) s

namespace Round

variable (X)

/-- The entries of the inline list and the list file. -/
def localEntries (r : Round) (cfg : Config) : Except Str (List BlockEntry) :=
  buildBlocks X r.fs r.now.wall cfg.reputation

/-- The refresh replaces the list: the list file, if there is one, could be read. -/
def replaces (r : Round) (cfg : Config) : Bool := (r.localEntries X cfg).isOk

/-- The entries a round has from one URL. -/
def fetched (r : Round) (cfg : Config) (url : Str) : List BlockEntry :=
  if X.features.remoteBlocklist ∧ r.feeds.clientBuilds ∧ url ∈ cfg.reputation.blocklistUrls then
    feedEntries X r.feeds r.now.wall url
  else []

/-- The fetch of a URL fails in a round: there is no HTTP client, or the feed does not answer. -/
def failsOn (r : Round) (url : Str) : Bool :=
  !r.feeds.clientBuilds || (r.feeds.fetch url).isNone

/-- Some source of the round lists the address at an instant. -/
def lists (r : Round) (cfg : Config) (ip : IpAddr) (t : Nat) : Prop :=
  (∃ set, r.localEntries X cfg = .ok set ∧ contains set ip t = true) ∨
    ∃ url, contains (r.fetched X cfg url) ip t = true

end Round

/-! ## The list in force -/

variable (X) in
/-- The round that built the list in force after a run. -/
def inForce (cfg : Config) (rounds : List Round) : Option Round :=
  rounds.reverse.find? fun r => r.replaces X cfg

/-- An entry is among the feeds' exactly if some URL gave it. -/
theorem mem_feeds_iff {r : Round} {cfg : Config} {e : BlockEntry} :
    (e ∈ if X.features.remoteBlocklist then
        fetchBlocklistUrls X r.feeds r.now.wall cfg.reputation.blocklistUrls else []) ↔
      ∃ url, e ∈ r.fetched X cfg url := by
  unfold Round.fetched fetchBlocklistUrls
  constructor
  · intro h
    split at h
    case isFalse => simp at h
    case isTrue hfeature =>
        split at h
        case isFalse => simp at h
        case isTrue hclient =>
            obtain ⟨url, hurl, he⟩ := List.mem_flatMap.mp h
            exact ⟨url, by rw [if_pos ⟨hfeature, hclient, hurl⟩]; exact he⟩
  · rintro ⟨url, h⟩
    split at h
    case isFalse => simp at h
    case isTrue hall =>
        obtain ⟨hfeature, hclient, hurl⟩ := hall
        rw [if_pos hfeature, if_pos hclient]
        exact List.mem_flatMap.mpr ⟨url, hurl, h⟩

/-- What one round makes of the blocklist: the local entries with those of the feeds that answered,
or the list as it was if a local file cannot be read. -/
theorem blocks_refreshRound (cfg : Config) (s : Shared X) (r : Round) :
    (refreshRound cfg s r).blocks =
      match r.localEntries X cfg with
      | .ok set => set ++ if X.features.remoteBlocklist then
          fetchBlocklistUrls X r.feeds r.now.wall cfg.reputation.blocklistUrls else []
      | .error _ => s.blocks := by
  unfold refreshRound refreshBlocklist rebuildBlocks Round.localEntries
  cases buildBlocks X r.fs r.now.wall cfg.reputation with
  | error e => rfl
  | ok set =>
      cases X.features.remoteBlocklist with
      | true => rfl
      | false => exact (List.append_nil set).symm

/-- A round that replaces the list blocks exactly what its sources list. -/
theorem contains_refreshRound {cfg : Config} {s : Shared X} {r : Round}
    (h : r.replaces X cfg = true) (ip : IpAddr) (t : Nat) :
    contains (refreshRound cfg s r).blocks ip t = true ↔ r.lists X cfg ip t := by
  rw [blocks_refreshRound]
  unfold Round.replaces at h
  unfold Round.lists
  cases hlocal : r.localEntries X cfg with
  | error e => rw [hlocal] at h; cases h
  | ok set =>
      simp only [contains_append, Bool.or_eq_true, Except.ok.injEq, exists_eq_left']
      refine or_congr Iff.rfl ?_
      simp only [contains_iff, mem_feeds_iff]
      constructor
      · rintro ⟨e, ⟨url, he⟩, hcov⟩
        exact ⟨url, e, he, hcov⟩
      · rintro ⟨url, e, he, hcov⟩
        exact ⟨e, ⟨url, he⟩, hcov⟩

/-- A round that does not replace the list leaves it as it was. -/
theorem blocks_of_not_replaces {cfg : Config} {s : Shared X} {r : Round}
    (h : r.replaces X cfg = false) : (refreshRound cfg s r).blocks = s.blocks := by
  rw [blocks_refreshRound]
  unfold Round.replaces at h
  cases hlocal : r.localEntries X cfg with
  | error e => rfl
  | ok set => rw [hlocal] at h; cases h

/-- Some rounds and one more are these rounds, and then the one. -/
theorem refreshAll_concat (cfg : Config) (s : Shared X) (rounds : List Round) (r : Round) :
    refreshAll cfg s (rounds ++ [r]) = refreshRound cfg (refreshAll cfg s rounds) r := by
  simp [refreshAll]

/-- **The list in force is that of the last round that replaced it.** -/
theorem contains_refreshAll {cfg : Config} {rounds : List Round} {r : Round}
    (h : inForce X cfg rounds = some r) (s : Shared X) (ip : IpAddr) (t : Nat) :
    contains (refreshAll cfg s rounds).blocks ip t = true ↔ r.lists X cfg ip t := by
  induction rounds using List.reverseRecOn with
  | nil => simp [inForce] at h
  | append_singleton rounds last ih =>
      rw [refreshAll_concat]
      unfold inForce at h ih
      rw [List.reverse_append, List.reverse_singleton, List.singleton_append,
        List.find?_cons] at h
      cases hlast : last.replaces X cfg with
      | true =>
          rw [hlast] at h
          obtain rfl := Option.some.inj h
          exact contains_refreshRound hlast ip t
      | false =>
          rw [hlast] at h
          rw [blocks_of_not_replaces hlast]
          exact ih h

/-! ## A failing feed -/

variable (X) in
/-- A round loses a feed's entry: it fails on the URL that gave the entry to the list in force
after the rounds before, and the entry covers the address at an instant after the round. -/
def LosesFeed (cfg : Config) (before : List Round) (r : Round) (ip : IpAddr) (t : Nat) : Prop :=
  r.now.wall ≤ t ∧ ∃ built url, inForce X cfg before = some built ∧ r.failsOn url = true ∧
    contains (built.fetched X cfg url) ip t = true

/-- In every round of a run, what a failing feed had listed stays blocked. -/
def FeedsKeepBlocking (cfg : Config) (s : Shared X) (rounds : List Round) : Prop :=
  ∀ before r after, rounds = before ++ r :: after → ∀ ip t, LosesFeed X cfg before r ip t →
    contains (refreshAll cfg s (before ++ [r])).blocks ip t = true

variable (X) in
/-- In every round of a run, what a failing feed had listed is listed by another source too, or
the round does not replace the list. -/
def ListedElsewhere (cfg : Config) (rounds : List Round) : Prop :=
  ∀ before r after, rounds = before ++ r :: after → ∀ ip t, LosesFeed X cfg before r ip t →
    r.replaces X cfg = false ∨ r.lists X cfg ip t

/-- **A failing feed weakens the blocklist** in no round of a run exactly if, in every round that
replaces the list, what the feed had listed is listed by another source. -/
theorem feeds_keep_blocking_iff (cfg : Config) (s : Shared X) (rounds : List Round) :
    FeedsKeepBlocking cfg s rounds ↔ ListedElsewhere X cfg rounds := by
  unfold FeedsKeepBlocking ListedElsewhere
  refine forall₃_congr fun before r after => imp_congr_right fun _ =>
    forall₂_congr fun ip t => imp_congr_right fun hloses => ?_
  rw [refreshAll_concat]
  cases hr : r.replaces X cfg with
  | true =>
      rw [contains_refreshRound hr]
      simp
  | false =>
      obtain ⟨-, built, url, hbuilt, -, hcov⟩ := hloses
      have hlisted : built.lists X cfg ip t := .inr ⟨url, hcov⟩
      rw [blocks_of_not_replaces hr, contains_refreshAll hbuilt]
      simp [hlisted]

/-! ## A feed that answers once -/

/-- The address 203.0.113.7, which the feed lists. -/
def feedAddress : IpAddr := .v4 0xCB007107#32

/-- The minimal configuration, with one feed. -/
def feedConfig : Config :=
  { Config.minimal with reputation :=
      { Config.minimal.reputation with blocklistUrls := ["https://example.com/threat-ips.txt"] } }

/-- A plain build with remote blocklists. -/
def feedBuild : Crates := .plain { Features.none with remoteBlocklist := true } .none

/-- A round in which the feed answers, or does not. -/
def feedRound (answers : Bool) (wall : Nat) : Round where
  fs := ⟨fun _ => .error "no such file"⟩
  feeds := ⟨true, fun _ => if answers then some (Str.utf8 (unlines ["203.0.113.7"])) else none⟩
  now := ⟨wall, wall * RateLimit.nanos⟩

/-- The shared state the process starts from, before its first round. -/
def feedShared : Shared feedBuild :=
  ((fromConfig feedBuild (feedRound false 0).fs ⟨0, 0⟩ feedConfig).toOption.get (by decide)).2

/-- The address the feed had listed passes once the feed fails. -/
theorem failing_feed_unblocks :
    ¬ FeedsKeepBlocking feedConfig feedShared [feedRound true 1, feedRound false 301] := by
  intro h
  have hloses : LosesFeed feedBuild feedConfig [feedRound true 1] (feedRound false 301)
      feedAddress 301 := by
    refine ⟨Nat.le_refl 301, feedRound true 1, "https://example.com/threat-ips.txt", ?_⟩
    exact ⟨rfl, by decide, by decide⟩
  have hblocked := h [feedRound true 1] (feedRound false 301) [] rfl feedAddress 301 hloses
  revert hblocked
  decide

end BuduWaf.Supervisor
