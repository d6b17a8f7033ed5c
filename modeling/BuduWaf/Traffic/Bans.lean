import BuduWaf.Cli.Edits
import BuduWaf.Traffic.Controls
import BuduWaf.Traffic.Handles

/-!
# `budu`: a ban, from the command to the requests

`budu ban` edits a file; the process reads it again when it is told to, or when its timer says so,
and swaps the list in chore by chore, while requests are under way.

* **`Bans`**: a list that bans an address until some instant. What is swapped in next to it, and
  what is pruned before that instant, leaves the ban.
* **`bans_written`**: the list `budu ban` writes is one.
* **`Coming`**: the ban is in force, or the supervisor is about to swap it in; a step keeps this,
  and once the supervisor is done the ban is in force (`Banned`).
* **`banned_not_sent`**: from then on no request of the address is sent on, unless its client is on
  the allowlist or blocks are not enforced.

The argument follows the ban from the file to the list in force. The file bans the address
(`FileBans`), and goes on doing so under other edits of it; a refresh or a reload has chores under
way that will swap in what the file says (`Coming`), and the last of them does. From then on every
step keeps the ban in force: requests do not touch the list, pruning keeps what has not expired, and
whatever is swapped in later was read from the file again.

What this rests on is in the hypotheses: the clock stays before the ban's end, every configuration
that is loaded names the file, and the file still bans whenever it is read.
-/

namespace BuduWaf.Traffic

open Rules RateLimit Signatures Reputation Pipeline Proxy Supervisor Cli

variable {X : Crates}

/-! ## Lists with a ban -/

/-- The list bans the address until an instant. -/
def Bans (ip : IpAddr) (until_ : Nat) (set : List BlockEntry) : Prop :=
  ∃ e ∈ set, e.net.contains ip = true ∧ ∀ u ∈ e.untilSecs, until_ ≤ u

namespace Bans

variable {ip : IpAddr} {until_ now : Nat} {set : List BlockEntry}

/-- An address that a list bans up to some time is on it at all times before. -/
theorem contains (h : Bans ip until_ set) (hnow : now < until_) :
    Reputation.contains set ip now = true := by
  obtain ⟨e, he, hnet, huntil⟩ := h
  apply contains_iff.2
  refine ⟨e, he, ?_⟩
  rw [BlockEntry.covers, hnet, Bool.and_true, BlockEntry.active, Option.all_eq_true]
  intro u hu
  exact decide_eq_true (hnow.trans_le (huntil u hu))

/-- A list that bans an address bans it with more entries behind. -/
theorem append (h : Bans ip until_ set) (more : List BlockEntry) :
    Bans ip until_ (set ++ more) := by
  obtain ⟨e, he, hban⟩ := h
  exact ⟨e, List.mem_append_left _ he, hban⟩

/-- A list that bans an address bans it with more entries in front. -/
theorem append_right (h : Bans ip until_ set) (less : List BlockEntry) :
    Bans ip until_ (less ++ set) := by
  obtain ⟨e, he, hban⟩ := h
  exact ⟨e, List.mem_append_right _ he, hban⟩

/-- Nothing that is still in force is pruned. -/
theorem pruned (h : Bans ip until_ set) (hnow : now < until_) :
    Bans ip until_ (pruneExpired set now) := by
  obtain ⟨e, he, hnet, huntil⟩ := h
  unfold pruneExpired
  split
  · refine ⟨e, List.mem_filter.2 ⟨he, ?_⟩, hnet, huntil⟩
    rw [BlockEntry.active, Option.all_eq_true]
    intro u hu
    exact decide_eq_true (hnow.trans_le (huntil u hu))
  · exact ⟨e, he, hnet, huntil⟩

end Bans

/-! ## The list the command writes -/

/-- The list `budu ban` writes bans the target until the ban ends. -/
theorem bans_written (hfail2ban : X.features.fail2ban = true) {cfg : Config}
    {target path text : Str} {net : IpNet} (htarget : parseTarget X target = .ok net)
    (hpath : blocklistPath cfg = .ok path) (hprints : PrintsBack X net) {duration : Option Str}
    {secs : Option Nat} (hfor : duration.mapM (parseDuration X) = .ok secs) {now : Nat}
    {d d' : Disk}
    (hd : Holds d path text) (hban : Cli.ban X cfg target duration now .none d = (.ok (), d'))
    {ip : IpAddr} (hip : net.contains ip = true) {until_ : Nat}
    (hlasts : ∀ u ∈ expiry now secs, until_ ≤ u) :
    ∃ text', d'.bytesAt path = Str.utf8 text' ∧
      ∀ wall < until_, Bans ip until_ (parseBlocklist X wall text') := by
  have hentry := banEntry_eq hfor net now
  have hlf := lf_notMem_entry hprints (expiry now secs)
  obtain ⟨d₁, hwritten, hbytes⟩ := writeLines_none d path
    (without X (Str.lines text) net ++ [entryText X net (expiry now secs)])
  have hedited := ban_of_valid htarget hpath hentry .none d
  rw [editedList, readLines_of_holds hd, hwritten, hban] at hedited
  obtain ⟨-, rfl⟩ := Prod.mk.inj hedited
  refine ⟨_, hbytes, ?_⟩
  intro wall hwall
  have hparse : parseLine X wall (entryText X net (expiry now secs)) =
      some ⟨net, expiry now secs⟩ :=
    parseLine_entry hfail2ban hprints fun u hu => hwall.trans_le (hlasts u hu)
  rw [parseBlocklist_eq_of_chomp (map_chomp_lines_edited (X := X) hlf net text),
    List.filterMap_append, List.filterMap_cons_some hparse]
  apply Bans.append_right
  exact ⟨_, List.mem_cons_self, hip, hlasts⟩

/-! ## The supervisor swaps it in -/

section swap

variable (path : Str) (ip : IpAddr) (until_ : Nat)

/-- The configuration names the list file. -/
def Names (cfg : Config) : Prop := cfg.reputation.blocklistFile = path

/-- The list file can be read, and what is read of it bans the address at all times before the end
of the ban. -/
def FileBans (X : Crates) (fs : FileSystem) : Prop :=
  ∃ text, fs.readToString path = .ok text ∧
    ∀ wall < until_, Bans ip until_ (parseBlocklist X wall text)

/-- What happens leaves the ban in the files and in force: the clock stays before its end, a
configuration that is read names the list file, and the file holds it. -/
def Respects (X : Crates) : Happening → Prop
  | .clock now => now.wall < until_
  | .hangup fs file => ∀ cfg, Config.load X fs file = .ok cfg → Names path cfg
  | .supervise fs _ => FileBans path ip until_ X fs
  | _ => True

/-- The list a chore carries holds the ban. -/
def Chore.Upholds : Chore X → Prop
  | .client _ set | .fetch _ set | .blocks set => Bans ip until_ set
  | _ => True

/-- A chore that leads to a new blocklist, as it is under way to one. -/
def Chore.relists : Chore X → Bool
  | .lists _ | .client _ _ | .fetch _ _ | .blocks _ => true
  | _ => false

/-- Nothing is about to lift the ban: it has not ended, the configurations name its file, and the
lists under way hold it. -/
structure Upheld (t : Service X) : Prop where
  /-- It has not ended. -/
  clock : t.process.shared.now.wall < until_
  /-- The configurations name the list file. -/
  configured : t.Configured (Names path)
  /-- The lists to come hold the ban. -/
  chores : ∀ chore ∈ t.chores, chore.Upholds ip until_
  /-- The flights leave the lists alone. -/
  flights : t.Underway
  /-- They run the standard stacks. -/
  pipeline : ∃ geo cfg, t.process.pipeline = standard geo cfg

/-- The ban is in force: nothing is about to lift it, and the blocklist in force holds it. -/
def Banned (t : Service X) : Prop :=
  Upheld path ip until_ t ∧ Bans ip until_ t.process.shared.blocks

/-- The ban is in force, or about to be. -/
def Coming (t : Service X) : Prop :=
  Upheld path ip until_ t ∧ (Bans ip until_ t.process.shared.blocks ∨
    ∃ chore ∈ t.chores, chore.relists = true)

variable {path ip until_}

/-- A list built from the files bans the address. -/
theorem bans_built {fs : FileSystem} (hfs : FileBans path ip until_ X fs)
    (hpath : (Str.trim path).isEmpty = false) {cfg : Config} (hcfg : Names path cfg) {wall : Nat}
    (hwall : wall < until_) :
    ∃ set, buildBlocks X fs wall cfg.reputation = .ok set ∧ Bans ip until_ set := by
  obtain ⟨text, hread, hbans⟩ := hfs
  have hfile : cfg.reputation.blocklistFile = path := hcfg
  refine ⟨cfg.reputation.blocklist.map BlockEntry.perm ++ parseBlocklist X wall text, ?_,
    (hbans wall hwall).append_right _⟩
  unfold buildBlocks buildList loadFile
  rw [hfile, hpath, if_neg Bool.false_ne_true, hread]
  rfl

/-- **A chore keeps a ban in force**, the lists it leads to hold it, and where it goes about the
list, the new list is swapped in or is still to come. -/
theorem upholds_act {fs : FileSystem} (feeds : Feeds) (hfs : FileBans path ip until_ X fs)
    (hpath : (Str.trim path).isEmpty = false) {p : Process X}
    (hclock : p.shared.now.wall < until_) {chore : Chore X}
    (hconfig : ∀ cfg ∈ chore.config?, Names path cfg) (hchore : chore.Upholds ip until_) :
    let r := chore.act fs feeds p
    r.1.shared.now = p.shared.now ∧ (∀ next ∈ r.2, next.Upholds ip until_) ∧
      (Bans ip until_ p.shared.blocks → Bans ip until_ r.1.shared.blocks) ∧
      (chore.relists = true → Bans ip until_ r.1.shared.blocks ∨
        ∃ next ∈ r.2, next.relists = true) := by
  intro r
  have hstill : r.2 = [] → ∀ next ∈ r.2, next.Upholds ip until_ := by
    intro hnone next hnext
    rw [hnone] at hnext
    cases hnext
  cases chore with
  | rebuild cfg =>
      refine ⟨rfl, ?_, id, fun h => (Bool.false_ne_true h).elim⟩
      intro next hnext
      simp only [r, Chore.act] at hnext
      cases hnew : Pipeline.rebuild X fs p.shared.now (p.generation + 1) cfg with
      | error e =>
          rw [hnew] at hnext
          cases hnext
      | ok new =>
          rw [hnew] at hnext
          obtain ⟨swap, -, rfl⟩ := List.mem_map.1 hnext
          trivial
  | store swap =>
      refine ⟨?_, hstill rfl, ?_, fun h => (Bool.false_ne_true h).elim⟩
      · cases swap <;> rfl
      · cases swap <;> exact id
  | lists cfg =>
      obtain ⟨set, hset, hbans⟩ := bans_built hfs hpath (hconfig cfg rfl) hclock
      have hnext : r.2 =
          if X.features.remoteBlocklist then [.client cfg.reputation.blocklistUrls set]
          else [.blocks set] := by
        simp only [r, Chore.act, hset]
      refine ⟨rfl, ?_, id, fun _ => .inr ?_⟩
      · intro next hmem
        rw [hnext] at hmem
        split at hmem <;> obtain rfl := List.mem_singleton.1 hmem <;> exact hbans
      · rw [hnext]
        split
        · exact ⟨_, List.mem_singleton.2 rfl, rfl⟩
        · exact ⟨_, List.mem_singleton.2 rfl, rfl⟩
  | client urls set =>
      have hnext : r.2 = if feeds.clientBuilds then [.fetch urls set] else [.blocks set] := rfl
      refine ⟨rfl, ?_, id, fun _ => .inr ?_⟩
      · intro next hmem
        rw [hnext] at hmem
        split at hmem <;> obtain rfl := List.mem_singleton.1 hmem <;> exact hchore
      · rw [hnext]
        split
        · exact ⟨_, List.mem_singleton.2 rfl, rfl⟩
        · exact ⟨_, List.mem_singleton.2 rfl, rfl⟩
  | fetch urls set =>
      cases urls with
      | nil =>
          refine ⟨rfl, ?_, id, fun _ => .inr ⟨_, List.mem_singleton.2 rfl, rfl⟩⟩
          intro next hmem
          obtain rfl := List.mem_singleton.1 hmem
          exact hchore
      | cons url urls =>
          refine ⟨rfl, ?_, id, fun _ => .inr ⟨_, List.mem_singleton.2 rfl, rfl⟩⟩
          intro next hmem
          obtain rfl := List.mem_singleton.1 hmem
          exact Bans.append hchore _
  | blocks set => exact ⟨rfl, hstill rfl, fun _ => hchore, fun _ => .inl hchore⟩
  | pruneBlocks =>
      exact ⟨rfl, hstill rfl, fun h => h.pruned hclock, fun h => (Bool.false_ne_true h).elim⟩
  | _ => exact ⟨rfl, hstill rfl, id, fun h => (Bool.false_ne_true h).elim⟩

/-- The events the supervisor takes carry no list. -/
theorem upholds_event {t : Service X} {h : Happening} {chores : List (Chore X)}
    (hevent : t.Event h chores) : ∀ chore ∈ chores, chore.Upholds ip until_ := by
  obtain ⟨_, _, cfg, -, -, rfl⟩ | ⟨-, rfl⟩ | ⟨-, rfl⟩ := hevent
  · simp [reloadChores, Chore.Upholds]
  · simp [Chore.Upholds]
  · simp [maintenanceChores, Chore.Upholds]

/-- **A step upholds the ban**: what it rests on stays, a ban in force stays in force, and one that
is about to be gets there. -/
theorem upheld_step (hpath : (Str.trim path).isEmpty = false) {t : Service X} {h : Happening}
    (hh : Respects path ip until_ X h) (hup : Upheld path ip until_ t) :
    let u := (t.step h).1
    Upheld path ip until_ u ∧
      (Bans ip until_ t.process.shared.blocks → Bans ip until_ u.process.shared.blocks) ∧
      ((∃ chore ∈ t.chores, chore.relists = true) → Bans ip until_ u.process.shared.blocks ∨
        ∃ chore ∈ u.chores, chore.relists = true) := by
  have hflights := Service.underway_step hup.flights h
  have hpipeline : ∃ geo cfg, (t.step h).1.process.pipeline = standard geo cfg := by
    obtain ⟨geo, cfg, hstandard⟩ := hup.pipeline
    exact ⟨geo, cfg, (t.step_pipeline h).1.trans hstandard⟩
  have hconfigured : (t.step h).1.Configured (Names path) := by
    refine Service.configured_step ?_ hup.configured
    rintro fs file cfg rfl hload
    exact hh cfg hload
  have hstep := t.stepped h
  generalize t.step h = r at hstep hflights hpipeline hconfigured ⊢
  obtain ⟨u, notes⟩ := r
  cases hstep with
  | arrived => exact ⟨⟨hup.clock, hconfigured, hup.chores, hflights, hpipeline⟩, id, .inr⟩
  | moved n upstream f there =>
      have hhandles : SameHandles t.process.shared
          (f.move t.process.pipeline upstream t.process.shared t.metrics).shared := by
        obtain ⟨geo, cfg, hstandard⟩ := hup.pipeline
        have habout := hup.flights f (List.mem_of_getElem? there)
        rw [hstandard] at habout ⊢
        exact f.move_handles upstream _ _ habout
      refine ⟨⟨?_, hconfigured, hup.chores, hflights, hpipeline⟩, ?_, .inr⟩
      · exact hhandles.now ▸ hup.clock
      · exact fun hbans => hhandles.blocks ▸ hbans
  | clock now => exact ⟨⟨hh, hconfigured, hup.chores, hflights, hpipeline⟩, id, .inr⟩
  | took _ chores idle event =>
      refine ⟨⟨hup.clock, hconfigured, upholds_event event, hflights, hpipeline⟩, id, ?_⟩
      rintro ⟨chore, hchore, -⟩
      rw [idle] at hchore
      cases hchore
  | did fs feeds chore rest next =>
      have hall := hup.chores
      rw [next] at hall
      obtain ⟨hchore, hrest⟩ := List.forall_mem_cons.1 hall
      have hnames : ∀ cfg ∈ chore.config?, Names path cfg :=
        hup.configured.chores chore (next ▸ List.mem_cons_self)
      obtain ⟨hnow, hnext, hbans, hrelists⟩ :=
        upholds_act feeds hh hpath hup.clock hnames hchore
      refine ⟨⟨hnow ▸ hup.clock, hconfigured, ?_, hflights, hpipeline⟩, hbans, ?_⟩
      · intro c hc
        rcases List.mem_append.1 hc with hc | hc
        · exact hnext c hc
        · exact hrest c hc
      · rintro ⟨c, hc, hlists⟩
        rw [next] at hc
        rcases List.mem_cons.1 hc with rfl | hc
        · obtain hblocks | ⟨d, hd, hlists⟩ := hrelists hlists
          · exact .inl hblocks
          · exact .inr ⟨d, List.mem_append_left _ hd, hlists⟩
        · exact .inr ⟨c, List.mem_append_right _ hc, hlists⟩
  | stayed => exact ⟨hup, id, .inr⟩

/-- A ban that is coming is swapped in and kept. -/
theorem run_coming (hpath : (Str.trim path).isEmpty = false) {t : Service X}
    {hs : List Happening} (hhs : ∀ h ∈ hs, Respects path ip until_ X h)
    (h : Coming path ip until_ t) : Coming path ip until_ (run Service.step t hs).1 := by
  refine run_keeps (P := Coming path ip until_) ?_ h
  intro u happening hmem hu
  obtain ⟨hup, hforce, hcoming⟩ := upheld_step hpath (hhs happening hmem) hu.1
  obtain hbans | hchores := hu.2
  · exact ⟨hup, .inl (hforce hbans)⟩
  · exact ⟨hup, hcoming hchores⟩

/-- A ban that is in force stays in force, in every run that respects it. -/
theorem run_banned (hpath : (Str.trim path).isEmpty = false) {t : Service X}
    {hs : List Happening} (hhs : ∀ h ∈ hs, Respects path ip until_ X h)
    (h : Banned path ip until_ t) : Banned path ip until_ (run Service.step t hs).1 := by
  refine run_keeps (P := Banned path ip until_) ?_ h
  intro u happening hmem hu
  obtain ⟨hup, hforce, -⟩ := upheld_step hpath (hhs happening hmem) hu.1
  exact ⟨hup, hforce hu.2⟩

/-- Once the supervisor is done, what was coming is in force. -/
theorem banned_of_done {t : Service X} (h : Coming path ip until_ t) (hdone : t.chores = []) :
    Banned path ip until_ t := by
  obtain ⟨hup, hbans | ⟨chore, hchore, -⟩⟩ := h
  · exact ⟨hup, hbans⟩
  · rw [hdone] at hchore
    cases hchore

/-- An idle supervisor that takes an event which rebuilds the list. -/
theorem coming_of_event (hpath : (Str.trim path).isEmpty = false) {t : Service X}
    {h : Happening} (hh : Respects path ip until_ X h) (hup : Upheld path ip until_ t)
    (hidle : t.chores = [])
    (hevent : h = .refresh ∨ ∃ fs file cfg, h = .hangup fs file ∧ Config.load X fs file = .ok cfg) :
    Coming path ip until_ (t.step h).1 := by
  refine ⟨(upheld_step hpath hh hup).1, .inr ?_⟩
  obtain rfl | ⟨fs, file, cfg, rfl, hload⟩ := hevent
  · refine ⟨.lists t.process.config, ?_, rfl⟩
    simp [Service.step, Service.takes, hidle]
  · refine ⟨.lists cfg, ?_, rfl⟩
    simp [Service.step, Service.takes, hidle, hload, reloadChores]

end swap

/-! ## No request of the address -/

/-- A list that is configured is one for the proxy too. -/
theorem trim_of_blocklistPath {cfg : Config} {path : Str} (h : blocklistPath cfg = .ok path) :
    (Str.trim path).isEmpty = false := by
  unfold blocklistPath at h
  dsimp only at h
  split at h
  · cases h
  · rename_i hne
    obtain rfl := Except.ok.inj h
    obtain ⟨c, hc⟩ : ∃ c, c ∈ Str.trim cfg.reputation.blocklistFile ∧
        Str.isWhitespace c = false := by
      by_contra hall
      push Not at hall
      apply hne
      have hspace : ∀ c ∈ cfg.reputation.blocklistFile, Str.isWhitespace c = true := by
        intro c hc
        by_contra hvisible
        have hfalse := eq_false_of_ne_true hvisible
        exact hall c (Str.mem_trim_of_mem hc hfalse) hfalse
      unfold Str.trim
      rw [List.dropWhile_eq_nil_iff.2 hspace]
      rfl
    exact List.isEmpty_eq_false_iff.2 (List.ne_nil_of_mem (Str.mem_trim_of_mem hc.1 hc.2))

/-- The file the command wrote, as the proxy reads it. -/
theorem fileBans_of_read {path text : Str} {ip : IpAddr} {until_ : Nat}
    (hbans : ∀ wall < until_, Bans ip until_ (parseBlocklist X wall text)) {fs : FileSystem}
    (hread : fs.read path = .ok (Str.utf8 text)) : FileBans path ip until_ X fs := by
  refine ⟨text, ?_, hbans⟩
  unfold FileSystem.readToString
  rw [hread]
  dsimp only
  rw [Str.fromUtf8Lossy_utf8, if_pos rfl]

/-- The states of a request that arrives once the ban is in force. -/
theorem banned_of_stateOf {path : Str} {ip : IpAddr} {until_ : Nat} {t : Service X}
    (hpath : (Str.trim path).isEmpty = false) {before after : List Happening}
    (hafter : ∀ h ∈ after, Respects path ip until_ X h)
    (hbanned : Banned path ip until_ (run Service.step t before).1) {n : Nat}
    (hn : (run Service.step t before).1.flights.length ≤ n) {s : Shared X}
    (hs : t.StateOf (before ++ after) n s) :
    Reputation.contains s.blocks ip s.now.wall = true := by
  obtain ⟨first, rest, hsplit, hlen, rfl⟩ := hs
  obtain ⟨more, rfl, rfl⟩ | ⟨more, rfl, hrest⟩ := List.append_eq_append_iff.1 hsplit
  · rw [run_append] at hlen ⊢
    obtain ⟨hup, hbans⟩ :=
      run_banned hpath (fun h hh => hafter h (List.mem_append_left _ hh)) hbanned
    exact hbans.contains hup.clock
  · -- it would have arrived before
    exfalso
    rw [run_append] at hn
    have hmore : Along Service.step (fun (u : Service X) h =>
        u.flights.length ≤ (u.step h).1.flights.length) (run Service.step t first).1 more :=
      along_of_forall fun u h _ => u.step_length h
    have hgrows := le_run_of_along (f := fun u : Service X => u.flights.length) hmore
    exact absurd hlen (Nat.not_lt.2 (hgrows.trans hn))

/-- **A ban holds.** `budu ban` has written the list file, and an idle supervisor has taken a
refresh or a reload and is done with it. From then on no request of the address that arrives is
sent on, unless its client is on the allowlist at some state since its arrival, or its
configuration does not enforce.

What this rests on (`hkept`): the clock stays before the end of the ban, the configurations that are
loaded name the list file, and the file the supervisor finds is the one the command wrote or,
edited since by other commands, still bans the address up to then (`FileBans`). -/
theorem banned_not_sent {fs : FileSystem} {file : Str} {now : Now} {metrics : Metrics}
    {t : Service X} (hboot : Service.boot X fs file now metrics = .ok t)
    (hfail2ban : X.features.fail2ban = true) {cfg : Config} {target path text : Str} {net : IpNet}
    (htarget : parseTarget X target = .ok net) (hpath : blocklistPath cfg = .ok path)
    (hprints : PrintsBack X net) {duration : Option Str} {secs : Option Nat}
    (hfor : duration.mapM (parseDuration X) = .ok secs) {at_ : Nat} {d d' : Disk}
    (hd : Holds d path text) (hban : Cli.ban X cfg target duration at_ .none d = (.ok (), d'))
    {ip : IpAddr} (hip : net.contains ip = true) {until_ : Nat}
    (hlasts : ∀ u ∈ expiry at_ secs, until_ ≤ u)
    (before mid after : List Happening) (event : Happening)
    (hidle : (run Service.step t before).1.chores = [])
    (hclock : (run Service.step t before).1.process.shared.now.wall < until_)
    (hconfig : Names path (run Service.step t before).1.process.config)
    (hevent : event = .refresh ∨
      ∃ fs file cfg, event = .hangup fs file ∧ Config.load X fs file = .ok cfg)
    (hkept : ∀ h ∈ event :: mid ++ after,
      (∀ now, h = .clock now → now.wall < until_) ∧
      (∀ fs file cfg, h = .hangup fs file → Config.load X fs file = .ok cfg → Names path cfg) ∧
      ∀ fs feeds, h = .supervise fs feeds →
        fs.read path = .ok (d'.bytesAt path) ∨ FileBans path ip until_ X fs)
    (hdone : (run Service.step t (before ++ event :: mid)).1.chores = [])
    {n : Nat} (hn : (run Service.step t (before ++ event :: mid)).1.flights.length ≤ n)
    {call : ForwardCall}
    (hsent : (n, .sent call) ∈ (run Service.step t (before ++ event :: mid ++ after)).2) :
    ∃ f, (run Service.step t (before ++ event :: mid ++ after)).1.flights[n]? = some f ∧
      (f.client.ip = ip → f.cfg.server.enforcement = .block →
        ∃ s, t.StateOf (before ++ event :: mid ++ after) n s ∧
          isWhitelisted s f.client.ip = true) := by
  obtain ⟨hnone, geo, cfg₀, hstandard⟩ : t.flights = [] ∧
      ∃ geo cfg, t.process.pipeline = standard geo cfg := by
    obtain ⟨cfg, geo, shared, -, -, rfl⟩ := Service.boot_ok hboot
    exact ⟨rfl, geo, cfg, rfl⟩
  have hlist := trim_of_blocklistPath hpath
  obtain ⟨text', hbytes, hbans⟩ :=
    bans_written hfail2ban htarget hpath hprints hfor hd hban hip hlasts
  have hrespects : ∀ h ∈ event :: mid ++ after, Respects path ip until_ X h := by
    intro h hh
    obtain ⟨hnow, hnames, hfile⟩ := hkept h hh
    cases h with
    | clock now => exact hnow now rfl
    | hangup fs file => exact fun cfg hload => hnames fs file cfg rfl hload
    | supervise fs feeds =>
        obtain hwritten | hedited := hfile fs feeds rfl
        · exact fileBans_of_read hbans (hbytes ▸ hwritten)
        · exact hedited
    | _ => trivial
  have hstart : Upheld path ip until_ (run Service.step t before).1 := by
    refine ⟨hclock, ⟨hconfig, ?_⟩, ?_, ?_,
      ⟨geo, cfg₀, (Service.run_pipeline t before).trans hstandard⟩⟩
    · rw [hidle]
      exact fun chore hchore => absurd hchore List.not_mem_nil
    · rw [hidle]
      exact fun chore hchore => absurd hchore List.not_mem_nil
    · refine run_keeps (P := Service.Underway) (fun u h _ hu => Service.underway_step hu h) ?_
      rw [Service.Underway, hnone]
      exact fun f hf => absurd hf List.not_mem_nil
  have hbanned : Banned path ip until_ (run Service.step t (before ++ event :: mid)).1 := by
    refine banned_of_done ?_ hdone
    rw [run_append, run_cons]
    apply run_coming hlist
    · exact fun h hh => hrespects h (List.mem_append_left _ (List.mem_cons_of_mem _ hh))
    · exact coming_of_event hlist (hrespects event List.mem_cons_self) hstart hidle hevent
  obtain ⟨f, inspected, body, len, log, rest, hf, -, hadmitted, -⟩ :=
    sent_was_admitted hnone hsent
  refine ⟨f, hf, fun hclient hblock => ?_⟩
  rw [hstandard] at hadmitted
  cases inspected with
  | false =>
      obtain ⟨-, -, -, hlisted⟩ := hadmitted
      exact hlisted
  | true =>
      exfalso
      obtain ⟨early, ctx, ctx', late, ctx'', -, ⟨notes, -, hearly⟩, -, -⟩ := hadmitted
      obtain ⟨hhead, -⟩ := headPassed_of_passed (passed_of_through hblock hearly)
      obtain ⟨s, hs, hunlisted⟩ := hhead.unlisted
      have hlisted := banned_of_stateOf hlist
        (fun h hh => hrespects h (List.mem_append_right _ hh)) hbanned hn hs
      rw [hclient, hlisted] at hunlisted
      cases hunlisted

/-! ## A ban on a trusted address -/

/-- The list file is `/etc/bans`, and the allowlist has the address that will be banned. -/
def trustingConfig : Config :=
  { Config.minimal with
    reputation := { Config.minimal.reputation with
      blocklistFile := "/etc/bans"
      allowlist := [banned] } }

/-- A plain build with timed entries that reads this configuration. -/
def trustingBuild : Crates :=
  .plain ⟨false, false, true, false⟩
    { Readers.none with config := fun _ => .ok trustingConfig }

/-- The files of a host with this blocklist. -/
def trustingFiles (list : Bytes) : FileSystem where
  read path :=
    if path = ("budu.toml" : Str) then .ok (Str.utf8 minimalToml)
    else if path = ("/etc/bans" : Str) then .ok list
    else .error "no such file"

/-- The list before the ban, with one address on it. -/
def listBefore : Str := "203.0.113.7\n"

/-- The disk after the address was banned for an hour. -/
def diskAfter : Disk :=
  (Cli.ban trustingBuild trustingConfig "198.51.100.9" (some "1h") 1000 .none
    (listDisk (Str.utf8 listBefore))).2

/-- The service as it boots on these files. -/
def trustingService : Service trustingBuild :=
  (Service.boot trustingBuild (trustingFiles (Str.utf8 listBefore)) "budu.toml" ⟨1000, 0⟩
    noMetrics).toOption.get (by decide +kernel)

/-- The service of the scenario boots from its files. -/
theorem boot_trusting :
    Service.boot trustingBuild (trustingFiles (Str.utf8 listBefore)) "budu.toml" ⟨1000, 0⟩
      noMetrics = .ok trustingService := ok_of_toOption_get _ _

/-- The supervisor, on the files before the ban. -/
def superviseBefore : Happening := .supervise (trustingFiles (Str.utf8 listBefore)) noFeeds

/-- The supervisor, on the files after the ban. -/
def superviseAfter : Happening := .supervise (trustingFiles (diskAfter.bytesAt "/etc/bans")) noFeeds

/-- The banned address logs in. -/
def bannedArrives : Happening := .arrive "id-1" loginRequest (.v4 0xC6336409#32)

/-- The banned address is sent on, as it is on the allowlist. -/
theorem banned_not_sent_trusted :
    let hs := [superviseBefore, superviseBefore] ++ .refresh :: [superviseAfter, superviseAfter] ++
      [bannedArrives, .move 0 loginUpstream, .move 0 loginUpstream]
    ∃ f, (run Service.step trustingService hs).1.flights[0]? = some f ∧
      (f.client.ip = .v4 0xC6336409#32 → f.cfg.server.enforcement = .block →
        ∃ s, trustingService.StateOf hs 0 s ∧ isWhitelisted s f.client.ip = true) := by
  have hword : (netText trustingBuild banned).all
      (fun c => !Str.isWhitespace c && c != '#') = true := by
    decide +kernel
  have hprints : PrintsBack trustingBuild banned := by
    refine ⟨fun c hc => ?_, by decide +kernel⟩
    simpa using List.all_eq_true.mp hword c hc
  have hlasts : ∀ u ∈ expiry 1000 (some 3600), 4600 ≤ u := by
    intro u hu
    obtain rfl := Option.some.inj hu
    decide
  have hrun : (run Service.step trustingService [superviseBefore, superviseBefore]).1.chores.isEmpty
        = true ∧
      (run Service.step trustingService
        [superviseBefore, superviseBefore]).1.process.shared.now.wall < 4600 ∧
      (run Service.step trustingService
        [superviseBefore, superviseBefore]).1.process.config.reputation.blocklistFile =
          "/etc/bans" ∧
      (run Service.step trustingService ([superviseBefore, superviseBefore] ++
        .refresh :: [superviseAfter, superviseAfter])).1.chores.isEmpty = true ∧
      (run Service.step trustingService ([superviseBefore, superviseBefore] ++
        .refresh :: [superviseAfter, superviseAfter])).1.flights.length ≤ 0 ∧
      (0, .sent ((Flight.start trustingService.process.config "id-1" loginRequest
          (.v4 0xC6336409#32) : Flight trustingBuild).callWith (.stream ⟨[], none⟩) none)) ∈
        (run Service.step trustingService ([superviseBefore, superviseBefore] ++
          .refresh :: [superviseAfter, superviseAfter] ++
            [bannedArrives, .move 0 loginUpstream, .move 0 loginUpstream])).2 := by
    decide +kernel
  obtain ⟨hidle, hclock, hconfig, hdone, hn, hsent⟩ := hrun
  have htarget : parseTarget trustingBuild "198.51.100.9" = .ok banned := by decide +kernel
  have hpath : blocklistPath trustingConfig = .ok "/etc/bans" := by decide +kernel
  have hfor : (some ("1h" : Str)).mapM (parseDuration trustingBuild) = .ok (some 3600) := by
    decide +kernel
  have hholds : Holds (listDisk (Str.utf8 listBefore)) "/etc/bans" listBefore := rfl
  have hban : Cli.ban trustingBuild trustingConfig "198.51.100.9" (some "1h") 1000 .none
      (listDisk (Str.utf8 listBefore)) = (.ok (), diskAfter) :=
    Prod.ext (by decide +kernel) rfl
  have hip : banned.contains (.v4 0xC6336409#32) = true := by decide +kernel
  have hkept : ∀ h ∈ .refresh :: [superviseAfter, superviseAfter] ++
        [bannedArrives, .move 0 loginUpstream, .move 0 loginUpstream],
      (∀ now, h = .clock now → now.wall < 4600) ∧
      (∀ fs file cfg, h = .hangup fs file → Config.load trustingBuild fs file = .ok cfg →
        Names "/etc/bans" cfg) ∧
      ∀ fs feeds, h = .supervise fs feeds →
        fs.read "/etc/bans" = .ok (diskAfter.bytesAt "/etc/bans") ∨
          FileBans "/etc/bans" (.v4 0xC6336409#32) 4600 trustingBuild fs := by
    intro h hh
    simp only [List.cons_append, List.nil_append, List.mem_cons, List.not_mem_nil, or_false] at hh
    have hread : ∀ fs feeds, superviseAfter = .supervise fs feeds →
        fs.read "/etc/bans" = .ok (diskAfter.bytesAt "/etc/bans") ∨
          FileBans "/etc/bans" (.v4 0xC6336409#32) 4600 trustingBuild fs := by
      intro fs feeds heq
      obtain ⟨rfl, -⟩ := Happening.supervise.inj heq
      exact .inl rfl
    rcases hh with rfl | rfl | rfl | rfl | rfl | rfl
    · simp
    · exact ⟨by simp [superviseAfter], by simp [superviseAfter], hread⟩
    · exact ⟨by simp [superviseAfter], by simp [superviseAfter], hread⟩
    · simp [bannedArrives]
    · simp
    · simp
  exact banned_not_sent boot_trusting rfl htarget hpath hprints hfor hholds hban hip hlasts _ _ _
    .refresh (List.isEmpty_iff.1 hidle) hclock hconfig (.inl rfl) hkept
    (List.isEmpty_iff.1 hdone) hn hsent

end BuduWaf.Traffic
