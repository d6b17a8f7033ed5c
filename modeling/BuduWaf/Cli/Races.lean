import BuduWaf.Cli.Edits

/-!
# Two `budu ban` at once

Each command reads the list, creates the temporary file (both use the same name), writes it and
renames it over the list. Nothing locks the list between these steps.

* **`Store`**: names and the files behind them; an open file stays open when its name goes.
* **`move`**: one step of a command; four of them are `ban` (`alone_eq_ban`).
* **`no_ban_lost_iff`**: in which interleavings no ban is lost. Two commands that both succeed write
  one after the other, and the second one must not have read before the first one wrote.
* **`both_read_first`**: an interleaving that loses a ban.

The run of two commands is a list of turns. As long as nobody has returned, the invariant says of
each command what it has read and which file it has open (`Unfinished`): creating the temporary file
while the other one has it open truncates that very file. When the first command returns, there are
two cases (`Returned`). Either the other one has not opened its file yet, and from then on it is
alone; or it has lost its file to the renaming, and will fail. So two commands that both succeed
write one after the other, and only what the second one had read decides about the first one's ban.
-/

namespace BuduWaf.Cli

variable (X : Crates)

/-! ## Files -/

/-- A directory: which file a name stands for, and what the files hold. No file has two names,
and every file may be read. -/
structure Store where
  /-- The file behind a name. -/
  names : Str → Option Nat
  /-- The content of a file. -/
  files : Nat → Bytes
  /-- The next file to be made. -/
  fresh : Nat
  /-- Files behind names have been made. -/
  names_lt : ∀ p i, names p = some i → i < fresh
  /-- No file has two names. -/
  names_inj : ∀ p q i, names p = some i → names q = some i → p = q

namespace Store

/-- The disk as the names show it: each name that has a file shows what the file holds. -/
def toDisk (s : Store) : Disk := fun p => (s.names p).map fun i => ⟨s.files i, true⟩

/-- `File::create`: the file behind the name is truncated, or one is made. -/
def create (s : Store) (p : Str) : Nat × Store :=
  match h : s.names p with
  | some i => (i, { s with files := Function.update s.files i [] })
  | none =>
    (s.fresh,
      { names := Function.update s.names p (some s.fresh)
        files := Function.update s.files s.fresh []
        fresh := s.fresh + 1
        names_lt := by
          intro q i hq
          by_cases hqp : q = p
          · rw [hqp, Function.update_self] at hq
            obtain rfl := Option.some.inj hq
            exact Nat.lt_succ_self _
          · rw [Function.update_of_ne hqp] at hq
            exact Nat.lt_succ_of_lt (s.names_lt q i hq)
        names_inj := by
          intro q r i hq hr
          have hold : ∀ t, t ≠ p → Function.update s.names p (some s.fresh) t = some s.fresh →
              False := by
            intro t ht hsome
            rw [Function.update_of_ne ht] at hsome
            exact Nat.lt_irrefl _ (s.names_lt t _ hsome)
          by_cases hqp : q = p
          · by_cases hrp : r = p
            · rw [hqp, hrp]
            · rw [hqp, Function.update_self] at hq
              obtain rfl := Option.some.inj hq
              exact (hold r hrp hr).elim
          · by_cases hrp : r = p
            · rw [hrp, Function.update_self] at hr
              obtain rfl := Option.some.inj hr
              exact (hold q hqp hq).elim
            · rw [Function.update_of_ne hqp] at hq
              rw [Function.update_of_ne hrp] at hr
              exact s.names_inj q r i hq hr })

/-- Writing to an open file from its start: what stood there is overwritten, and no more. -/
def write (s : Store) (fd : Nat) (bytes : Bytes) : Store :=
  { s with files := Function.update s.files fd (bytes ++ (s.files fd).drop bytes.length) }

/-- After a renaming a name is the new one, or one of before that was not given up. -/
theorem names_of_renamed {names : Str → Option Nat} {source target q : Str} {i j : Nat}
    (h : Function.update (Function.update names target (some i)) source none q = some j) :
    (q = target ∧ j = i) ∨ (q ≠ source ∧ names q = some j) := by
  by_cases hsource : q = source
  · rw [hsource, Function.update_self] at h
    cases h
  · rw [Function.update_of_ne hsource] at h
    by_cases htarget : q = target
    · rw [htarget, Function.update_self] at h
      exact .inl ⟨htarget, (Option.some.inj h).symm⟩
    · rw [Function.update_of_ne htarget] at h
      exact .inr ⟨hsource, h⟩

/-- `std::fs::rename`: the file takes the other name, in place of the file behind it. -/
def rename (s : Store) (source target : Str) : Option Store :=
  match hsource : s.names source with
  | none => none
  | some i =>
    if source = target then some s
    else some
      { names := Function.update (Function.update s.names target (some i)) source none
        files := s.files
        fresh := s.fresh
        names_lt := by
          intro q j hq
          rcases names_of_renamed hq with ⟨-, rfl⟩ | ⟨-, hq'⟩
          · exact s.names_lt source j hsource
          · exact s.names_lt q j hq'
        names_inj := by
          intro q r j hq hr
          rcases names_of_renamed hq with ⟨rfl, rfl⟩ | ⟨hqs, hq'⟩
          · rcases names_of_renamed hr with ⟨rfl, -⟩ | ⟨hrs, hr'⟩
            · rfl
            · exact (hrs (s.names_inj r source j hr' hsource)).elim
          · rcases names_of_renamed hr with ⟨-, rfl⟩ | ⟨-, hr'⟩
            · exact (hqs (s.names_inj q source j hq' hsource)).elim
            · exact s.names_inj q r j hq' hr' }

end Store

/-! ## Commands and their steps -/

/-- A `ban` with valid arguments.
Source: `budu/src/ban.rs` `ban` -/
structure BanCommand where
  /-- The target, as it is typed. -/
  target : Str
  /-- The duration, as it is typed. -/
  duration : Option Str
  /-- What the clock says. -/
  now : Nat
  /-- The target. -/
  net : IpNet
  /-- The duration in seconds. -/
  secs : Option Nat
  /-- The target is a network. -/
  parses : parseTarget X target = .ok net
  /-- The duration is one. -/
  lasts : duration.mapM (parseDuration X) = .ok secs
  /-- The text of the network names it. -/
  prints : PrintsBack X net

variable {X}

/-- The list a command writes, from the list it read. -/
def BanCommand.edited (c : BanCommand X) (text : Str) : List Str :=
  without X (Str.lines text) c.net ++ [entryText X c.net (expiry c.now c.secs)]

/-- How far a command has come. -/
inductive Progress where
  /-- Not started. -/
  | idle
  /-- The list was read, and these lines are to be written. -/
  | gathered (lines : List Str)
  /-- The temporary file is open. -/
  | opened (lines : List Str) (fd : Nat)
  /-- The temporary file is written. -/
  | written (lines : List Str)
  /-- The command returned. -/
  | finished (ok : Bool)
deriving DecidableEq

/-- One step of a command: read, create, write, rename.
Source: `budu/src/ban.rs` `ban`, `write_lines` -/
def BanCommand.move (c : BanCommand X) (path : Str) : Progress → Store → Progress × Store
  | .idle, s =>
    (.gathered (without X (readLines s.toDisk path) c.net
      ++ [entryText X c.net (expiry c.now c.secs)]), s)
  | .gathered lines, s =>
    let f := s.create (withExtension path "tmp")
    (.opened lines f.1, f.2)
  | .opened lines fd, s => (.written lines, s.write fd (Str.utf8 (unlines lines)))
  | .written _, s =>
    match s.rename (withExtension path "tmp") path with
    | some s' => (.finished true, s')
    | none => (.finished false, s)
  | .finished ok, s => (.finished ok, s)

/-! ## What the names show after a step -/

namespace Store

/-- A file that is put is the only one that changes. -/
theorem toDisk_put (s : Store) (p : Str) (bytes : Bytes) :
    s.toDisk.put p bytes = Function.update s.toDisk p (some ⟨bytes, true⟩) := by
  unfold Disk.put toDisk
  cases s.names p <;> rfl

/-- A name that has a file shows its content. -/
theorem toDisk_of_names {s : Store} {p : Str} {fd : Nat} (h : s.names p = some fd) :
    s.toDisk p = some ⟨s.files fd, true⟩ := by
  unfold toDisk
  rw [h]
  rfl

/-- A file that changes does so on the disk under its name. -/
theorem toDisk_update {s : Store} {p : Str} {fd : Nat} (h : s.names p = some fd)
    (bytes : Bytes) :
    toDisk { s with files := Function.update s.files fd bytes } = s.toDisk.put p bytes := by
  funext q
  rw [toDisk_put]
  by_cases hq : q = p
  · subst hq
    unfold toDisk
    dsimp only
    rw [Function.update_self, h, Option.map_some, Function.update_self]
  · rw [Function.update_of_ne hq]
    unfold toDisk
    dsimp only
    cases hname : s.names q with
    | none => rfl
    | some i =>
        have hne : i ≠ fd := by
          rintro rfl
          exact hq (s.names_inj q p i hname h)
        rw [Option.map_some, Option.map_some, Function.update_of_ne hne]

/-- Creating opens the file behind the name. -/
theorem names_create (s : Store) (p : Str) :
    (s.create p).2.names p = some (s.create p).1 := by
  unfold create
  split
  · rename_i i h
    exact h
  · exact Function.update_self _ _ _

/-- The file behind a name stays behind it when it is created again. -/
theorem create_of_names {s : Store} {p : Str} {i : Nat} (h : s.names p = some i) :
    s.create p = (i, { s with files := Function.update s.files i [] }) := by
  unfold create
  split
  · rename_i j hj
    obtain rfl := Option.some.inj (hj.symm.trans h)
    rfl
  · rename_i hnone
    rw [h] at hnone
    cases hnone

/-- Creating a file puts an empty one under its name. -/
theorem toDisk_create (s : Store) (p : Str) : (s.create p).2.toDisk = s.toDisk.put p [] := by
  cases h : s.names p with
  | some i =>
      rw [create_of_names h]
      exact toDisk_update h []
  | none =>
      unfold create
      split
      · rename_i i hi
        rw [h] at hi
        cases hi
      · funext q
        rw [toDisk_put]
        unfold toDisk
        dsimp only
        by_cases hq : q = p
        · rw [hq, Function.update_self, Function.update_self, Option.map_some,
            Function.update_self]
        · rw [Function.update_of_ne hq, Function.update_of_ne hq]
          cases hname : s.names q with
          | none => rfl
          | some i =>
              have hne : i ≠ s.fresh := Nat.ne_of_lt (s.names_lt q i hname)
              rw [Option.map_some, Option.map_some, Function.update_of_ne hne]

/-- Writing to a file that was created empty puts the bytes under its name. -/
theorem toDisk_write {s : Store} {p : Str} {fd : Nat} (h : s.names p = some fd)
    (hempty : s.toDisk p = some ⟨[], true⟩) (bytes : Bytes) :
    (s.write fd bytes).toDisk = s.toDisk.put p bytes := by
  rw [toDisk_of_names h] at hempty
  have hfile : s.files fd = [] := congrArg DiskFile.bytes (Option.some.inj hempty)
  unfold write
  rw [hfile, List.drop_nil, List.append_nil]
  exact toDisk_update h bytes

/-- Writing a file leaves what other names show. -/
theorem toDisk_write_of_ne {s : Store} {p q : Str} {fd : Nat} (h : s.names p = some fd)
    (hne : p ≠ q) (bytes : Bytes) : (s.write fd bytes).toDisk q = s.toDisk q := by
  unfold write
  rw [toDisk_update h]
  exact Disk.put_of_ne _ _ hne

/-- Renaming a file that is there succeeds, moves it on the disk and leaves no file under the old
name. -/
theorem rename_of_names {s : Store} {source : Str} {i : Nat} (h : s.names source = some i)
    (target : Str) : ∃ s', s.rename source target = some s' ∧
      s'.toDisk = s.toDisk.rename source target ∧
      (source ≠ target → s'.names source = none) := by
  unfold rename
  split
  · rename_i hnone
    rw [h] at hnone
    cases hnone
  · rename_i j hj
    by_cases heq : source = target
    · rw [if_pos heq]
      refine ⟨s, rfl, ?_, fun hne => (hne heq).elim⟩
      unfold Disk.rename
      rw [if_pos heq]
    · rw [if_neg heq]
      refine ⟨_, rfl, ?_, fun _ => Function.update_self _ _ _⟩
      funext q
      unfold Disk.rename
      rw [if_neg heq]
      by_cases hqs : q = source
      · rw [hqs, Function.update_self]
        unfold toDisk
        dsimp only
        rw [Function.update_self]
        rfl
      · rw [Function.update_of_ne hqs]
        by_cases hqt : q = target
        · rw [hqt, Function.update_self, toDisk_of_names hj]
          unfold toDisk
          dsimp only
          rw [Function.update_of_ne (Ne.symm heq), Function.update_self]
          rfl
        · rw [Function.update_of_ne hqt]
          unfold toDisk
          dsimp only
          rw [Function.update_of_ne hqs, Function.update_of_ne hqt]

/-- A name without a file cannot be renamed. -/
theorem rename_of_none {s : Store} {source : Str} (h : s.names source = none) (target : Str) :
    s.rename source target = none := by
  unfold rename
  split
  · rfl
  · rename_i i hi
    rw [h] at hi
    cases hi

end Store

/-! ## Two commands -/

/-- Which of the two commands. -/
inductive Who where
  /-- The one. -/
  | first
  /-- The other. -/
  | second
deriving DecidableEq

/-- The other one of the two commands. -/
def Who.other : Who → Who
  | .first => .second
  | .second => .first

/-- The other command is not the same one. -/
theorem Who.other_ne (w : Who) : w.other ≠ w := by cases w <;> decide

/-- There are only two commands. -/
theorem Who.eq_or_eq_other (w v : Who) : v = w ∨ v = w.other := by
  cases w <;> cases v <;> decide

/-- The other one of the other one is the command itself. -/
theorem Who.other_other (w : Who) : w.other.other = w := by cases w <;> rfl

/-- The directory and how far each command is. -/
structure Race where
  /-- The directory. -/
  store : Store
  /-- The commands. -/
  progress : Who → Progress

variable (path : Str) (cs : Who → BanCommand X)

/-- One of the two commands makes its next move, on the store both of them see. -/
def Race.step (r : Race) (w : Who) : Race :=
  let m := (cs w).move path (r.progress w) r.store
  ⟨m.2, Function.update r.progress w m.1⟩

/-- The race before either command has started. -/
def Race.start (s : Store) : Race := ⟨s, fun _ => .idle⟩

/-- The race after moves of both commands, in this order. -/
def Race.after (r : Race) (schedule : List Who) : Race := schedule.foldl (Race.step path cs) r

/-- A schedule is its first move and then the others. -/
theorem Race.after_cons (r : Race) (w : Who) (schedule : List Who) :
    r.after path cs (w :: schedule) = (r.step path cs w).after path cs schedule := rfl

variable (X) in
/-- Some line of a text is an entry for the network. -/
def Lists (text : Str) (net : IpNet) : Prop := ∃ line ∈ Str.lines text, lineNet X line = some net

/-- A text lists a network iff one of its lines does, without the line's end. -/
theorem lists_iff_chomp {text : Str} {net : IpNet} :
    Lists X text net ↔ ∃ line ∈ (Str.lines text).map Str.chomp, lineNet X line = some net := by
  unfold Lists
  constructor
  · rintro ⟨line, hline, hnet⟩
    exact ⟨Str.chomp line, List.mem_map_of_mem hline, by rw [lineNet_chomp, hnet]⟩
  · rintro ⟨line, hline, hnet⟩
    obtain ⟨raw, hraw, rfl⟩ := List.mem_map.mp hline
    exact ⟨raw, hraw, by rw [← lineNet_chomp, hnet]⟩

/-- An edited list has the target of the command and what was there before. -/
theorem lists_edited_iff (c : BanCommand X) (text : Str) (net : IpNet) :
    Lists X (unlines (c.edited text)) net ↔ net = c.net ∨ Lists X text net := by
  have hentry := lineNet_entry c.prints (expiry c.now c.secs)
  have hlf := lf_notMem_entry c.prints (expiry c.now c.secs)
  rw [lists_iff_chomp, BanCommand.edited, map_chomp_lines_edited hlf]
  constructor
  · rintro ⟨line, hline, hnet⟩
    obtain ⟨raw, hraw, rfl⟩ := List.mem_map.mp hline
    rw [lineNet_chomp] at hnet
    rcases List.mem_append.mp hraw with hraw | hraw
    · exact .inr ⟨raw, (List.mem_filter.mp hraw).1, hnet⟩
    · obtain rfl := List.mem_singleton.mp hraw
      exact .inl (Option.some.inj (hnet.symm.trans hentry))
  · intro h
    by_cases hown : net = c.net
    · refine ⟨_, List.mem_map_of_mem (List.mem_append_right _ List.mem_cons_self), ?_⟩
      rw [lineNet_chomp, hentry, hown]
    · obtain ⟨line, hline, hnet⟩ := h.resolve_left hown
      have hother : (lineNet X line != some c.net) = true := by
        rw [hnet]
        exact bne_iff_ne.mpr fun heq => hown (Option.some.inj heq)
      have hkept : line ∈ without X (Str.lines text) c.net := List.mem_filter.mpr ⟨hline, hother⟩
      refine ⟨_, List.mem_map_of_mem (List.mem_append_left _ hkept), ?_⟩
      rw [lineNet_chomp, hnet]

/-! ## One command alone -/

variable {path} {cs}

/-- After a rename the target is what the source was. -/
theorem Disk.rename_target (d : Disk) (source target : Str) :
    d.rename source target target = d source := by
  unfold Disk.rename
  by_cases h : source = target
  · rw [if_pos h, h]
  · rw [if_neg h, Function.update_of_ne (Ne.symm h), Function.update_self]

/-- What a step makes of the race: the store and the progress of the one that moves. -/
theorem Race.step_eq {r : Race} {w : Who} {p : Progress} (h : r.progress w = p) :
    r.step path cs w = ⟨((cs w).move path p r.store).2,
      Function.update r.progress w ((cs w).move path p r.store).1⟩ := by
  unfold Race.step
  rw [h]

/-- A command that has returned does not move any more. -/
theorem Race.step_finished {r : Race} {w : Who} {ok : Bool} (h : r.progress w = .finished ok) :
    r.step path cs w = r := by
  rw [Race.step_eq h]
  show Race.mk r.store (Function.update r.progress w (.finished ok)) = r
  rw [← h, Function.update_eq_self]

/-- A command that has written and finds its temporary file renames it and succeeds. -/
theorem BanCommand.move_written (c : BanCommand X) {lines : List Str} {s s' : Store}
    (h : s.rename (withExtension path "tmp") path = some s') :
    c.move path (.written lines) s = (.finished true, s') := by
  show (match s.rename (withExtension path "tmp") path with
    | some s' => (Progress.finished true, s')
    | none => (Progress.finished false, s)) = _
  rw [h]

/-- A command that has written and finds no temporary file fails. -/
theorem BanCommand.move_written_none (c : BanCommand X) {lines : List Str} {s : Store}
    (h : s.rename (withExtension path "tmp") path = none) :
    c.move path (.written lines) s = (.finished false, s) := by
  show (match s.rename (withExtension path "tmp") path with
    | some s' => (Progress.finished true, s')
    | none => (Progress.finished false, s)) = _
  rw [h]

/-- The next step of a command that moved last. -/
theorem Race.step_update (s : Store) (f : Who → Progress) (w : Who) (p : Progress) :
    Race.step path cs ⟨s, Function.update f w p⟩ w =
      ⟨((cs w).move path p s).2, Function.update f w ((cs w).move path p s).1⟩ := by
  have hself : (Race.mk s (Function.update f w p)).progress w = p := Function.update_self _ _ _
  rw [Race.step_eq hself]
  exact congrArg (Race.mk _) (Function.update_idem _ _ _)

variable (path cs) in
/-- Four moves of one command write the temporary file and rename it. -/
theorem after_four {r : Race} {w : Who} (h : r.progress w = .idle) :
    ∃ s', r.after path cs (List.replicate 4 w) =
        ⟨s', Function.update r.progress w (.finished true)⟩ ∧
      s'.toDisk = (r.store.toDisk.put (withExtension path "tmp") (Str.utf8 (unlines
        (editedList X r.store.toDisk path (cs w).net
          (entryText X (cs w).net (expiry (cs w).now (cs w).secs)))))).rename
            (withExtension path "tmp") path := by
  set lines := editedList X r.store.toDisk path (cs w).net
    (entryText X (cs w).net (expiry (cs w).now (cs w).secs)) with hlines
  set tmp := withExtension path "tmp" with htmp
  set f := r.store.create tmp with hf
  have hname : f.2.names tmp = some f.1 := Store.names_create r.store tmp
  have hcreated : f.2.toDisk = r.store.toDisk.put tmp [] := Store.toDisk_create r.store tmp
  have hempty : f.2.toDisk tmp = some ⟨[], true⟩ := by
    rw [hcreated, Store.toDisk_put, Function.update_self]
  have hwritten := Store.toDisk_write hname hempty (Str.utf8 (unlines lines))
  have hname' : (f.2.write f.1 (Str.utf8 (unlines lines))).names tmp = some f.1 := hname
  obtain ⟨s', hrename, hdisk, -⟩ := Store.rename_of_names hname' path
  have hstart : r.step path cs w = ⟨r.store, Function.update r.progress w (.gathered lines)⟩ :=
    Race.step_eq h
  have hmove : (cs w).move path (.written lines) (f.2.write f.1 (Str.utf8 (unlines lines))) =
      (.finished true, s') := (cs w).move_written hrename
  refine ⟨s', ?_, ?_⟩
  · show Race.step path cs (Race.step path cs (Race.step path cs (r.step path cs w) w) w) w = _
    rw [hstart, Race.step_update]
    show Race.step path cs (Race.step path cs ⟨f.2, Function.update r.progress w
      (.opened lines f.1)⟩ w) w = _
    rw [Race.step_update]
    show Race.step path cs ⟨f.2.write f.1 (Str.utf8 (unlines lines)),
      Function.update r.progress w (.written lines)⟩ w = _
    rw [Race.step_update, hmove]
  · rw [hdisk, hwritten, Store.toDisk_put, hcreated, Store.toDisk_put, Store.toDisk_put,
      Function.update_idem]

/-- **One command alone is `ban`**: its four moves, with nobody in between, succeed and leave the
disk that `ban` leaves. -/
theorem alone_eq_ban {cfg : Config} (hpath : blocklistPath cfg = .ok path) {r : Race} {w : Who}
    (h : r.progress w = .idle) :
    ban X cfg (cs w).target (cs w).duration (cs w).now .none r.store.toDisk =
      (.ok (), (r.after path cs (List.replicate 4 w)).store.toDisk) := by
  obtain ⟨s', hafter, hdisk⟩ := after_four path cs h
  rw [ban_of_valid (cs w).parses hpath (banEntry_eq (cs w).lasts _ _), hafter, hdisk]
  rfl

/-! ## After one of them returned -/

/-- A command that has read some text from the list, or will, and meets no other. -/
def BanCommand.Alone (c : BanCommand X) (path base : Str) : Progress → Store → Prop
  | .idle, s => Holds s.toDisk path base
  | .gathered lines, _ => lines = c.edited base
  | .opened lines fd, s => lines = c.edited base ∧ s.names (withExtension path "tmp") = some fd ∧
      s.toDisk (withExtension path "tmp") = some ⟨[], true⟩
  | .written lines, s => lines = c.edited base ∧
      s.toDisk (withExtension path "tmp") = some ⟨Str.utf8 (unlines lines), true⟩
  | .finished _, s => Holds s.toDisk path (unlines (c.edited base))

/-- A command that is alone makes its moves as `ban` does. -/
theorem BanCommand.Alone.move {c : BanCommand X} {base : Str} {p : Progress} {s : Store}
    (h : c.Alone path base p s) : c.Alone path base (c.move path p s).1 (c.move path p s).2 := by
  cases p with
  | idle =>
      show without X (readLines s.toDisk path) c.net ++ _ = c.edited base
      rw [readLines_of_holds h]
      rfl
  | gathered lines =>
      refine ⟨h, Store.names_create s _, ?_⟩
      show (s.create _).2.toDisk _ = _
      rw [Store.toDisk_create, Store.toDisk_put, Function.update_self]
  | opened lines fd =>
      obtain ⟨hlines, hname, hempty⟩ := h
      refine ⟨hlines, ?_⟩
      show (s.write fd _).toDisk _ = _
      rw [Store.toDisk_write hname hempty, Store.toDisk_put, Function.update_self]
  | written lines =>
      obtain ⟨rfl, hfile⟩ := h
      obtain ⟨fd, hname, -⟩ := Option.map_eq_some_iff.mp hfile
      obtain ⟨s', hrename, hdisk, -⟩ := Store.rename_of_names hname path
      rw [c.move_written hrename]
      show s'.toDisk path = _
      rw [hdisk, Disk.rename_target, hfile]
  | finished ok => exact h

/-- A command whose temporary file was renamed away. -/
def Orphaned (path : Str) : Progress → Store → Prop
  | .idle, _ => False
  | .gathered _, _ => False
  | .opened _ _, s => s.names (withExtension path "tmp") = none
  | .written _, s => s.names (withExtension path "tmp") = none
  | .finished ok, _ => ok = false

/-- A command whose temporary file was taken away stays without one. -/
theorem Orphaned.move {c : BanCommand X} {p : Progress} {s : Store} (h : Orphaned path p s) :
    Orphaned path (c.move path p s).1 (c.move path p s).2 := by
  cases p with
  | idle => exact h.elim
  | gathered lines => exact h.elim
  | opened lines fd => exact h
  | written lines =>
      have hgone : s.names (withExtension path "tmp") = none := h
      rw [c.move_written_none (Store.rename_of_none hgone path)]
      rfl
  | finished ok => exact h

variable (cs) in
/-- What holds of a command holds while it moves, once the other one has returned. -/
theorem Race.after_of_finished {P : Progress → Store → Prop} {w : Who} {ok : Bool}
    (hmove : ∀ p s, P p s → P ((cs w.other).move path p s).1 ((cs w.other).move path p s).2)
    {r : Race} (hw : r.progress w = .finished ok) (h : P (r.progress w.other) r.store)
    (schedule : List Who) :
    P ((r.after path cs schedule).progress w.other) (r.after path cs schedule).store := by
  induction schedule generalizing r with
  | nil => exact h
  | cons v schedule ih =>
      rw [Race.after_cons]
      rcases Who.eq_or_eq_other w v with rfl | rfl
      · rw [Race.step_finished hw]
        exact ih hw h
      · refine ih ?_ ?_
        · exact (Function.update_of_ne (Who.other_ne w).symm _ _).trans hw
        · have hself : (r.step path cs w.other).progress w.other =
              ((cs w.other).move path (r.progress w.other) r.store).1 :=
            Function.update_self _ _ _
          rw [hself]
          exact hmove _ _ h

/-! ## Before one of them returned -/

/-- The command has the temporary file open, or had. -/
def Progress.HasFile : Progress → Prop
  | .idle => False
  | .gathered _ => False
  | .opened _ _ => True
  | .written _ => True
  | .finished _ => True

/-- A command before any of the two has returned. What it wrote is in the temporary file, unless
the other one has opened that too. -/
def BanCommand.Early (c : BanCommand X) (path text : Str) (shared : Prop) :
    Progress → Store → Prop
  | .idle, _ => True
  | .gathered lines, _ => lines = c.edited text
  | .opened lines fd, s => lines = c.edited text ∧ s.names (withExtension path "tmp") = some fd ∧
      (¬ shared → s.toDisk (withExtension path "tmp") = some ⟨[], true⟩)
  | .written lines, s => lines = c.edited text ∧
      (∃ fd, s.names (withExtension path "tmp") = some fd) ∧
      (¬ shared → s.toDisk (withExtension path "tmp") = some ⟨Str.utf8 (unlines lines), true⟩)
  | .finished _, _ => False

variable (path cs) in
/-- Neither command has returned, and the list is still what it was before both. -/
structure Unfinished (text : Str) (r : Race) : Prop where
  /-- The list is what it was. -/
  list : Holds r.store.toDisk path text
  /-- The commands. -/
  early : ∀ w, (cs w).Early path text (r.progress w.other).HasFile (r.progress w) r.store

/-- A command does not notice a move that leaves the temporary file, or shares it. -/
theorem BanCommand.Early.mono {c : BanCommand X} {text : Str} {shared shared' : Prop}
    {p : Progress} {s s' : Store} (h : c.Early path text shared p s) (hshared : shared → shared')
    (hname : ∀ fd, s.names (withExtension path "tmp") = some fd →
      s'.names (withExtension path "tmp") = some fd)
    (hfile : ¬ shared' →
      s'.toDisk (withExtension path "tmp") = s.toDisk (withExtension path "tmp")) :
    c.Early path text shared' p s' := by
  cases p with
  | idle => trivial
  | gathered lines => exact h
  | opened lines fd =>
      obtain ⟨hlines, hfd, hempty⟩ := h
      refine ⟨hlines, hname fd hfd, ?_⟩
      intro hnot
      rw [hfile hnot]
      exact hempty fun hs => hnot (hshared hs)
  | written lines =>
      obtain ⟨hlines, ⟨fd, hfd⟩, hcontent⟩ := h
      refine ⟨hlines, ⟨fd, hname fd hfd⟩, ?_⟩
      intro hnot
      rw [hfile hnot]
      exact hcontent fun hs => hnot (hshared hs)
  | finished ok => exact h.elim

/-- After a move of one command that did not return. -/
theorem Unfinished.of_move {text : Str} {r : Race} {w : Who} (h : Unfinished path cs text r)
    {p : Progress} {s : Store}
    (hmove : (cs w).move path (r.progress w) r.store = (p, s))
    (hlist : s.toDisk path = r.store.toDisk path)
    (hown : (cs w).Early path text (r.progress w.other).HasFile p s)
    (hshared : (r.progress w).HasFile → p.HasFile)
    (hname : ∀ fd, r.store.names (withExtension path "tmp") = some fd →
      s.names (withExtension path "tmp") = some fd)
    (hfile : ¬ p.HasFile →
      s.toDisk (withExtension path "tmp") = r.store.toDisk (withExtension path "tmp")) :
    Unfinished path cs text (r.step path cs w) := by
  have hstep : r.step path cs w = ⟨s, Function.update r.progress w p⟩ := by
    unfold Race.step
    rw [hmove]
  rw [hstep]
  constructor
  · exact hlist.trans h.list
  · intro v
    rcases Who.eq_or_eq_other w v with rfl | rfl
    · dsimp only
      rw [Function.update_self, Function.update_of_ne (Who.other_ne v)]
      exact hown
    · have hother := h.early w.other
      dsimp only
      rw [Who.other_other] at hother ⊢
      rw [Function.update_self, Function.update_of_ne (Who.other_ne w)]
      exact hother.mono hshared hname hfile

/-- What the other one is in for when a command returns. -/
def Returned (path : Str) (c d : BanCommand X) (text : Str) (p : Progress) (s : Store) : Prop :=
  (p = .idle ∧ Holds s.toDisk path (unlines (c.edited text))) ∨
    p = .gathered (d.edited text) ∨ Orphaned path p s

/-- **One move before anybody has returned**: either nobody has after it, or the command that moved
has, and what becomes of the other one depends on how far it is. -/
theorem Unfinished.step (htmp : withExtension path "tmp" ≠ path) {text : Str} {r : Race}
    (h : Unfinished path cs text r) (w : Who) :
    Unfinished path cs text (r.step path cs w) ∨
      (∃ lines, r.progress w = .written lines) ∧
        (r.step path cs w).progress w = .finished true ∧
        (r.step path cs w).progress w.other = r.progress w.other ∧
        Returned path (cs w) (cs w.other) text (r.progress w.other) (r.step path cs w).store := by
  have hw := h.early w
  cases hprogress : r.progress w with
  | idle =>
      left
      rw [hprogress] at hw
      refine h.of_move (congrArg (fun p => (cs w).move path p r.store) hprogress) rfl ?_ ?_
        (fun _ hfd => hfd) (fun _ => rfl)
      · show without X (readLines r.store.toDisk path) (cs w).net ++ _ = _
        rw [readLines_of_holds h.list]
        rfl
      · rw [hprogress]
        exact False.elim
  | gathered lines =>
      left
      rw [hprogress] at hw
      refine h.of_move (congrArg (fun p => (cs w).move path p r.store) hprogress) ?_ ?_
        (fun _ => trivial) ?_ (fun hnot => (hnot trivial).elim)
      · show (r.store.create _).2.toDisk path = _
        rw [Store.toDisk_create, Disk.put_of_ne _ _ htmp]
      · refine ⟨hw, Store.names_create _ _, fun _ => ?_⟩
        show (r.store.create _).2.toDisk _ = _
        rw [Store.toDisk_create, Store.toDisk_put, Function.update_self]
      · intro fd hfd
        show (r.store.create _).2.names _ = _
        rw [Store.create_of_names hfd]
        exact hfd
  | opened lines fd =>
      left
      rw [hprogress] at hw
      obtain ⟨hlines, hname, hempty⟩ := hw
      refine h.of_move (congrArg (fun p => (cs w).move path p r.store) hprogress) ?_ ?_
        (fun _ => trivial) (fun _ hfd => hfd) (fun hnot => (hnot trivial).elim)
      · exact Store.toDisk_write_of_ne hname htmp _
      · refine ⟨hlines, ⟨fd, hname⟩, fun hnot => ?_⟩
        show (r.store.write fd _).toDisk _ = _
        rw [Store.toDisk_write hname (hempty hnot), Store.toDisk_put, Function.update_self]
  | written lines =>
      right
      rw [hprogress] at hw
      obtain ⟨rfl, ⟨fd, hname⟩, hcontent⟩ := hw
      obtain ⟨s', hrename, hdisk, hgone⟩ := Store.rename_of_names hname path
      have hstep : r.step path cs w = ⟨s', Function.update r.progress w (.finished true)⟩ := by
        rw [Race.step_eq hprogress, (cs w).move_written hrename]
      rw [hstep]
      refine ⟨⟨_, rfl⟩, Function.update_self _ _ _, Function.update_of_ne (Who.other_ne w) _ _, ?_⟩
      have hother := h.early w.other
      cases hstage : r.progress w.other with
      | idle =>
          left
          rw [hstage] at hcontent
          refine ⟨rfl, ?_⟩
          show s'.toDisk path = _
          rw [hdisk, Disk.rename_target]
          exact hcontent False.elim
      | gathered ls =>
          rw [hstage] at hother
          exact .inr (.inl (congrArg Progress.gathered hother))
      | opened ls fd' => exact .inr (.inr (hgone htmp))
      | written ls => exact .inr (.inr (hgone htmp))
      | finished ok =>
          rw [hstage] at hother
          exact hother.elim
  | finished ok =>
      rw [hprogress] at hw
      exact hw.elim

/-! ## Counting the moves -/

/-- How many moves a command has made to come so far. -/
def Progress.steps : Progress → Nat
  | .idle => 0
  | .gathered _ => 1
  | .opened _ _ => 2
  | .written _ => 3
  | .finished _ => 4

/-- A command makes four moves, and then no more. -/
theorem BanCommand.steps_move (c : BanCommand X) (p : Progress) (s : Store) :
    (c.move path p s).1.steps = min 4 (p.steps + 1) := by
  cases p with
  | written lines =>
      cases hrename : s.rename (withExtension path "tmp") path with
      | none => rw [c.move_written_none hrename]; rfl
      | some s' => rw [c.move_written hrename]; rfl
  | _ => rfl

variable (path cs) in
/-- After a schedule a command has made as many moves as it has turns there, up to four. -/
theorem Race.steps_after (r : Race) (schedule : List Who) (w : Who) :
    ((r.after path cs schedule).progress w).steps =
      min 4 ((r.progress w).steps + schedule.count w) := by
  induction schedule generalizing r with
  | nil =>
      show (r.progress w).steps = _
      cases r.progress w <;> rfl
  | cons v schedule ih =>
      rw [Race.after_cons, ih]
      by_cases hv : v = w
      · subst hv
        have hself : (r.step path cs v).progress v = _ := Function.update_self _ _ _
        rw [hself, BanCommand.steps_move, List.count_cons_self]
        omega
      · have hother : (r.step path cs v).progress w = r.progress w :=
          Function.update_of_ne (Ne.symm hv) _ _
        rw [hother, List.count_cons_of_ne hv]

/-- Nobody returns, or one of them is the first to. -/
theorem Unfinished.after (htmp : withExtension path "tmp" ≠ path) {text : Str} {r : Race}
    (h : Unfinished path cs text r) (schedule : List Who) :
    Unfinished path cs text (r.after path cs schedule) ∨
      ∃ before w rest, schedule = before ++ w :: rest ∧
        (∃ lines, (r.after path cs before).progress w = .written lines) ∧
        ((r.after path cs before).step path cs w).progress w = .finished true ∧
        ((r.after path cs before).step path cs w).progress w.other =
          (r.after path cs before).progress w.other ∧
        Returned path (cs w) (cs w.other) text ((r.after path cs before).progress w.other)
          ((r.after path cs before).step path cs w).store := by
  induction schedule generalizing r with
  | nil => exact .inl h
  | cons v schedule ih =>
      rcases h.step htmp v with hnext | hreturned
      · rcases ih hnext with hend | ⟨before, w, rest, rfl, hfirst⟩
        · exact .inl hend
        · exact .inr ⟨v :: before, w, rest, rfl, hfirst⟩
      · exact .inr ⟨[], v, schedule, rfl, hreturned⟩

/-! ## Which interleavings lose nothing -/

/-- The fourth move of a command comes before the fourth of the other one. -/
def RenamesFirst (schedule : List Who) (w : Who) : Prop :=
  ∃ before rest, schedule = before ++ w :: rest ∧ before.count w = 3 ∧ before.count w.other < 4

/-- One command makes all its moves before the other one reads. -/
def OneByOne (schedule : List Who) : Prop :=
  ∃ w rest, schedule = List.replicate 4 w ++ rest

/-- Only one of the commands renames first in a schedule. -/
theorem RenamesFirst.unique {schedule : List Who} {w v : Who} (h : RenamesFirst schedule w)
    (h' : RenamesFirst schedule v) : v = w := by
  obtain ⟨before, rest, rfl, hw, hother⟩ := h
  obtain ⟨before', rest', heq, hw', hother'⟩ := h'
  rcases Who.eq_or_eq_other w v with rfl | rfl
  · rfl
  rw [Who.other_other] at hother'
  rcases List.append_eq_append_iff.mp heq with ⟨middle, hbefore, hrest⟩ | ⟨middle, hbefore, hrest⟩
  · cases middle with
    | nil => exact (List.cons.inj hrest).1.symm
    | cons d middle =>
        obtain rfl := (List.cons.inj hrest).1
        rw [hbefore, List.count_append, List.count_cons_self] at hother'
        omega
  · cases middle with
    | nil => exact (List.cons.inj hrest).1
    | cons d middle =>
        obtain rfl := (List.cons.inj hrest).1
        rw [hbefore, List.count_append, List.count_cons_self] at hother
        omega

/-- A file holds at most one text, since the bytes of a text determine it. -/
theorem Holds.unique {d : Disk} {text text' : Str} (h : Holds d path text)
    (h' : Holds d path text') : text = text' := by
  have hfile := Option.some.inj (h.symm.trans h')
  exact Str.utf8_injective (congrArg DiskFile.bytes hfile)

variable {s : Store} {text : Str} {schedule : List Who}

/-- After one command alone, the other one edits what it wrote. -/
theorem holds_of_oneByOne {w : Who} {rest : List Who} (hs : Holds s.toDisk path text)
    (hdone : ((Race.start s).after path cs (List.replicate 4 w ++ rest)).progress w.other =
      .finished true) :
    Holds ((Race.start s).after path cs (List.replicate 4 w ++ rest)).store.toDisk path
      (unlines ((cs w.other).edited (unlines ((cs w).edited text)))) := by
  have hready : (Race.start s).progress w = .idle := rfl
  obtain ⟨s', hafter, hdisk⟩ := after_four path cs hready
  have hsplit : (Race.start s).after path cs (List.replicate 4 w ++ rest) =
      ((Race.start s).after path cs (List.replicate 4 w)).after path cs rest :=
    List.foldl_append
  rw [hsplit, hafter] at hdone ⊢
  have hstart : Holds (Race.start s).store.toDisk path text := hs
  have hlist : Holds s'.toDisk path (unlines ((cs w).edited text)) := by
    show s'.toDisk path = _
    rw [hdisk, Disk.rename_target, Store.toDisk_put, Function.update_self, editedList,
      readLines_of_holds hstart]
    rfl
  generalize hr : Race.mk s' (Function.update (Race.start s).progress w (.finished true)) = r
    at hdone ⊢
  have hfinished : r.progress w = .finished true := by
    rw [← hr]
    exact Function.update_self _ _ _
  have hidle : r.progress w.other = .idle := by
    rw [← hr]
    exact Function.update_of_ne (Who.other_ne w) _ _
  have halone : (cs w.other).Alone path (unlines ((cs w).edited text)) (r.progress w.other)
      r.store := by
    rw [hidle, ← hr]
    exact hlist
  have hend := Race.after_of_finished cs (fun _ _ => BanCommand.Alone.move) hfinished
    halone rest
  rw [hdone] at hend
  exact hend

/-- Two commands that both succeed: the one that renames first has done so before the other one
creates its file, and the other one has read the list after that or before. -/
theorem holds_of_both (htmp : withExtension path "tmp" ≠ path) (hs : Holds s.toDisk path text)
    (hdone : ∀ w, ((Race.start s).after path cs schedule).progress w = .finished true) :
    ∃ w, RenamesFirst schedule w ∧
      ((OneByOne schedule ∧ Holds ((Race.start s).after path cs schedule).store.toDisk path
          (unlines ((cs w.other).edited (unlines ((cs w).edited text))))) ∨
        Holds ((Race.start s).after path cs schedule).store.toDisk path
          (unlines ((cs w.other).edited text))) := by
  have hstart : Unfinished path cs text (Race.start s) := ⟨hs, fun _ => trivial⟩
  rcases hstart.after htmp schedule with hend | ⟨before, w, rest, rfl, ⟨lines, hw⟩, hfinished,
    hother, hreturned⟩
  · have hfirst := hend.early .first
    rw [hdone .first] at hfirst
    exact hfirst.elim
  have hsplit : (Race.start s).after path cs (before ++ w :: rest) =
      (((Race.start s).after path cs before).step path cs w).after path cs rest :=
    List.foldl_append
  have hcount : before.count w = 3 := by
    have hsteps := Race.steps_after path cs (Race.start s) before w
    rw [hw] at hsteps
    have hmin : 3 = min 4 (0 + before.count w) := hsteps
    omega
  have hcount' := Race.steps_after path cs (Race.start s) before w.other
  rw [hsplit] at hdone ⊢
  rw [← hother] at hreturned
  generalize ((Race.start s).after path cs before).step path cs w = r at *
  have hend := hdone w.other
  rcases hreturned with ⟨hidle, hlist⟩ | hgathered | horphaned
  · have hnone : before.count w.other = 0 := by
      rw [← hother, hidle] at hcount'
      have hmin : 0 = min 4 (0 + before.count w.other) := hcount'
      omega
    have hall : ∀ v ∈ before, v = w := by
      intro v hv
      refine (Who.eq_or_eq_other w v).resolve_right ?_
      rintro rfl
      exact List.count_eq_zero.mp hnone hv
    have hlength : before.length = 3 :=
      (List.count_eq_length.mpr fun v hv => (hall v hv).symm).symm.trans hcount
    have hbefore : before = List.replicate 3 w := List.eq_replicate_iff.mpr ⟨hlength, hall⟩
    refine ⟨w, ⟨before, rest, rfl, hcount, by omega⟩, .inl ⟨⟨w, rest, by rw [hbefore]; rfl⟩, ?_⟩⟩
    have halone : (cs w.other).Alone path (unlines ((cs w).edited text)) (r.progress w.other)
        r.store := by
      rw [hidle]
      exact hlist
    have hholds := Race.after_of_finished cs (fun _ _ => BanCommand.Alone.move) hfinished
      halone rest
    rw [hend] at hholds
    exact hholds
  · have hone : before.count w.other = 1 := by
      rw [← hother, hgathered] at hcount'
      have hmin : 1 = min 4 (0 + before.count w.other) := hcount'
      omega
    refine ⟨w, ⟨before, rest, rfl, hcount, by omega⟩, .inr ?_⟩
    have halone : (cs w.other).Alone path text (r.progress w.other) r.store := by
      rw [hgathered]
      rfl
    have hholds := Race.after_of_finished cs (fun _ _ => BanCommand.Alone.move) hfinished
      halone rest
    rw [hend] at hholds
    exact hholds
  · have hfailed := Race.after_of_finished cs (fun _ _ => Orphaned.move) hfinished
      horphaned rest
    rw [hend] at hfailed
    cases hfailed

variable (path cs) in
/-- The list has a line for each of the two targets. -/
def BothBanned (r : Race) : Prop :=
  ∃ text, Holds r.store.toDisk path text ∧ ∀ w, Lists X text (cs w).net

variable (path cs) in
/-- The commands run one by one, or the list had a line for the first one's target already. -/
def NothingLost (text : Str) (schedule : List Who) : Prop :=
  OneByOne schedule ∨ (withExtension path "tmp" ≠ path ∧
    ∃ w, RenamesFirst schedule w ∧ Lists X text (cs w).net)

/-- A list edited by one of them has lines for both exactly if the other's was there. -/
theorem bothBanned_iff (hne : (cs .first).net ≠ (cs .second).net) {r : Race} {w : Who}
    {base : Str} (h : Holds r.store.toDisk path (unlines ((cs w.other).edited base))) :
    BothBanned path cs r ↔ Lists X base (cs w).net := by
  have hnets : (cs w).net ≠ (cs w.other).net := by
    cases w
    · exact hne
    · exact hne.symm
  have hown : Lists X (unlines ((cs w.other).edited base)) (cs w.other).net :=
    (lists_edited_iff _ _ _).mpr (.inl rfl)
  have hother : Lists X (unlines ((cs w.other).edited base)) (cs w).net ↔
      Lists X base (cs w).net := by
    rw [lists_edited_iff]
    exact or_iff_right hnets
  constructor
  · rintro ⟨text, htext, hall⟩
    obtain rfl := htext.unique h
    exact hother.mp (hall w)
  · intro hbase
    refine ⟨_, h, fun v => ?_⟩
    rcases Who.eq_or_eq_other w v with rfl | rfl
    · exact hother.mpr hbase
    · exact hown

/-- **When two bans at once lose none**, in any interleaving in which both succeed: where one
command makes all its moves before the other one reads. Where they overlap, the line of the command
that renames first is lost, unless the list had one for its target before. The moves of one command
alone are `ban`. -/
theorem no_ban_lost_iff (hne : (cs .first).net ≠ (cs .second).net)
    (hs : Holds s.toDisk path text)
    (hdone : ∀ w, ((Race.start s).after path cs schedule).progress w = .finished true) :
    (NothingLost path cs text schedule →
        BothBanned path cs ((Race.start s).after path cs schedule)) ∧
      (withExtension path "tmp" ≠ path →
        BothBanned path cs ((Race.start s).after path cs schedule) →
          NothingLost path cs text schedule) ∧
      ∀ cfg, blocklistPath cfg = .ok path → ∀ w,
        ban X cfg (cs w).target (cs w).duration (cs w).now .none s.toDisk =
          (.ok (), ((Race.start s).after path cs (List.replicate 4 w)).store.toDisk) := by
  have hself : ∀ w, Lists X (unlines ((cs w).edited text)) (cs w).net :=
    fun w => (lists_edited_iff _ _ _).mpr (.inl rfl)
  have hidle : ∀ w, (Race.start s).progress w = (.idle : Progress) := fun _ => rfl
  refine ⟨?_, ?_, fun cfg hpath w => alone_eq_ban hpath (hidle w)⟩
  · rintro (⟨w, rest, rfl⟩ | ⟨htmp, w, hfirst, hlists⟩)
    · have hholds := holds_of_oneByOne hs (hdone w.other)
      exact (bothBanned_iff hne hholds).mpr (hself w)
    · obtain ⟨v, hfirst', ⟨-, hholds⟩ | hholds⟩ := holds_of_both htmp hs hdone
      · exact (bothBanned_iff hne hholds).mpr (hself v)
      · obtain rfl := hfirst'.unique hfirst
        exact (bothBanned_iff hne hholds).mpr hlists
  · intro htmp hboth
    obtain ⟨w, hfirst, ⟨honeByOne, -⟩ | hholds⟩ := holds_of_both htmp hs hdone
    · exact .inl honeByOne
    · exact .inr ⟨htmp, w, hfirst, (bothBanned_iff hne hholds).mp hboth⟩

section runs

open Reputation

/-- The address 203.0.113.7, which is to be banned too. -/
def otherBanned : IpNet := .v4 0xCB007107 32

/-- A ban without an end, given by a plain build. -/
def permanentBan (target : Str) (net : IpNet) (hparses : parseTarget timedBuild target = .ok net)
    (hword : (netText timedBuild net).all (fun c => !Str.isWhitespace c && c != '#') = true)
    (hreads : parseNetOrIp timedBuild (netText timedBuild net) = some net) :
    BanCommand timedBuild where
  target := target
  duration := none
  now := 1000
  net := net
  secs := none
  parses := hparses
  lasts := rfl
  prints := by
    refine ⟨fun c hc => ?_, hreads⟩
    have hvisible := List.all_eq_true.mp hword c hc
    simpa using hvisible

/-- Two permanent bans, of two addresses. -/
def twoBans : Who → BanCommand timedBuild
  | .first => permanentBan "198.51.100.9" banned (by decide +kernel) (by decide +kernel)
      (by decide +kernel)
  | .second => permanentBan "203.0.113.7" otherBanned (by decide +kernel) (by decide +kernel)
      (by decide +kernel)

/-- A directory that holds an empty list and nothing else. -/
def emptyList : Store where
  names p := if p = ("/etc/bans" : Str) then some 0 else none
  files _ := []
  fresh := 1
  names_lt p i h := by
    by_cases hp : p = ("/etc/bans" : Str)
    · rw [if_pos hp] at h
      obtain rfl := Option.some.inj h
      exact Nat.zero_lt_one
    · rw [if_neg hp] at h
      cases h
  names_inj p q i hp hq := by
    by_cases hpath : p = ("/etc/bans" : Str)
    · by_cases hpath' : q = ("/etc/bans" : Str)
      · rw [hpath, hpath']
      · rw [if_neg hpath'] at hq
        cases hq
    · rw [if_neg hpath] at hp
      cases hp

/-- If one command runs after the other, both bans are in the list. -/
theorem one_by_one_kept :
    BothBanned "/etc/bans" twoBans ((Race.start emptyList).after "/etc/bans" twoBans
      [.first, .first, .first, .first, .second, .second, .second, .second]) := by
  have hdone : ∀ w, ((Race.start emptyList).after "/etc/bans" twoBans
      [.first, .first, .first, .first, .second, .second, .second, .second]).progress w =
        .finished true := by
    intro w
    cases w <;> decide +kernel
  have hempty : Holds emptyList.toDisk "/etc/bans" [] := rfl
  exact (no_ban_lost_iff (by decide +kernel) hempty hdone).1 (.inl ⟨.first, _, rfl⟩)

/-- Both commands read the empty list before one of them writes. Both succeed, and one ban is not
in the list. -/
theorem both_read_first :
    (∀ w, ((Race.start emptyList).after "/etc/bans" twoBans
      [.first, .second, .first, .first, .first, .second, .second, .second]).progress w =
        .finished true) ∧
      ¬ BothBanned "/etc/bans" twoBans ((Race.start emptyList).after "/etc/bans" twoBans
        [.first, .second, .first, .first, .first, .second, .second, .second]) := by
  constructor
  · intro w
    cases w <;> decide +kernel
  · rintro ⟨text, htext, hall⟩
    have hend : ((Race.start emptyList).after "/etc/bans" twoBans
        [.first, .second, .first, .first, .first, .second, .second, .second]).store.toDisk
          "/etc/bans" = some ⟨Str.utf8 ("203.0.113.7/32\n" : Str), true⟩ := by
      decide +kernel
    obtain rfl := htext.unique hend
    have hnone : ((Str.lines "203.0.113.7/32\n").all fun line =>
        lineNet timedBuild line != some banned) = true := by
      decide +kernel
    obtain ⟨line, hline, hnet⟩ := hall .first
    have hother := List.all_eq_true.mp hnone line hline
    rw [hnet] at hother
    cases hother

end runs

end BuduWaf.Cli
