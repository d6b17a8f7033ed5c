import BuduWaf.Cli.Ban
import BuduWaf.Expiry
import BuduWaf.Lib.Decimal
import BuduWaf.Lib.Split

/-!
# `budu ban` and `budu unban`: what the proxy reads then

The commands find the target's lines with a line parser of their own. Both parsers cut a line at
its comment and take its first word, so they agree on the address of every line the proxy reads
(`lineNet_of_parseLine`), and a list that was filtered by one parser is the filtered list for the
other.

* **`unban`**: the command, as far as it touches files.
* **`filterMap_without`**: removing the target's lines removes its entries.
* **`edits_read_back`**: the list after `ban`, and after an `unban` of the same target.
* **`malformed_line_dropped`**: lines of the target go even where the proxy cannot read them.

Lines are compared up to carriage returns at their ends, which the command may drop and which
neither parser looks at. Filtering by the command's parser commutes with reading by the proxy's
(`filterMap_without`), so that the statement about entries follows from one about lines. The line
that a `ban` writes is read back by both parsers, which takes that the text of a network is read
back as the network (`PrintsBack`); this is documented behaviour of `ipnet`.
-/

namespace BuduWaf.Cli

open Reputation

variable (X : Crates)

/-! ## The other command -/

/-- `budu unban`, without what it prints and without the reload: nothing is written where nothing
is removed.
Source: `budu/src/ban.rs` `unban` -/
def unban (cfg : Config) (target : Str) (faults : WriteFaults) (d : Disk) :
    Except Str Unit × Disk :=
  match parseTarget X target with
  | .error e => (.error e, d)
  | .ok net =>
    match blocklistPath cfg with
    | .error e => (.error e, d)
    | .ok path =>
      let before := readLines d path
      let after := without X before net
      if before.length - after.length = 0 then (.ok (), d) else writeLines faults d path after

/-- The text of a network is one word, and it is read back as the network. -/
structure PrintsBack (net : IpNet) : Prop where
  /-- There is no white space in it and no comment. -/
  word : ∀ c ∈ netText X net, Str.isWhitespace c = false ∧ c ≠ '#'
  /-- It names the network. -/
  reads : parseNetOrIp X (netText X net) = some net

/-- The file may be read and holds this text. -/
def Holds (d : Disk) (path text : Str) : Prop := d path = some ⟨Str.utf8 text, true⟩

/-- The expiry of a ban that was asked for some seconds.
Source: `budu/src/ban.rs` `ban` (`let until`) -/
def expiry (now : Nat) (secs : Option Nat) : Option Nat :=
  secs.map fun s => min (now + s) (2 ^ 64 - 1)

/-- The line of a ban with some expiry.
Source: `budu/src/ban.rs` `ban` (`let entry`) -/
def entryText (net : IpNet) (untilSecs : Option Nat) : Str :=
  netText X net ++ untilSecs.elim [] fun u => (" until=" : Str) ++ Str.ofNat u

/-! ## Two line parsers -/

variable {X}

/-- The words of a line are the same with its carriage returns. -/
theorem lineTokens_chomp (line : Str) : lineTokens (Str.chomp line) = lineTokens line := by
  unfold lineTokens
  rw [Str.splitOnce_elim_fst, Str.splitOnce_elim_fst, Str.trim_takeWhile_chomp rfl]

/-- The command looks at the first word the proxy reads. -/
theorem lineNet_eq (line : Str) : lineNet X line = (lineTokens line).head?.bind (netOf X) := by
  unfold lineNet lineTokens
  rw [Str.splitOnce_elim_fst]
  rfl

/-- What the proxy makes of a line in terms of its words: a network, and the expiry behind it. -/
theorem parseLine_eq (now : Nat) (line : Str) :
    parseLine X now line =
      (lineTokens line).head?.bind fun first => (netOf X first).bind fun net =>
        (lineUntil X now (lineTokens line).tail).map (BlockEntry.mk net) := by
  unfold parseLine lineTokens
  dsimp only
  split
  · rename_i htokens
    rw [htokens]
    rfl
  · rename_i first rest htokens
    rw [htokens]
    rfl

/-- A line is read the same without its end. -/
theorem parseLine_chomp (now : Nat) (line : Str) :
    parseLine X now (Str.chomp line) = parseLine X now line := by
  rw [parseLine_eq, parseLine_eq, lineTokens_chomp]

/-- **The parsers agree**: an entry the proxy reads has the network the command sees. -/
theorem lineNet_of_parseLine {now : Nat} {line : Str} {e : BlockEntry}
    (h : parseLine X now line = some e) : lineNet X line = some e.net := by
  rw [parseLine_eq] at h
  obtain ⟨first, hfirst, h⟩ := Option.bind_eq_some_iff.mp h
  obtain ⟨net, hnet, h⟩ := Option.bind_eq_some_iff.mp h
  obtain ⟨untilSecs, -, rfl⟩ := Option.map_eq_some_iff.mp h
  rw [lineNet_eq, hfirst]
  exact hnet

/-! ## Lists of lines -/

/-- What the proxy reads from a text depends on its lines only, and not on carriage returns at their
ends. -/
theorem parseBlocklist_eq_of_chomp {now : Nat} {text : Str} {lines : List Str}
    (h : (Str.lines text).map Str.chomp = lines.map Str.chomp) :
    parseBlocklist X now text = lines.filterMap (parseLine X now) := by
  have hchomp : ∀ ls : List Str,
      (ls.map Str.chomp).filterMap (parseLine X now) = ls.filterMap (parseLine X now) := by
    intro ls
    rw [List.filterMap_map]
    exact List.filterMap_congr fun line _ => parseLine_chomp now line
  unfold parseBlocklist
  rw [← hchomp, h, hchomp]

/-- Removing the target's lines removes its entries. -/
theorem filterMap_without (now : Nat) (net : IpNet) (lines : List Str) :
    (without X lines net).filterMap (parseLine X now) =
      (lines.filterMap (parseLine X now)).filter fun e => e.net ≠ net := by
  unfold without
  rw [List.filterMap_filter, List.filter_filterMap]
  refine List.filterMap_congr fun line _ => ?_
  cases hparse : parseLine X now line with
  | none => simp
  | some e =>
      rw [lineNet_of_parseLine hparse, Option.filter_some]
      by_cases hnet : e.net = net
      · simp [hnet]
      · simp [hnet]

/-- The target's lines are found with and without carriage returns. -/
theorem map_chomp_without (net : IpNet) (lines : List Str) :
    (without X lines net).map Str.chomp = without X (lines.map Str.chomp) net := by
  unfold without
  rw [List.filter_map]
  have hcomp : ((fun l => lineNet X l != some net) ∘ Str.chomp) =
      fun l => lineNet X l != some net := by
    funext line
    exact congrArg (· != some net) (lineNet_chomp line)
  rw [hcomp]

/-- What is written line by line is read back, up to carriage returns. -/
theorem map_chomp_lines_unlines {lines : List Str} (h : ∀ line ∈ lines, '\n' ∉ line) :
    (Str.lines (unlines lines)).map Str.chomp = lines.map Str.chomp := by
  have hbytes := byteLines_unlines h []
  have hnil : Str.byteLines [] = [] := rfl
  rw [List.append_nil, hnil, List.append_nil, Str.byteLines_utf8] at hbytes
  have hinj : Function.Injective (List.map Str.utf8) :=
    List.map_injective_iff.mpr Str.utf8_injective
  apply hinj
  rw [List.map_map, List.map_map]
  exact hbytes

/-- The lines of a text that stay have no line feed. -/
theorem lf_notMem_of_mem_without {text line : Str} {net : IpNet}
    (h : line ∈ without X (Str.lines text) net) : '\n' ∉ line :=
  Str.lf_notMem_of_mem_lines (List.mem_filter.mp h).1

/-- An edited list is read back as its lines. -/
theorem map_chomp_lines_edited {entry : Str} (hentry : '\n' ∉ entry) (net : IpNet) (text : Str) :
    (Str.lines (unlines (without X (Str.lines text) net ++ [entry]))).map Str.chomp =
      (without X (Str.lines text) net ++ [entry]).map Str.chomp := by
  apply map_chomp_lines_unlines
  intro line hline
  rcases List.mem_append.mp hline with hline | hline
  · exact lf_notMem_of_mem_without hline
  · obtain rfl := List.mem_singleton.mp hline
    exact hentry

/-! ## The line of a ban -/

/-- A ban with a readable duration has a line. -/
theorem banEntry_eq {duration : Option Str} {secs : Option Nat}
    (hfor : duration.mapM (parseDuration X) = .ok secs) (net : IpNet) (now : Nat) :
    banEntry X net duration now = .ok (entryText X net (expiry now secs)) := by
  cases duration with
  | none =>
      obtain rfl : none = secs := Except.ok.inj hfor
      rw [entryText, expiry, Option.map_none, Option.elim_none, List.append_nil]
      rfl
  | some d =>
      cases hd : parseDuration X d with
      | error e =>
          have herror : Option.mapM (parseDuration X) (some d) = .error e := by
            show (some <$> parseDuration X d) = _
            rw [hd]
            rfl
          rw [herror] at hfor
          cases hfor
      | ok s =>
          have hok : Option.mapM (parseDuration X) (some d) = .ok (some s) := by
            show (some <$> parseDuration X d) = _
            rw [hd]
            rfl
          obtain rfl := Except.ok.inj (hok.symm.trans hfor)
          unfold banEntry
          dsimp only
          rw [hd]
          exact congrArg Except.ok (List.append_assoc _ _ _)

/-- The line of a ban has two words at most. -/
theorem lineTokens_entry {net : IpNet} (hprints : PrintsBack X net) (untilSecs : Option Nat) :
    lineTokens (entryText X net untilSecs) =
      netText X net :: (untilSecs.map fun u => ("until=" : Str) ++ Str.ofNat u).toList := by
  have hne : netText X net ≠ [] := by
    cases net <;> exact List.append_ne_nil_of_right_ne_nil _ (List.cons_ne_nil _ _)
  have hspace : ∀ c ∈ netText X net, Str.isWhitespace c = false :=
    fun c hc => (hprints.word c hc).1
  have hcomment : ∀ c ∈ netText X net, (c != '#') = true :=
    fun c hc => bne_iff_ne.mpr (hprints.word c hc).2
  unfold lineTokens entryText
  rw [Str.splitOnce_elim_fst]
  cases untilSecs with
  | none =>
      rw [Option.elim_none, List.append_nil, List.takeWhile_eq_self_iff.mpr hcomment,
        Str.trim_of_forall hspace, Str.splitWhitespace_word hne hspace]
      rfl
  | some u =>
      -- the second word is made of visible characters too
      have hsecond : ∀ c ∈ ("until=" : Str) ++ Str.ofNat u,
          Str.isWhitespace c = false ∧ c ≠ '#' := by
        intro c hc
        rcases List.mem_append.mp hc with hc | hc
        · have hall : (("until=" : Str).all fun c => !Str.isWhitespace c && c != '#') = true := by
            decide
          have hvisible := List.all_eq_true.mp hall c hc
          simpa using hvisible
        · have hdigit := Str.isDigit_of_mem_ofNat hc
          refine ⟨Str.isWhitespace_of_isDigit hdigit, ?_⟩
          rintro rfl
          cases hdigit
      have hne' : ("until=" : Str) ++ Str.ofNat u ≠ [] :=
        List.append_ne_nil_of_left_ne_nil (by decide) _
      have hline : netText X net ++ ((" until=" : Str) ++ Str.ofNat u) =
          netText X net ++ ' ' :: (("until=" : Str) ++ Str.ofNat u) := rfl
      have hkept : ∀ c ∈ netText X net ++ ' ' :: (("until=" : Str) ++ Str.ofNat u),
          (c != '#') = true := by
        intro c hc
        rcases List.mem_append.mp hc with hc | hc
        · exact hcomment c hc
        · rcases List.mem_cons.mp hc with rfl | hc
          · decide
          · exact bne_iff_ne.mpr (hsecond c hc).2
      have htrim : Str.trim (netText X net ++ ' ' :: (("until=" : Str) ++ Str.ofNat u)) =
          netText X net ++ ' ' :: (("until=" : Str) ++ Str.ofNat u) := by
        apply Str.trim_of_ends
        · intro c hc
          rw [List.head?_append_of_ne_nil _ hne] at hc
          exact hspace c (List.mem_of_mem_head? hc)
        · intro c hc
          rw [List.getLast?_append_cons, List.getLast?_cons_of_ne_nil hne'] at hc
          exact (hsecond c (List.mem_of_getLast? hc)).1
      rw [Option.elim_some, hline, List.takeWhile_eq_self_iff.mpr hkept, htrim,
        Str.splitWhitespace_cons hne hspace rfl,
        Str.splitWhitespace_word hne' fun c hc => (hsecond c hc).1]
      rfl

/-- The proxy reads the line of a ban as the ban, as long as it lasts. -/
theorem parseLine_entry (hfail2ban : X.features.fail2ban = true) {net : IpNet}
    (hprints : PrintsBack X net) {now t : Nat} {secs : Option Nat}
    (hlasts : ∀ u ∈ expiry now secs, t < u) :
    parseLine X t (entryText X net (expiry now secs)) = some ⟨net, expiry now secs⟩ := by
  have hvalues : untilValues ((expiry now secs).map fun u =>
      ("until=" : Str) ++ Str.ofNat u).toList = ((expiry now secs).map Str.ofNat).toList := by
    cases expiry now secs with
    | none => rfl
    | some u => exact List.filterMap_cons_some (Str.stripPrefix_append _ _)
  have hnumber : ∀ u ∈ expiry now secs, Str.parseUInt 64 (Str.ofNat u) = some u := by
    intro u hu
    obtain ⟨s, -, rfl⟩ := Option.map_eq_some_iff.mp hu
    rw [Str.parseUInt_ofNat, if_pos]
    omega
  have hread : lineUntil X t ((expiry now secs).map fun u =>
      ("until=" : Str) ++ Str.ofNat u).toList = some (expiry now secs) := by
    have hall : ∀ v ∈ untilValues ((expiry now secs).map fun u =>
        ("until=" : Str) ++ Str.ofNat u).toList, (Str.parseUInt 64 v).isSome = true := by
      intro v hv
      rw [hvalues, Option.mem_toList] at hv
      obtain ⟨u, hu, rfl⟩ := Option.map_eq_some_iff.mp hv
      rw [hnumber u hu]
      rfl
    rw [lineUntil_eq hfail2ban hall, hvalues]
    cases huntil : expiry now secs with
    | none => rfl
    | some u =>
        rw [Option.map_some, Option.toList_some, List.getLast?_singleton, Option.bind_some,
          hnumber u huntil, Option.filter_some, if_pos]
        simpa using hlasts u huntil
  rw [parseLine_eq, lineTokens_entry hprints]
  have hnet : netOf X (netText X net) = some net := hprints.reads
  rw [List.head?_cons, Option.bind_some, hnet, Option.bind_some, List.tail_cons, hread]
  rfl

/-! ## The commands on a list -/

/-- The lines of a file that holds a text are the lines of the text. -/
theorem readLines_of_holds {d : Disk} {path text : Str} (h : Holds d path text) :
    readLines d path = Str.lines text := by
  unfold readLines
  have hread := Disk.readToString_some h
  dsimp only at hread
  rw [Str.fromUtf8Lossy_utf8, if_pos rfl, if_pos rfl] at hread
  rw [hread]

/-- Where nothing fails, writing lines succeeds and the list holds them. -/
theorem writeLines_none (d : Disk) (path : Str) (lines : List Str) :
    ∃ d', writeLines .none d path lines = (.ok (), d') ∧
      d'.bytesAt path = Str.utf8 (unlines lines) :=
  ⟨_, rfl, Disk.bytesAt_rename_put d _ path _⟩

/-- A command that removes something writes what is left. -/
theorem unban_of_valid {cfg : Config} {target path text : Str} {net : IpNet}
    (htarget : parseTarget X target = .ok net) (hpath : blocklistPath cfg = .ok path) {d : Disk}
    (hd : Holds d path text) (hfound : ∃ line ∈ Str.lines text, lineNet X line = some net) :
    unban X cfg target .none d = writeLines .none d path (without X (Str.lines text) net) := by
  have hremoved : (without X (Str.lines text) net).length < (Str.lines text).length := by
    obtain ⟨line, hmem, hnet⟩ := hfound
    apply List.length_filter_lt_length_iff_exists.mpr
    exact ⟨line, hmem, by simp [hnet]⟩
  have hne : (Str.lines text).length - (without X (Str.lines text) net).length ≠ 0 := by
    omega
  unfold unban
  rw [htarget]
  simp only
  rw [hpath]
  simp only
  rw [readLines_of_holds hd, if_neg hne]

/-- The command finds the line of a ban again. -/
theorem lineNet_entry {net : IpNet} (hprints : PrintsBack X net) (untilSecs : Option Nat) :
    lineNet X (entryText X net untilSecs) = some net := by
  rw [lineNet_eq, lineTokens_entry hprints]
  exact hprints.reads

/-- The line of a ban is a single line: the text of its network has no line feed. -/
theorem lf_notMem_entry {net : IpNet} (hprints : PrintsBack X net) (untilSecs : Option Nat) :
    '\n' ∉ entryText X net untilSecs := by
  intro hlf
  rcases List.mem_append.mp hlf with hlf | hlf
  · have hspace := (hprints.word _ hlf).1
    cases hspace
  · cases untilSecs with
    | none => cases hlf
    | some u =>
        rcases List.mem_append.mp hlf with hlf | hlf
        · exact absurd hlf (by decide)
        · have hdigit := Str.isDigit_of_mem_ofNat hlf
          cases hdigit

/-- Removing the target's lines once more, with a line of the target behind them. -/
theorem without_edited {net : IpNet} {entry : Str} (hentry : lineNet X entry = some net)
    (lines : List Str) : without X (without X lines net ++ [entry]) net = without X lines net := by
  unfold without
  rw [List.filter_append, List.filter_filter]
  have hdropped : [entry].filter (fun l => lineNet X l != some net) = [] := by
    simp [hentry]
  rw [hdropped, List.append_nil]
  simp

/-- **What the proxy reads after the commands.** A list that is a text, banned and later unbanned:
after the ban it reads as before without the target's entries and with the ban behind them, after
the unban without them. Every line whose first word does not name the target stays, in its
order. -/
theorem edits_read_back (hfail2ban : X.features.fail2ban = true) {cfg : Config}
    {target path text : Str} {net : IpNet} (htarget : parseTarget X target = .ok net)
    (hpath : blocklistPath cfg = .ok path) (hprints : PrintsBack X net) {duration : Option Str}
    {secs : Option Nat} (hfor : duration.mapM (parseDuration X) = .ok secs) {now t : Nat}
    (hlasts : ∀ u ∈ expiry now secs, t < u) {d : Disk} (hd : Holds d path text) :
    ∃ d' text' entry, ban X cfg target duration now .none d = (.ok (), d') ∧
      d'.bytesAt path = Str.utf8 text' ∧
      (Str.lines text').map Str.chomp =
        (without X (Str.lines text) net ++ [entry]).map Str.chomp ∧
      parseBlocklist X t text' =
        ((parseBlocklist X t text).filter fun e => e.net ≠ net) ++ [⟨net, expiry now secs⟩] ∧
      ∀ d₁, Holds d₁ path text' → ∃ d₂ text'', unban X cfg target .none d₁ = (.ok (), d₂) ∧
        d₂.bytesAt path = Str.utf8 text'' ∧
        (Str.lines text'').map Str.chomp = (without X (Str.lines text) net).map Str.chomp ∧
        ∀ t', parseBlocklist X t' text'' =
          (parseBlocklist X t' text).filter fun e => e.net ≠ net := by
  have hban := banEntry_eq hfor net now
  have hlf := lf_notMem_entry hprints (expiry now secs)
  have hnet := lineNet_entry hprints (expiry now secs)
  have hparse := parseLine_entry hfail2ban hprints hlasts
  generalize entryText X net (expiry now secs) = entry at hban hlf hnet hparse
  obtain ⟨d', hwritten, hbytes⟩ :=
    writeLines_none d path (without X (Str.lines text) net ++ [entry])
  have hlines := map_chomp_lines_edited (X := X) hlf net text
  refine ⟨d', _, entry, ?_, hbytes, hlines, ?_, ?_⟩
  · rw [ban_of_valid htarget hpath hban, editedList, readLines_of_holds hd, hwritten]
  · rw [parseBlocklist_eq_of_chomp hlines, List.filterMap_append, filterMap_without,
      List.filterMap_cons_some hparse]
    rfl
  -- The list is read again, so each of its lines has lost its carriage return by now.
  intro d₁ hd₁
  generalize unlines (without X (Str.lines text) net ++ [entry]) = text' at hlines hd₁
  obtain ⟨d₂, hwritten', hbytes'⟩ := writeLines_none d₁ path (without X (Str.lines text') net)
  have hfound : ∃ line ∈ Str.lines text', lineNet X line = some net := by
    have hmem : Str.chomp entry ∈ (Str.lines text').map Str.chomp := by
      rw [hlines]
      exact List.mem_map_of_mem (List.mem_append_right _ List.mem_cons_self)
    obtain ⟨line, hline, hchomp⟩ := List.mem_map.mp hmem
    refine ⟨line, hline, ?_⟩
    rw [← lineNet_chomp, hchomp, lineNet_chomp, hnet]
  have hlines' : (Str.lines (unlines (without X (Str.lines text') net))).map Str.chomp =
      (without X (Str.lines text) net).map Str.chomp :=
    calc (Str.lines (unlines (without X (Str.lines text') net))).map Str.chomp
        = (without X (Str.lines text') net).map Str.chomp :=
          map_chomp_lines_unlines fun line hline => lf_notMem_of_mem_without hline
      _ = without X ((without X (Str.lines text) net ++ [entry]).map Str.chomp) net := by
          rw [map_chomp_without, hlines]
      _ = (without X (Str.lines text) net).map Str.chomp := by
          rw [← map_chomp_without, without_edited hnet]
  refine ⟨d₂, _, ?_, hbytes', hlines', ?_⟩
  · rw [unban_of_valid htarget hpath hd₁ hfound, hwritten']
  · intro t'
    rw [parseBlocklist_eq_of_chomp hlines', filterMap_without]
    rfl

section runs

/-- Banning an address for an hour in a list of two lines, and taking it back. -/
theorem banned_hour_taken_back :
    ∃ d' text' entry, ban timedBuild listConfig "198.51.100.9" (some "1h") 1000 .none
        (listDisk (Str.utf8 "203.0.113.7 # a scanner\r\n198.51.100.9\n")) = (.ok (), d') ∧
      d'.bytesAt "/etc/bans" = Str.utf8 text' ∧
      (Str.lines text').map Str.chomp = (without timedBuild
          (Str.lines "203.0.113.7 # a scanner\r\n198.51.100.9\n") banned ++ [entry]).map
            Str.chomp ∧
      parseBlocklist timedBuild 1000 text' = ((parseBlocklist timedBuild 1000
          "203.0.113.7 # a scanner\r\n198.51.100.9\n").filter fun e => e.net ≠ banned) ++
        [⟨banned, some 4600⟩] ∧
      ∀ d₁, Holds d₁ "/etc/bans" text' → ∃ d₂ text'',
        unban timedBuild listConfig "198.51.100.9" .none d₁ = (.ok (), d₂) ∧
        d₂.bytesAt "/etc/bans" = Str.utf8 text'' ∧
        (Str.lines text'').map Str.chomp = (without timedBuild
          (Str.lines "203.0.113.7 # a scanner\r\n198.51.100.9\n") banned).map Str.chomp ∧
        ∀ t', parseBlocklist timedBuild t' text'' = (parseBlocklist timedBuild t'
          "203.0.113.7 # a scanner\r\n198.51.100.9\n").filter fun e => e.net ≠ banned := by
  have hword : (netText timedBuild banned).all (fun c => !Str.isWhitespace c && c != '#') = true :=
    by decide +kernel
  have hprints : PrintsBack timedBuild banned := by
    refine ⟨fun c hc => ?_, by decide +kernel⟩
    have hvisible := List.all_eq_true.mp hword c hc
    simpa using hvisible
  have hfor : (some ("1h" : Str)).mapM (parseDuration timedBuild) = .ok (some 3600) := by
    decide +kernel
  have hlasts : ∀ u ∈ expiry 1000 (some 3600), 1000 < u := by
    intro u hu
    obtain rfl := Option.some.inj hu
    decide
  exact edits_read_back rfl (by decide +kernel) (by decide +kernel) hprints hfor hlasts rfl

/-- A line of the target that the proxy cannot read is not preserved. -/
theorem malformed_line_dropped :
    ∃ line ∈ readLines (listDisk (Str.utf8 "198.51.100.9 until=soon\n")) "/etc/bans",
      lineTokens line = [("198.51.100.9" : Str), ("until=soon" : Str)] ∧
        parseLine timedBuild 1000 line = none ∧
        line ∉ readLines (ban timedBuild listConfig "198.51.100.9" (some "1h") 1000 .none
          (listDisk (Str.utf8 "198.51.100.9 until=soon\n"))).2 "/etc/bans" :=
  ⟨"198.51.100.9 until=soon", by decide +kernel, by decide +kernel, by decide +kernel,
    by decide +kernel⟩

end runs

end BuduWaf.Cli
