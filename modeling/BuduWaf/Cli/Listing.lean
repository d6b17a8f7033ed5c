import BuduWaf.Cli.Edits

/-!
# `budu bans`: what is listed and what is enforced

The command shows an expiry for every entry of the list. It takes the first `until=` of a line and
shows a ban without end where that is no number; the proxy reads every `until=`, keeps the last and
skips the line where one is no number.

* **`list`**: the command, up to the width of its columns.
* **`shownUntil`**, **`lineUntil_eq_ite`**: the expiry of a line for the command and for the proxy,
  by its `until=` values.
* **`UntilsAgree`**: the values of which both make the same.
* **`list_reports_iff`**: the lists on which the command shows what the proxy enforces.

On each line both programs find the same network, so what may differ is the expiry, and that is a
function of the list of `until=` values (`shownUntil`, `lineUntil`). The condition compares these
two functions. An expiry that has passed counts as no entry on either side, which is why values that
differ may still agree.
-/

namespace BuduWaf.Cli

open Reputation

variable (X : Crates)

/-! ## The command -/

/-- What is shown of an entry's expiry: that it has none, the time until it, or that it is past. -/
inductive BanState where
  | permanent
  | expires (within instant : Nat)
  | expired (instant : Nat)
deriving DecidableEq

/-- The text of a state.
Source: `budu/src/ban.rs` `list` (`let state`) -/
def BanState.text : BanState → Str
  | permanent => "permanent"
  | expires within instant =>
    ("expires in " : Str) ++ Str.ofNat within ++ ("s (at " : Str) ++ Str.ofNat instant
      ++ (")" : Str)
  | expired instant => ("EXPIRED (at " : Str) ++ Str.ofNat instant ++ (")" : Str)

/-- What is shown of a line, if it has an entry.
Source: `budu/src/ban.rs` `list` (the loop body) -/
def listLine (now : Nat) (line : Str) : Option (IpNet × BanState) :=
  let body := Str.trim (line.takeWhile (· != '#'))
  if body.isEmpty then none
  else
    (lineNet X line).map fun net =>
      let untilSecs :=
        ((Str.splitWhitespace body).findSome? (Str.stripPrefix ("until=" : Str))).bind
          (Str.parseUInt 64)
      match untilSecs with
      | none => (net, .permanent)
      | some u => if now < u then (net, .expires (u - now) u) else (net, .expired u)

/-- A printed line: a network beside a text, or that there are no entries. -/
inductive Printed where
  | entry (net : IpNet) (state : Str)
  | noEntries (text : Str)
deriving DecidableEq

/-- What is printed of the rows that are shown: each of them, or a notice that there are none. -/
def printed (path : Str) (rows : List (IpNet × BanState)) : List Printed :=
  if rows.isEmpty then [.noEntries (("(no entries in " : Str) ++ path ++ (")" : Str))]
  else rows.map fun row => .entry row.1 row.2.text

/-- `budu bans`.
Source: `budu/src/ban.rs` `list` -/
def list (cfg : Config) (now : Nat) (d : Disk) : Except Str (List Printed) :=
  (blocklistPath cfg).map fun path =>
    printed path ((readLines d path).filterMap (listLine X now))

/-- The entry that is shown as in force, if the row shows it to be. -/
def BanState.inForce (net : IpNet) : BanState → Option BlockEntry
  | permanent => some ⟨net, none⟩
  | expires _ instant => some ⟨net, some instant⟩
  | expired _ => none

/-- On every line the command shows in force what the proxy reads. -/
def ReportsEnforced (now : Nat) (lines : List Str) : Prop :=
  ∀ line ∈ lines, ((listLine X now line).bind fun row => row.2.inForce row.1) =
    parseLine X now line

/-! ## Expiries -/

/-- All the values are read as numbers. -/
def AllNumbers (values : List Str) : Prop :=
  ∀ v ∈ values, (Str.parseUInt 64 v).isSome = true

instance (values : List Str) : Decidable (AllNumbers values) :=
  inferInstanceAs (Decidable (∀ v ∈ values, _))

/-- An expiry that lies ahead, or none at all. -/
def ahead (now : Nat) (untilSecs : Option Nat) : Option (Option Nat) :=
  (some untilSecs).filter fun u => u.all (now < ·)

/-- The expiry of the command: the first value, if it is a number. -/
def shownUntil (now : Nat) (values : List Str) : Option (Option Nat) :=
  ahead now (values.head?.bind (Str.parseUInt 64))

/-- What the command shows in force of a line, in terms of its words: a network, and the expiry
behind it. -/
theorem listLine_inForce (now : Nat) (line : Str) :
    ((listLine X now line).bind fun row => row.2.inForce row.1) =
      (lineNet X line).bind fun net =>
        (shownUntil now (untilValues (lineTokens line))).map (BlockEntry.mk net) := by
  have hwords : Str.splitWhitespace (Str.trim (line.takeWhile (· != '#'))) = lineTokens line := by
    unfold lineTokens
    rw [Str.splitOnce_elim_fst]
  unfold listLine shownUntil ahead untilValues
  dsimp only
  rw [hwords, List.head?_filterMap]
  split
  · rename_i hempty
    have hnone : lineNet X line = none := by
      rw [lineNet_eq, ← hwords, List.isEmpty_iff.mp hempty]
      rfl
    rw [hnone]
    rfl
  · cases lineNet X line with
    | none => rfl
    | some net =>
        rw [Option.map_some, Option.bind_some, Option.bind_some]
        cases ((lineTokens line).findSome? (Str.stripPrefix ("until=" : Str))).bind
            (Str.parseUInt 64) with
        | none => rfl
        | some u =>
            dsimp only
            by_cases hu : now < u
            · simp [hu, BanState.inForce, Option.filter]
            · simp [hu, BanState.inForce, Option.filter]

variable {X}

/-- A value that is no number spoils the line for the proxy. -/
theorem foldl_until_none (words : List Str) :
    words.foldl (fun (acc : Option (Option Nat)) tok => acc.bind fun untilSecs =>
        match Str.stripPrefix ("until=" : Str) tok with
        | some v => (Str.parseUInt 64 v).map some
        | none => some untilSecs) none = none := by
  induction words with
  | nil => rfl
  | cons tok words ih => exact ih

/-- A line with an `until=` that is no number is skipped. -/
theorem foldl_until_of_not_allNumbers {words : List Str}
    (h : ¬AllNumbers (untilValues words)) (found : Option Nat) :
    words.foldl (fun acc tok => acc.bind fun untilSecs =>
        match Str.stripPrefix ("until=" : Str) tok with
        | some v => (Str.parseUInt 64 v).map some
        | none => some untilSecs) (some found) = none := by
  induction words generalizing found with
  | nil => exact absurd (fun v hv => by cases hv) h
  | cons tok words ih =>
      rw [List.foldl_cons, Option.bind_some]
      cases hstrip : Str.stripPrefix ("until=" : Str) tok with
      | none =>
          have hvalues : untilValues (tok :: words) = untilValues words :=
            List.filterMap_cons_none hstrip
          rw [hvalues] at h
          exact ih h found
      | some v =>
          have hvalues : untilValues (tok :: words) = v :: untilValues words :=
            List.filterMap_cons_some hstrip
          rw [hvalues] at h
          dsimp only
          cases hv : Str.parseUInt 64 v with
          | none => exact foldl_until_none words
          | some u =>
              refine ih (fun hall => h ?_) (some u)
              intro w hw
              rcases List.mem_cons.mp hw with rfl | hw
              · rw [hv]
                rfl
              · exact hall w hw

/-- The expiry of the proxy: the last value, if all are numbers. -/
theorem lineUntil_eq_ite (hfail2ban : X.features.fail2ban = true) (now : Nat) (words : List Str) :
    lineUntil X now words =
      if AllNumbers (untilValues words) then
        ahead now ((untilValues words).getLast?.bind (Str.parseUInt 64))
      else none := by
  split
  · rename_i hall
    exact lineUntil_eq hfail2ban hall now
  · rename_i hnot
    unfold lineUntil
    rw [if_pos hfail2ban]
    exact congrArg (Option.filter _) (foldl_until_of_not_allNumbers hnot none)

/-! ## Agreement -/

/-- Values of which both make the same: none, or a number at first that is also the last one of
numbers, or is past, with no expiry ahead for the proxy either. -/
def UntilsAgree (now : Nat) (values : List Str) : Prop :=
  values = [] ∨ ∃ u, values.head?.bind (Str.parseUInt 64) = some u ∧
    (AllNumbers values ∧ values.getLast?.bind (Str.parseUInt 64) = some u ∨
      u ≤ now ∧ (AllNumbers values →
        ∃ last, values.getLast?.bind (Str.parseUInt 64) = some last ∧ last ≤ now))

/-- A permanent entry is ahead of every instant. -/
theorem ahead_none (now : Nat) : ahead now none = some none := rfl

/-- An entry until `u` is ahead exactly before `u`. -/
theorem ahead_some (now u : Nat) :
    ahead now (some u) = if now < u then some (some u) else none := by
  simp [ahead, Option.filter]

/-- Two expiries come to the same if they are equal or both past. -/
theorem ahead_eq_iff {now u v : Nat} :
    ahead now (some u) = ahead now (some v) ↔ u = v ∨ u ≤ now ∧ v ≤ now := by
  rw [ahead_some, ahead_some]
  by_cases hu : now < u
  · by_cases hv : now < v
    · rw [if_pos hu, if_pos hv, Option.some.injEq, Option.some.injEq]
      omega
    · rw [if_pos hu, if_neg hv]
      exact iff_of_false nofun (by omega)
  · by_cases hv : now < v
    · rw [if_neg hu, if_pos hv]
      exact iff_of_false nofun (by omega)
    · rw [if_neg hu, if_neg hv]
      exact iff_of_true rfl (by omega)

/-- An entry until `u` is over from `u` on. -/
theorem ahead_eq_none_iff {now u : Nat} : ahead now (some u) = none ↔ u ≤ now := by
  rw [ahead_some]
  by_cases hu : now < u
  · rw [if_pos hu]
    exact iff_of_false nofun (by omega)
  · rw [if_neg hu]
    exact iff_of_true rfl (by omega)

/-- **The expiries agree** just where the values do. -/
theorem shownUntil_eq_iff (now : Nat) (values : List Str) :
    (shownUntil now values =
        if AllNumbers values then ahead now (values.getLast?.bind (Str.parseUInt 64)) else none) ↔
      UntilsAgree now values := by
  unfold shownUntil UntilsAgree
  cases values with
  | nil => exact iff_of_true (if_pos (fun v hv => by cases hv)).symm (.inl rfl)
  | cons v values =>
      rw [List.head?_cons, Option.bind_some]
      simp only [reduceCtorEq, false_or]
      cases hv : Str.parseUInt 64 v with
      | none =>
          have hnot : ¬AllNumbers (v :: values) := by
            intro hall
            have hsome := hall v List.mem_cons_self
            rw [hv] at hsome
            cases hsome
          rw [if_neg hnot, ahead_none]
          exact iff_of_false nofun (by rintro ⟨u, hu, -⟩; cases hu)
      | some u =>
          simp only [Option.some.injEq, exists_eq_left']
          by_cases hall : AllNumbers (v :: values)
          · obtain ⟨w, hw⟩ : ∃ w, (v :: values).getLast? = some w :=
              ⟨_, List.getLast?_eq_some_getLast (List.cons_ne_nil v values)⟩
            obtain ⟨last, hlast⟩ :=
              Option.isSome_iff_exists.mp (hall w (List.mem_of_getLast? hw))
            rw [if_pos hall, hw, Option.bind_some, hlast, ahead_eq_iff]
            simp only [hall, true_and, true_implies, Option.some.injEq, exists_eq_left']
            constructor
            · rintro (heq | hpast)
              · exact .inl heq.symm
              · exact .inr hpast
            · rintro (heq | hpast)
              · exact .inl heq.symm
              · exact .inr hpast
          · rw [if_neg hall, ahead_eq_none_iff]
            simp only [hall, false_and, false_or, false_implies, and_true]

/-- A line shows what the proxy reads just where its values agree. -/
theorem listLine_iff (hfail2ban : X.features.fail2ban = true)
    (hword : ∀ v, netOf X (("until=" : Str) ++ v) = none) (now : Nat) (line : Str) :
    ((listLine X now line).bind fun row => row.2.inForce row.1) = parseLine X now line ↔
      ((lineNet X line).isSome = true → UntilsAgree now (untilValues (lineTokens line))) := by
  rw [listLine_inForce, parseLine_eq, lineNet_eq]
  cases htokens : lineTokens line with
  | nil => exact iff_of_true rfl nofun
  | cons first rest =>
      rw [List.head?_cons, Option.bind_some, Option.bind_some, List.tail_cons]
      cases hnet : netOf X first with
      | none => exact iff_of_true rfl nofun
      | some net =>
          -- The word that names the network has no value.
          have hvalues : untilValues (first :: rest) = untilValues rest := by
            apply List.filterMap_cons_none
            rw [Option.eq_none_iff_forall_ne_some]
            intro v hv
            rw [Str.stripPrefix_eq_some_iff.mp hv, hword v] at hnet
            cases hnet
          have hinj : Function.Injective (BlockEntry.mk net) := by
            intro a b heq
            exact (BlockEntry.mk.inj heq).2
          rw [Option.bind_some, Option.bind_some, hvalues, lineUntil_eq_ite hfail2ban,
            (Option.map_injective hinj).eq_iff, shownUntil_eq_iff]
          exact ⟨fun h _ => h, fun h => h rfl⟩

/-- Where the lines are reported as they are enforced, the entries shown in force are those of the
proxy. -/
theorem inForce_eq_parseBlocklist {now : Nat} {text : Str}
    (h : ReportsEnforced X now (Str.lines text)) :
    ((Str.lines text).filterMap (listLine X now)).filterMap (fun row => row.2.inForce row.1) =
      parseBlocklist X now text := by
  rw [List.filterMap_filterMap]
  exact List.filterMap_congr h

/-- **When `budu bans` reports what the proxy enforces**: exactly if on each line with a network the
`until=` values agree. Then the entries it shows in force are those of the proxy. -/
theorem list_reports_iff (hfail2ban : X.features.fail2ban = true)
    (hword : ∀ v, netOf X (("until=" : Str) ++ v) = none) {cfg : Config} {d : Disk}
    {path text : Str} (hpath : blocklistPath cfg = .ok path) (hd : Holds d path text) (now : Nat) :
    list X cfg now d = .ok (printed path ((Str.lines text).filterMap (listLine X now))) ∧
      (ReportsEnforced X now (Str.lines text) ↔
        ∀ line ∈ Str.lines text, (lineNet X line).isSome = true →
          UntilsAgree now (untilValues (lineTokens line))) ∧
      (ReportsEnforced X now (Str.lines text) →
        ((Str.lines text).filterMap (listLine X now)).filterMap (fun row => row.2.inForce row.1) =
          parseBlocklist X now text) := by
  refine ⟨?_, ?_, inForce_eq_parseBlocklist⟩
  · unfold list
    rw [hpath]
    show Except.ok (printed path ((readLines d path).filterMap (listLine X now))) = _
    rw [readLines_of_holds hd]
  · unfold ReportsEnforced
    exact forall₂_congr fun line _ => listLine_iff hfail2ban hword now line

section runs

/-- A word that begins with `until=` names no network. -/
theorem netOf_until (v : Str) : netOf timedBuild (("until=" : Str) ++ v) = none := by
  have hnone := Plain.parse_eq_none (c := 'u') (by decide) (("ntil=" : Str) ++ v)
  unfold netOf
  rw [Option.or_eq_none_iff]
  exact ⟨hnone.2, Option.map_eq_none_iff.mpr hnone.1⟩

/-- A ban for an hour is reported as it is enforced. -/
theorem hour_ban_reported :
    list timedBuild listConfig 1000 (listDisk (Str.utf8 "198.51.100.9 until=4600\n")) =
        .ok (printed "/etc/bans" ((Str.lines "198.51.100.9 until=4600\n").filterMap
          (listLine timedBuild 1000))) ∧
      (ReportsEnforced timedBuild 1000 (Str.lines "198.51.100.9 until=4600\n") ↔
        ∀ line ∈ Str.lines "198.51.100.9 until=4600\n", (lineNet timedBuild line).isSome = true →
          UntilsAgree 1000 (untilValues (lineTokens line))) ∧
      (ReportsEnforced timedBuild 1000 (Str.lines "198.51.100.9 until=4600\n") →
        ((Str.lines "198.51.100.9 until=4600\n").filterMap (listLine timedBuild 1000)).filterMap
            (fun row => row.2.inForce row.1) =
          parseBlocklist timedBuild 1000 "198.51.100.9 until=4600\n") := by
  have hholds : Holds (listDisk (Str.utf8 "198.51.100.9 until=4600\n")) "/etc/bans"
      "198.51.100.9 until=4600\n" := rfl
  exact list_reports_iff rfl netOf_until (by decide +kernel) hholds 1000

/-- A value that is no number is shown as a ban without end, and the proxy skips the line. -/
theorem malformed_until_reported :
    list timedBuild listConfig 1000 (listDisk (Str.utf8 "198.51.100.9 until=soon\n")) =
        .ok [.entry banned "permanent"] ∧
      parseBlocklist timedBuild 1000 "198.51.100.9 until=soon\n" = [] ∧
      ¬ReportsEnforced timedBuild 1000 (Str.lines "198.51.100.9 until=soon\n") := by
  refine ⟨by decide +kernel, by decide +kernel, ?_⟩
  intro hreports
  have hline := hreports "198.51.100.9 until=soon" (by decide +kernel)
  exact absurd hline (by decide +kernel)

end runs

end BuduWaf.Cli
