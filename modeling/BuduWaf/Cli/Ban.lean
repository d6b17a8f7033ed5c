import BuduWaf.Lib.Lines
import BuduWaf.Plain

/-!
# `budu ban`: editing the blocklist file

The command reads the list, drops the target's lines, appends one, writes the result to a
temporary file and renames that over the list.

* **`Disk`** and **`WriteFaults`**: the files, and which step of the writing fails.
* **`ban`**: the command, as far as it touches files.
* **`ban_safe_iff`**: when an edit loses no other ban. A list that cannot be read counts as
  empty, so its lines are lost unless they are all the target's.

Whether the list survives a failed edit depends on which file was written to last. A disk is a
function from paths to contents, the writing is a sequence of steps, and a fault names the step that
fails, so every state a failure can leave is covered by one definition.
-/

namespace BuduWaf.Cli

variable (X : Crates)

/-! ## The disk -/

/-- A file on the disk, as the command meets it. -/
structure DiskFile where
  /-- Its content. -/
  bytes : Bytes
  /-- Whether the command may read it. -/
  readable : Bool
deriving DecidableEq

/-- The files the command sees, by their paths. -/
abbrev Disk := Str → Option DiskFile

namespace Disk

/-- Reading: an error where there is no file or no permission. -/
def toFileSystem (d : Disk) : FileSystem where
  read path :=
    match d path with
    | none => .error "No such file or directory"
    | some f => if f.readable then .ok f.bytes else .error "Permission denied"

/-- `File::create` and what was written: the file is replaced, an old one keeps its permission. -/
def put (d : Disk) (path : Str) (bytes : Bytes) : Disk :=
  Function.update d path (some ⟨bytes, (d path).elim true DiskFile.readable⟩)

/-- `std::fs::rename`: the target is the file the source was, and the source is gone. -/
def rename (d : Disk) (source target : Str) : Disk :=
  if source = target then d
  else Function.update (Function.update d target (d source)) source none

end Disk

/-- Which step of writing fails, and how: creating the temporary file, writing after so many
bytes, or renaming. -/
structure WriteFaults where
  /-- `File::create`. -/
  create : Option Str
  /-- A `writeln!`, and how many bytes were written by then. -/
  write : Option (Nat × Str)
  /-- `std::fs::rename`. -/
  rename : Option Str
deriving DecidableEq

/-- A write in which nothing fails. -/
def WriteFaults.none : WriteFaults := ⟨.none, .none, .none⟩

/-! ## Paths -/

/-- A path backwards, without the separators and `.` components at its end.
Source: `Path::file_name` -/
def trimTail : Str → Str
  | '/' :: rest => trimTail rest
  | '.' :: '/' :: rest => trimTail rest
  | s => s

/-- `Path::with_extension`: the extension behind the last dot of the file name is replaced, if
the dot does not start the name; a path without a file name stays.
Source: `Path::with_extension` -/
def withExtension (path ext : Str) : Str :=
  let tail := trimTail path.reverse
  let name := (tail.takeWhile (· != '/')).reverse
  if name = [] ∨ name = ("." : Str) ∨ name = (".." : Str) then path
  else
    let stem :=
      match (name.reverse.dropWhile (· != '.')) with
      | _ :: before => if before = [] then name else before.reverse
      | [] => name
    (tail.dropWhile (· != '/')).reverse ++ stem ++ '.' :: ext

/-! ## The arguments -/

/-- Where the list is.
Source: `budu/src/ban.rs` `blocklist_path` -/
def blocklistPath (cfg : Config) : Except Str Str :=
  let p := Str.trim cfg.reputation.blocklistFile
  if p.isEmpty then
    .error (("no [reputation] blocklist_file is configured; set one to use " : Str)
      ++ ("\x60ban\x60/\x60unban\x60/\x60bans\x60" : Str))
  else .ok p

/-- An address or a network.
Source: `budu/src/ban.rs` `parse_target`, `line_net` -/
def parseNetOrIp (s : Str) : Option IpNet :=
  (X.parseNet s).or ((X.parseIp s).map IpNet.ofAddr)

/-- The target of a command.
Source: `budu/src/ban.rs` `parse_target` -/
def parseTarget (s : Str) : Except Str IpNet :=
  match parseNetOrIp X s with
  | some net => .ok net
  | none => .error (("invalid IP/CIDR " : Str) ++ X.debugText s)

/-- The units of a duration, in seconds.
Source: `budu/src/ban.rs` `parse_duration` -/
def durationUnits : List (Char × Nat) := [('s', 1), ('m', 60), ('h', 3600), ('d', 86400)]

/-- A duration in seconds; the product saturates at 64 bits.
Source: `budu/src/ban.rs` `parse_duration` -/
def parseDuration (s : Str) : Except Str Nat :=
  let s := Str.trim s
  match Str.parseUInt 64 s with
  | some n => .ok n
  | none =>
    match s.getLast?.bind fun unit => durationUnits.lookup unit with
    | none =>
      .error (("invalid duration " : Str) ++ X.debugText s
        ++ ("; use e.g. 30m, 1h, 7d, or a seconds count" : Str))
    | some mult =>
      match Str.parseUInt 64 (Str.trim s.dropLast) with
      | none => .error (("invalid duration " : Str) ++ X.debugText s)
      | some n => .ok (min (n * mult) (2 ^ 64 - 1))

/-- The text of a network.
Source: `ipnet::IpNet` -/
def netText : IpNet → Str
  | .v4 a len => X.ipText (.v4 a) ++ '/' :: Str.ofNat len.val
  | .v6 a len => X.ipText (.v6 a) ++ '/' :: Str.ofNat len.val

/-- The line of a new ban, which ends `duration` after `now`; the sum saturates at 64 bits.
Source: `budu/src/ban.rs` `ban` (`let entry`) -/
def banEntry (net : IpNet) (duration : Option Str) (now : Nat) : Except Str Str :=
  match duration with
  | none => .ok (netText X net)
  | some d => do
    let secs ← parseDuration X d
    return netText X net ++ (" until=" : Str) ++ Str.ofNat (min (now + secs) (2 ^ 64 - 1))

/-! ## Lines -/

/-- The network of an address line.
Source: `budu/src/ban.rs` `line_net` -/
def lineNet (line : Str) : Option IpNet :=
  (Str.splitWhitespace (Str.trim (line.takeWhile (· != '#')))).head?.bind (parseNetOrIp X)

/-- The lines of the list; no lines where it cannot be read.
Source: `budu/src/ban.rs` `read_lines` -/
def readLines (d : Disk) (path : Str) : List Str :=
  match d.toFileSystem.readToString path with
  | .ok text => Str.lines text
  | .error _ => []

/-- The lines that are not the target's.
Source: `budu/src/ban.rs` `without` -/
def without (lines : List Str) (target : IpNet) : List Str :=
  lines.filter fun l => lineNet X l != some target

/-- Write a list: a temporary file next to it, then a rename.
Source: `budu/src/ban.rs` `write_lines` -/
def writeLines (faults : WriteFaults) (d : Disk) (path : Str) (lines : List Str) :
    Except Str Unit × Disk :=
  let tmp := withExtension path "tmp"
  let text := Str.utf8 (unlines lines)
  match faults.create, faults.write, faults.rename with
  | some e, _, _ => (.error (("creating " : Str) ++ tmp ++ (": " : Str) ++ e), d)
  | none, some (written, e), _ => (.error e, d.put tmp (text.take written))
  | none, none, some e =>
    (.error (("writing " : Str) ++ path ++ (": " : Str) ++ e), d.put tmp text)
  | none, none, none => (.ok (), (d.put tmp text).rename tmp path)

/-! ## The command -/

/-- `budu ban`, without what it prints and without the reload.
Source: `budu/src/ban.rs` `ban` -/
def ban (cfg : Config) (target : Str) (duration : Option Str) (now : Nat) (faults : WriteFaults)
    (d : Disk) : Except Str Unit × Disk :=
  match parseTarget X target with
  | .error e => (.error e, d)
  | .ok net =>
    match blocklistPath cfg with
    | .error e => (.error e, d)
    | .ok path =>
      match banEntry X net duration now with
      | .error e => (.error e, d)
      | .ok entry =>
        writeLines faults d path (without X (readLines d path) net ++ [entry])

/-! ## What an edit keeps -/

variable {X}

/-- The content of a file, empty where there is none. -/
def Disk.bytesAt (d : Disk) (path : Str) : Bytes := (d path).elim [] DiskFile.bytes

/-- The file is missing, or it may be read and is a text. -/
def ReadsAsText (d : Disk) (path : Str) : Prop :=
  ∀ f, d path = some f → f.readable = true ∧ Str.utf8 (Str.fromUtf8Lossy f.bytes) = f.bytes

/-- Carriage returns at the end of a line do not change its address. -/
theorem lineNet_chomp (line : Str) : lineNet X (Str.chomp line) = lineNet X line := by
  unfold lineNet
  rw [Str.trim_takeWhile_chomp rfl]

/-- Reading a file that is there gives its text, if it may be read and is one. -/
theorem Disk.readToString_some {d : Disk} {path : Str} {f : DiskFile} (h : d path = some f) :
    d.toFileSystem.readToString path =
      if f.readable then
        if Str.utf8 (Str.fromUtf8Lossy f.bytes) = f.bytes then .ok (Str.fromUtf8Lossy f.bytes)
        else .error "stream did not contain valid UTF-8"
      else .error "Permission denied" := by
  have hread : d.toFileSystem.read path =
      if f.readable then .ok f.bytes else .error "Permission denied" := by
    show (match d path with
      | none => _
      | some f => _) = _
    rw [h]
  unfold FileSystem.readToString
  rw [hread]
  by_cases hreadable : f.readable = true
  · rw [if_pos hreadable, if_pos hreadable]
  · rw [if_neg hreadable, if_neg hreadable]

/-- Reading a file that is missing fails. -/
theorem Disk.readToString_none {d : Disk} {path : Str} (h : d path = none) :
    d.toFileSystem.readToString path = .error "No such file or directory" := by
  have hread : d.toFileSystem.read path = .error "No such file or directory" := by
    show (match d path with
      | none => _
      | some f => _) = _
    rw [h]
  unfold FileSystem.readToString
  rw [hread]

/-- Reading a file that is a text gives its lines, without carriage returns at their ends. -/
theorem readLines_of_text {d : Disk} {path : Str} (h : ReadsAsText d path) :
    Str.byteLines (d.bytesAt path) =
      (readLines d path).map fun line => Str.utf8 (Str.chomp line) := by
  unfold Disk.bytesAt readLines
  cases hfile : d path with
  | none =>
      rw [Disk.readToString_none hfile]
      rfl
  | some f =>
      obtain ⟨hreadable, htext⟩ := h f hfile
      rw [Disk.readToString_some hfile, if_pos hreadable, if_pos htext]
      simp only [Option.elim_some]
      rw [← Str.byteLines_utf8, htext]

/-- A file that cannot be read as a text counts as an empty list, whatever the reason is. -/
theorem readLines_of_not_text {d : Disk} {path : Str} (h : ¬ ReadsAsText d path) :
    readLines d path = [] := by
  unfold readLines
  cases hfile : d path with
  | none => rw [Disk.readToString_none hfile]
  | some f =>
      have hnot : ¬ (f.readable = true ∧ Str.utf8 (Str.fromUtf8Lossy f.bytes) = f.bytes) := by
        intro hboth
        apply h
        intro g hg
        rw [hfile] at hg
        obtain rfl := Option.some.inj hg
        exact hboth
      rw [Disk.readToString_some hfile]
      by_cases hreadable : f.readable = true
      · have htext : Str.utf8 (Str.fromUtf8Lossy f.bytes) ≠ f.bytes :=
          fun ht => hnot ⟨hreadable, ht⟩
        rw [if_pos hreadable, if_neg htext]
      · rw [if_neg hreadable]

/-- A line of the list that is read has no line feed, so it is one line when it is written again. -/
theorem lf_notMem_of_mem_readLines {d : Disk} {path line : Str} (h : line ∈ readLines d path) :
    '\n' ∉ line := by
  unfold readLines at h
  split at h
  · exact Str.lf_notMem_of_mem_lines h
  · cases h

/-- What is written line by line has these lines, and then those of what follows. -/
theorem byteLines_unlines {lines : List Str} (h : ∀ line ∈ lines, '\n' ∉ line) (rest : Bytes) :
    Str.byteLines (Str.utf8 (unlines lines) ++ rest) =
      (lines.map fun line => Str.utf8 (Str.chomp line)) ++ Str.byteLines rest := by
  induction lines with
  | nil => rfl
  | cons line lines ih =>
      have hlf : (0x0A : UInt8) ∉ Str.utf8 line := by
        intro hmem
        exact h line List.mem_cons_self (Str.mem_of_mem_utf8 hmem (by decide))
      have hbytes : Str.utf8 (unlines (line :: lines)) ++ rest =
          Str.utf8 line ++ 0x0A :: (Str.utf8 (unlines lines) ++ rest) := by
        have hunlines : unlines (line :: lines) = line ++ '\n' :: unlines lines := by
          simp [unlines]
        have hchar : String.utf8EncodeChar '\n' = [0x0A] := rfl
        rw [hunlines, Str.utf8_append, Str.utf8_cons, hchar]
        simp
      rw [hbytes, Str.byteLines_append hlf, Str.chompBytes_utf8,
        ih fun l hl => h l (List.mem_cons_of_mem line hl)]
      rfl

variable (X)

/-- The list with the target's lines replaced by an entry.
Source: `budu/src/ban.rs` `ban` -/
def editedList (d : Disk) (path : Str) (net : IpNet) (entry : Str) : List Str :=
  without X (readLines d path) net ++ [entry]

/-- The bytes of the list after the edit: its lines with the new entry, each with a line feed. -/
def editedBytes (d : Disk) (path : Str) (net : IpNet) (entry : Str) : Bytes :=
  Str.utf8 (unlines (editedList X d path net entry))

/-- A line of the file that is not the target's. -/
def OtherLine (d : Disk) (path : Str) (net : IpNet) (line : Bytes) : Prop :=
  line ∈ Str.byteLines (d.bytesAt path) ∧ lineNet X (Str.fromUtf8Lossy line) ≠ some net

/-- An edit fails and leaves the file, or succeeds and keeps every other line. -/
def EditSafe (d d' : Disk) (path : Str) (net : IpNet) (result : Except Str Unit) : Prop :=
  (result.isOk = false ∧ d' path = d path) ∨
    (result.isOk = true ∧
      ∀ line, OtherLine X d path net line → line ∈ Str.byteLines (d'.bytesAt path))

/-- The edited list has all other lines exactly if the file is read, or has none but the entry
itself. -/
theorem editedBytes_keeps_iff (d : Disk) (path : Str) (net : IpNet) (entry : Str) :
    (∀ line, OtherLine X d path net line →
        line ∈ Str.byteLines (editedBytes X d path net entry)) ↔
      ReadsAsText d path ∨ ∀ line, OtherLine X d path net line →
        line ∈ Str.byteLines (Str.utf8 (unlines [entry])) := by
  have hkept : ∀ line ∈ without X (readLines d path) net, '\n' ∉ line :=
    fun line hline => lf_notMem_of_mem_readLines (List.mem_filter.mp hline).1
  have hedited : Str.byteLines (editedBytes X d path net entry) =
      ((without X (readLines d path) net).map fun line => Str.utf8 (Str.chomp line)) ++
        Str.byteLines (Str.utf8 (unlines [entry])) := by
    have hsplit : unlines (editedList X d path net entry) =
        unlines (without X (readLines d path) net) ++ unlines [entry] := List.flatMap_append
    rw [editedBytes, hsplit, Str.utf8_append, byteLines_unlines hkept]
  rw [hedited]
  constructor
  · intro h
    by_cases htext : ReadsAsText d path
    · exact .inl htext
    · refine .inr ?_
      intro line hline
      have hmem := h line hline
      rwa [readLines_of_not_text htext] at hmem
  · rintro (htext | h) line hline
    · obtain ⟨hmem, hother⟩ := hline
      rw [readLines_of_text htext] at hmem
      obtain ⟨text, htextmem, rfl⟩ := List.mem_map.mp hmem
      rw [Str.fromUtf8Lossy_utf8, lineNet_chomp] at hother
      refine List.mem_append_left _ (List.mem_map.mpr ⟨text, ?_, rfl⟩)
      exact List.mem_filter.mpr ⟨htextmem, by simpa using hother⟩
    · exact List.mem_append_right _ (h line hline)

/-! ## The writing -/

/-- Writing one file leaves the others as they were. -/
theorem Disk.put_of_ne (d : Disk) {path other : Str} (bytes : Bytes) (h : other ≠ path) :
    d.put other bytes path = d path := Function.update_of_ne (Ne.symm h) _ _

/-- Writing a file leaves it exactly if it was there and held what was written. -/
theorem Disk.put_eq_iff (d : Disk) (path : Str) (bytes : Bytes) :
    d.put path bytes path = d path ↔ (d path).map DiskFile.bytes = some bytes := by
  unfold Disk.put
  rw [Function.update_self]
  cases d path with
  | none => simp
  | some f =>
      obtain ⟨old, readable⟩ := f
      simp [eq_comm]

/-- The file holds what was written to the temporary file and renamed. -/
theorem Disk.bytesAt_rename_put (d : Disk) (source target : Str) (bytes : Bytes) :
    ((d.put source bytes).rename source target).bytesAt target = bytes := by
  unfold Disk.bytesAt Disk.rename
  have hput : d.put source bytes source =
      some ⟨bytes, (d source).elim true DiskFile.readable⟩ := Function.update_self _ _ _
  by_cases h : source = target
  · rw [if_pos h, ← h, hput]
    rfl
  · rw [if_neg h, Function.update_of_ne (Ne.symm h), Function.update_self, hput]
    rfl

variable {X}

/-- A command with valid arguments edits the list. -/
theorem ban_of_valid {cfg : Config} {target : Str} {duration : Option Str} {now : Nat}
    {path entry : Str} {net : IpNet} (htarget : parseTarget X target = .ok net)
    (hpath : blocklistPath cfg = .ok path) (hentry : banEntry X net duration now = .ok entry)
    (faults : WriteFaults) (d : Disk) :
    ban X cfg target duration now faults d =
      writeLines faults d path (editedList X d path net entry) := by
  unfold ban
  rw [htarget]
  simp only
  rw [hpath]
  simp only
  rw [hentry]
  rfl

variable (X)

/-- The temporary file is another one, or the list already held what was written. -/
def TempApart (d : Disk) (path : Str) (written : Bytes) : Prop :=
  withExtension path "tmp" ≠ path ∨ (d path).map DiskFile.bytes = some written

/-- When an edit loses nothing: it fails before or beside the list, or the list is read, or all
it has for others is the entry itself. -/
def KeepsOthers (faults : WriteFaults) (d : Disk) (path : Str) (net : IpNet) (entry : Str) :
    Prop :=
  match faults.create, faults.write, faults.rename with
  | some _, _, _ => True
  | none, some (written, _), _ => TempApart d path ((editedBytes X d path net entry).take written)
  | none, none, some _ => TempApart d path (editedBytes X d path net entry)
  | none, none, none =>
    ReadsAsText d path ∨ ∀ line, OtherLine X d path net line →
      line ∈ Str.byteLines (Str.utf8 (unlines [entry]))

variable {X}

/-- A failed writing is safe exactly if it did not touch the list. -/
theorem editSafe_failed_iff {d : Disk} {path : Str} {net : IpNet} (e : Str) (written : Bytes) :
    EditSafe X d (d.put (withExtension path "tmp") written) path net (.error e) ↔
      TempApart d path written := by
  have hfailed : EditSafe X d (d.put (withExtension path "tmp") written) path net (.error e) ↔
      d.put (withExtension path "tmp") written path = d path := by
    simp [EditSafe, Except.isOk, Except.toBool]
  rw [hfailed]
  unfold TempApart
  by_cases h : withExtension path "tmp" = path
  · rw [h, Disk.put_eq_iff]
    constructor
    · exact Or.inr
    · intro hheld
      exact hheld.resolve_left (fun hne => hne rfl)
  · have huntouched := Disk.put_of_ne d written h
    constructor
    · exact fun _ => Or.inl h
    · exact fun _ => huntouched

/-- **When a ban destroys no other ban**, for any file before it and any failure: exactly if a
failed edit wrote beside the list and a successful one read it, or found nothing to lose. -/
theorem ban_safe_iff (cfg : Config) (target : Str) (duration : Option Str) (now : Nat)
    (faults : WriteFaults) (d : Disk) (path entry : Str) (net : IpNet)
    (htarget : parseTarget X target = .ok net) (hpath : blocklistPath cfg = .ok path)
    (hentry : banEntry X net duration now = .ok entry) :
    EditSafe X d (ban X cfg target duration now faults d).2 path net
        (ban X cfg target duration now faults d).1 ↔
      KeepsOthers X faults d path net entry := by
  rw [ban_of_valid htarget hpath hentry]
  obtain ⟨create, write, rename⟩ := faults
  cases create with
  | some e => simp [writeLines, EditSafe, KeepsOthers, Except.isOk, Except.toBool]
  | none =>
      cases write with
      | some fault =>
          obtain ⟨written, e⟩ := fault
          exact editSafe_failed_iff e _
      | none =>
          cases rename with
          | some e => exact editSafe_failed_iff _ _
          | none =>
              have hsucceeded : ∀ d', EditSafe X d d' path net (.ok ()) ↔
                  ∀ line, OtherLine X d path net line →
                    line ∈ Str.byteLines (d'.bytesAt path) := by
                intro d'
                simp [EditSafe, Except.isOk, Except.toBool]
              show EditSafe X d ((d.put (withExtension path "tmp")
                (editedBytes X d path net entry)).rename (withExtension path "tmp") path) path net
                (.ok ()) ↔ _
              rw [hsucceeded, Disk.bytesAt_rename_put]
              exact editedBytes_keeps_iff X d path net entry

section runs

/-- A configuration whose blocklist is `/etc/bans`. -/
def listConfig : Config :=
  { Config.minimal with
    reputation := { Config.minimal.reputation with blocklistFile := "/etc/bans" } }

/-- A disk whose only file is the list, with this content. -/
def listDisk (bytes : Bytes) : Disk := fun path =>
  if path = ("/etc/bans" : Str) then some ⟨bytes, true⟩ else none

/-- The address 198.51.100.9, which is to be banned. -/
def banned : IpNet := .v4 0xC6336409 ⟨32, by decide⟩

/-- Banning an address for an hour keeps the ban in a readable list. -/
theorem text_list_kept :
    EditSafe (.plain .none .none) (listDisk (Str.utf8 "203.0.113.7\n"))
      (ban (.plain .none .none) listConfig "198.51.100.9" (some "1h") 1000 .none
        (listDisk (Str.utf8 "203.0.113.7\n"))).2
      "/etc/bans" banned
      (ban (.plain .none .none) listConfig "198.51.100.9" (some "1h") 1000 .none
        (listDisk (Str.utf8 "203.0.113.7\n"))).1 := by
  refine (ban_safe_iff listConfig "198.51.100.9" (some "1h") 1000 .none
    (listDisk (Str.utf8 "203.0.113.7\n")) "/etc/bans" "198.51.100.9/32 until=4600" banned
    (by decide +kernel) (by decide +kernel) (by decide +kernel)).mpr (.inl ?_)
  intro f hf
  obtain rfl := Option.some.inj hf
  exact ⟨rfl, by decide +kernel⟩

/-- One stray byte in the list, and banning another address succeeds and drops its ban. -/
theorem stray_byte_list_lost :
    ¬ EditSafe (.plain .none .none) (listDisk (Str.utf8 "203.0.113.7\n" ++ [0xFF, 0x0A]))
      (ban (.plain .none .none) listConfig "198.51.100.9" none 1000 .none
        (listDisk (Str.utf8 "203.0.113.7\n" ++ [0xFF, 0x0A]))).2
      "/etc/bans" banned
      (ban (.plain .none .none) listConfig "198.51.100.9" none 1000 .none
        (listDisk (Str.utf8 "203.0.113.7\n" ++ [0xFF, 0x0A]))).1 := by
  rintro (⟨hfailed, -⟩ | ⟨-, hkept⟩)
  · exact absurd hfailed (by decide +kernel)
  · exact absurd (hkept (Str.utf8 "203.0.113.7") ⟨by decide +kernel, by decide +kernel⟩)
      (by decide +kernel)

end runs

end BuduWaf.Cli
