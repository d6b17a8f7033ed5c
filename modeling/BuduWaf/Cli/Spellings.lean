import BuduWaf.Cli.Edits

/-!
# `budu unban`: spellings of a network

A network is kept as written, host bits and all, and `unban` removes the lines whose network is
written like the target. The proxy masks the host bits, so a network has as many spellings as it
has addresses.

* **`SameAddresses`**: two networks contain the same addresses; **`SameNetwork`**: they agree up to
  host bits. `sameAddresses_iff`: that is the same.
* **`remaining_lines`**: the entries that an `unban` leaves.
* **`unban_lifts_iff`**: the lists from which it removes every spelling.

Containing an address is a comparison of shifted bits, so two networks contain the same addresses
exactly if they share family, prefix length and the bits of the prefix. That is shown by flipping
single bits of an address: one that is shifted out changes nothing, and the lowest one that is not
leaves the network (`exists_same_prefix`).
-/

namespace BuduWaf.Cli

open Reputation

/-! ## Prefixes -/

section prefixes

variable {w : Nat}

/-- Flipping a bit that is shifted out changes nothing; flipping the lowest one left does. -/
theorem exists_same_prefix (a : BitVec w) {n m : Nat} (hnm : n < m) (hn : n < w) :
    ∃ x : BitVec w, x >>> m = a >>> m ∧ x >>> n ≠ a >>> n := by
  have hbit : ∀ i, (a ^^^ BitVec.twoPow w n).getLsbD i = (a.getLsbD i ^^ (decide (i = n))) := by
    intro i
    rw [BitVec.getLsbD_xor, BitVec.getLsbD_twoPow]
    by_cases hi : i = n
    · subst hi
      simp [hn]
    · simp [hi, Ne.symm hi]
  refine ⟨a ^^^ BitVec.twoPow w n, ?_, ?_⟩
  · apply BitVec.eq_of_getLsbD_eq
    intro i _
    have hi : m + i ≠ n := by omega
    rw [BitVec.getLsbD_ushiftRight, BitVec.getLsbD_ushiftRight, hbit]
    simp [hi]
  · intro heq
    have hlow := congrArg (fun x : BitVec w => x.getLsbD 0) heq
    simp only [BitVec.getLsbD_ushiftRight, Nat.add_zero, hbit] at hlow
    simp at hlow

/-- What shares all but so many bits with an address determines how many, and the bits. -/
theorem shifts_eq_iff {a b : BitVec w} {n m : Nat} (hn : n ≤ w) (hm : m ≤ w) :
    (∀ x : BitVec w, (a >>> n == x >>> n) = (b >>> m == x >>> m)) ↔
      n = m ∧ a >>> n = b >>> n := by
  constructor
  · intro h
    have ha := h a
    rw [beq_self_eq_true, eq_comm, beq_iff_eq] at ha
    have hb := h b
    rw [beq_self_eq_true, beq_iff_eq] at hb
    refine ⟨?_, hb⟩
    rcases Nat.lt_trichotomy n m with hlt | heq | hgt
    · obtain ⟨x, hx, hne⟩ := exists_same_prefix a hlt (by omega)
      have hxa := h x
      rw [hx, ha, beq_self_eq_true, beq_iff_eq] at hxa
      exact absurd hxa.symm hne
    · exact heq
    · obtain ⟨x, hx, hne⟩ := exists_same_prefix b hgt (by omega)
      have hxb := h x
      rw [hx, hb, beq_self_eq_true, eq_comm, beq_iff_eq] at hxb
      exact absurd hxb.symm hne
  · rintro ⟨rfl, heq⟩ x
    rw [heq]

end prefixes

/-! ## Networks -/

/-- Two networks contain the same addresses. -/
def SameAddresses (net net' : IpNet) : Prop := ∀ ip, net.contains ip = net'.contains ip

/-- Two networks of one family and prefix length, and alike in the bits of the prefix. -/
def SameNetwork : IpNet → IpNet → Prop
  | .v4 a len, .v4 b len' => len = len' ∧ a >>> (32 - len.val) = b >>> (32 - len.val)
  | .v6 a len, .v6 b len' => len = len' ∧ a >>> (128 - len.val) = b >>> (128 - len.val)
  | _, _ => False

/-- The bits behind the prefix, as written. -/
def hostBits : IpNet → Nat
  | .v4 a len => a.toNat % 2 ^ (32 - len.val)
  | .v6 a len => a.toNat % 2 ^ (128 - len.val)

/-- **The same addresses are the same network.** -/
theorem sameAddresses_iff (net net' : IpNet) : SameAddresses net net' ↔ SameNetwork net net' := by
  unfold SameAddresses SameNetwork
  cases net with
  | v4 a len =>
      cases net' with
      | v4 b len' =>
          have hshifts := shifts_eq_iff (a := a) (b := b) (Nat.sub_le 32 len.val)
            (Nat.sub_le 32 len'.val)
          constructor
          · intro h
            obtain ⟨hlen, hbits⟩ := hshifts.mp fun x => h (.v4 x)
            exact ⟨Fin.ext (by omega), hbits⟩
          · rintro ⟨rfl, hbits⟩ (x | x)
            · exact hshifts.mpr ⟨rfl, hbits⟩ x
            · rfl
      | v6 b len' =>
          refine iff_of_false (fun h => ?_) id
          have hself : (IpNet.v4 a len).contains (.v4 a) = true := beq_self_eq_true _
          rw [h (.v4 a)] at hself
          cases hself
  | v6 a len =>
      cases net' with
      | v4 b len' =>
          refine iff_of_false (fun h => ?_) id
          have hself : (IpNet.v6 a len).contains (.v6 a) = true := beq_self_eq_true _
          rw [h (.v6 a)] at hself
          cases hself
      | v6 b len' =>
          have hshifts := shifts_eq_iff (a := a) (b := b) (Nat.sub_le 128 len.val)
            (Nat.sub_le 128 len'.val)
          constructor
          · intro h
            obtain ⟨hlen, hbits⟩ := hshifts.mp fun x => h (.v6 x)
            exact ⟨Fin.ext (by omega), hbits⟩
          · rintro ⟨rfl, hbits⟩ (x | x)
            · rfl
            · exact hshifts.mpr ⟨rfl, hbits⟩ x

/-- Bits of a prefix and bits behind it make up the address. -/
theorem eq_of_prefix_of_rest {w n : Nat} {a b : BitVec w} (hsame : a >>> n = b >>> n)
    (hrest : a.toNat % 2 ^ n = b.toNat % 2 ^ n) : a = b := by
  have hdiv := congrArg BitVec.toNat hsame
  rw [BitVec.toNat_ushiftRight, BitVec.toNat_ushiftRight, Nat.shiftRight_eq_div_pow,
    Nat.shiftRight_eq_div_pow] at hdiv
  apply BitVec.eq_of_toNat_eq
  rw [← Nat.div_add_mod a.toNat (2 ^ n), ← Nat.div_add_mod b.toNat (2 ^ n), hdiv, hrest]

/-- Two spellings of a network differ in their host bits. -/
theorem eq_iff_hostBits {net net' : IpNet} (h : SameNetwork net net') :
    net = net' ↔ hostBits net = hostBits net' := by
  refine ⟨congrArg hostBits, fun hbits => ?_⟩
  cases net with
  | v4 a len =>
      cases net' with
      | v4 b len' =>
          obtain ⟨rfl, hsame⟩ := h
          rw [eq_of_prefix_of_rest hsame hbits]
      | v6 b len' => exact h.elim
  | v6 a len =>
      cases net' with
      | v4 b len' => exact h.elim
      | v6 b len' =>
          obtain ⟨rfl, hsame⟩ := h
          rw [eq_of_prefix_of_rest hsame hbits]

/-! ## What an `unban` leaves -/

variable {X : Crates}

/-- Some line of a text is an entry for this network. -/
def HasEntry (X : Crates) (text : Str) (net : IpNet) : Prop :=
  ∃ line ∈ Str.lines text, lineNet X line = some net

/-- The text of the list, as it is read for its edit. -/
def listText (d : Disk) (path : Str) : Str := Str.fromUtf8Lossy (d.bytesAt path)

/-- A list that was written holds what was written. -/
theorem bytesAt_of_writeLines {faults : WriteFaults} {d d' : Disk} {path : Str} {lines : List Str}
    (h : writeLines faults d path lines = (.ok (), d')) :
    d'.bytesAt path = Str.utf8 (unlines lines) := by
  obtain ⟨create, write, rename⟩ := faults
  unfold writeLines at h
  dsimp only at h
  split at h
  · cases (Prod.mk.inj h).1
  · cases (Prod.mk.inj h).1
  · cases (Prod.mk.inj h).1
  · obtain ⟨-, rfl⟩ := Prod.mk.inj h
    exact Disk.bytesAt_rename_put d _ path _

/-- The entries of lines that were written. -/
theorem hasEntry_unlines_iff {lines : List Str} (h : ∀ line ∈ lines, '\n' ∉ line) (net : IpNet) :
    HasEntry X (unlines lines) net ↔ ∃ line ∈ lines, lineNet X line = some net := by
  have hchomp := map_chomp_lines_unlines h
  have hentries : ∀ ls : List Str, (∃ line ∈ ls, lineNet X line = some net) ↔
      ∃ line ∈ ls.map Str.chomp, lineNet X line = some net := by
    intro ls
    simp only [List.mem_map, exists_exists_and_eq_and, lineNet_chomp]
  unfold HasEntry
  rw [hentries, hchomp, ← hentries]

/-- **The entries that an `unban` leaves** are those written otherwise. -/
theorem remaining_lines {cfg : Config} {target path text : Str} {net : IpNet}
    {faults : WriteFaults} {d d' : Disk} (htarget : parseTarget X target = .ok net)
    (hpath : blocklistPath cfg = .ok path) (hd : Holds d path text)
    (hunban : unban X cfg target faults d = (.ok (), d')) (other : IpNet) :
    HasEntry X (listText d' path) other ↔ HasEntry X text other ∧ other ≠ net := by
  have hleft : (∃ line ∈ without X (Str.lines text) net, lineNet X line = some other) ↔
      HasEntry X text other ∧ other ≠ net := by
    unfold without HasEntry
    simp only [List.mem_filter, bne_iff_ne, ne_eq]
    constructor
    · rintro ⟨line, ⟨hmem, hother⟩, hline⟩
      refine ⟨⟨line, hmem, hline⟩, ?_⟩
      rintro rfl
      exact hother hline
    · rintro ⟨⟨line, hmem, hline⟩, hne⟩
      refine ⟨line, ⟨hmem, ?_⟩, hline⟩
      rw [hline]
      exact fun heq => hne (Option.some.inj heq)
  unfold unban at hunban
  rw [htarget] at hunban
  simp only at hunban
  rw [hpath] at hunban
  simp only at hunban
  rw [readLines_of_holds hd] at hunban
  split at hunban
  · -- Nothing was removed, so no line had the target's spelling.
    rename_i hnone
    obtain ⟨-, rfl⟩ := Prod.mk.inj hunban
    have hall : without X (Str.lines text) net = Str.lines text := by
      refine (List.filter_sublist).eq_of_length_le ?_
      unfold without at hnone
      omega
    have htext : listText d path = text := by
      unfold listText Disk.bytesAt
      rw [hd, Option.elim_some, Str.fromUtf8Lossy_utf8]
    rw [← hleft, hall, htext]
    rfl
  · have hwritten := bytesAt_of_writeLines hunban
    unfold listText
    rw [hwritten, Str.fromUtf8Lossy_utf8,
      hasEntry_unlines_iff (fun line hline => lf_notMem_of_mem_without hline) other]
    exact hleft

/-- **When an `unban` lifts the ban**: no entry left has the target's addresses exactly if every
entry with them was written with the target's host bits. -/
theorem unban_lifts_iff {cfg : Config} {target path text : Str} {net : IpNet}
    {faults : WriteFaults} {d d' : Disk} (htarget : parseTarget X target = .ok net)
    (hpath : blocklistPath cfg = .ok path) (hd : Holds d path text)
    (hunban : unban X cfg target faults d = (.ok (), d')) :
    (∀ line ∈ Str.lines (listText d' path), ∀ entry, lineNet X line = some entry →
        ¬SameAddresses entry net) ↔
      ∀ line ∈ Str.lines text, ∀ entry, lineNet X line = some entry → SameNetwork entry net →
        hostBits entry = hostBits net := by
  have hremaining := remaining_lines htarget hpath hd hunban
  constructor
  · intro h line hline entry hentry hsame
    rw [← eq_iff_hostBits hsame]
    by_contra hne
    obtain ⟨line', hline', hentry'⟩ := (hremaining entry).mpr ⟨⟨line, hline, hentry⟩, hne⟩
    exact h line' hline' entry hentry' ((sameAddresses_iff entry net).mpr hsame)
  · intro h line hline entry hentry hsame
    rw [sameAddresses_iff] at hsame
    obtain ⟨⟨line', hline', hentry'⟩, hne⟩ := (hremaining entry).mp ⟨line, hline, hentry⟩
    exact hne ((eq_iff_hostBits hsame).mpr (h line' hline' entry hentry' hsame))

section runs

/-- The addresses `10.0.0.0` to `10.255.255.255`. -/
def tens : IpNet := .v4 0x0A000000 ⟨8, by decide⟩

/-- The network is unbanned where it was banned under its first address. -/
theorem same_spelling_lifted :
    (∀ line ∈ Str.lines (listText (unban (.plain .none .none) listConfig "10.0.0.0/8" .none
          (listDisk (Str.utf8 "10.0.0.0/8\n203.0.113.7\n"))).2 "/etc/bans"),
        ∀ entry, lineNet (.plain .none .none) line = some entry → ¬SameAddresses entry tens) ↔
      ∀ line ∈ Str.lines "10.0.0.0/8\n203.0.113.7\n",
        ∀ entry, lineNet (.plain .none .none) line = some entry → SameNetwork entry tens →
          hostBits entry = hostBits tens := by
  have hholds : Holds (listDisk (Str.utf8 "10.0.0.0/8\n203.0.113.7\n")) "/etc/bans"
      "10.0.0.0/8\n203.0.113.7\n" := rfl
  have htarget : parseTarget (.plain .none .none) "10.0.0.0/8" = .ok tens := by decide +kernel
  have hpath : blocklistPath listConfig = .ok "/etc/bans" := by decide +kernel
  have hok : (unban (.plain .none .none) listConfig "10.0.0.0/8" .none
      (listDisk (Str.utf8 "10.0.0.0/8\n203.0.113.7\n"))).1 = .ok () := by decide +kernel
  exact unban_lifts_iff htarget hpath hholds (Prod.ext hok rfl)

/-- Banned under another address it stays banned, and the command succeeds. -/
theorem other_spelling_stays :
    (unban (.plain .none .none) listConfig "10.0.0.0/8" .none
        (listDisk (Str.utf8 "10.1.2.3/8\n"))).1 = .ok () ∧
      ¬∀ line ∈ Str.lines (listText (unban (.plain .none .none) listConfig "10.0.0.0/8" .none
          (listDisk (Str.utf8 "10.1.2.3/8\n"))).2 "/etc/bans"),
        ∀ entry, lineNet (.plain .none .none) line = some entry → ¬SameAddresses entry tens := by
  refine ⟨by decide +kernel, ?_⟩
  intro h
  have hsame : SameNetwork (.v4 0x0A010203 ⟨8, by decide⟩) tens := ⟨rfl, by decide⟩
  exact h "10.1.2.3/8" (by decide +kernel) (.v4 0x0A010203 ⟨8, by decide⟩) (by decide +kernel)
    ((sameAddresses_iff _ _).mpr hsame)

end runs

end BuduWaf.Cli
