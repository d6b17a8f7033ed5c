import BuduWaf.Lib.Split
import BuduWaf.Rules.Fields

/-!
# `budu-rules`: the splitting loop

The multipart parser cuts a body with two loops over indices. Here they are written as they run,
with every slice checked, beside the functions on lists that the rest of this development uses.

* **`SplitState`** and **`splitStep`**: the segments found so far and the two indices; one turn of
  the loop, which fails where a slice is out of bounds.
* **`splitLoop_eq`**: from any state the loop can be in, enough turns give what is left of the
  split; no slice is out of bounds.
* **`findSub_eq_some_iff`**: the search gives the least index of an occurrence.
* **`split_on_faithful`**: both, and what the segments are.

`SplitState.remaining` is the invariant: what the loop has found together with what is still to be
split. A turn either ends a segment and jumps behind the needle, or moves on by one byte; in both
cases the invariant stays and the distance to the end gets smaller, which gives the number of turns
that is enough (`splitLoop_eq`).
-/

namespace BuduWaf.Rules

/-! ## The loop -/

/-- `&h[a..b]`, which panics where the bounds are not in order or in the text. -/
def slice (h : Bytes) (a b : Nat) : Option Bytes :=
  if a ≤ b ∧ b ≤ h.length then some ((h.drop a).take (b - a)) else none

/-- `&h[a..]`, which panics where the bound is not in the text. -/
def sliceFrom (h : Bytes) (a : Nat) : Option Bytes := slice h a h.length

/-- What the loop keeps.
Source: `budu-rules/src/ruleset.rs` `split_on` -/
structure SplitState where
  /-- The segments so far. -/
  segs : List Bytes
  /-- Where the current segment starts. -/
  start : Nat
  /-- Where an occurrence is looked for. -/
  i : Nat

/-- One turn.
Source: `budu-rules/src/ruleset.rs` `split_on` (the loop body) -/
def splitStep (haystack needle : Bytes) (st : SplitState) : Option SplitState := do
  let window ← slice haystack st.i (st.i + needle.length)
  if window = needle then
    let seg ← slice haystack st.start st.i
    return ⟨st.segs ++ [seg], st.i + needle.length, st.i + needle.length⟩
  else return { st with i := st.i + 1 }

/-- The turns of the loop and the last segment; none after a panic, or where `fuel` turns are not
enough.
Source: `budu-rules/src/ruleset.rs` `split_on` -/
def splitLoop (haystack needle : Bytes) : (fuel : Nat) → SplitState → Option (List Bytes)
  | 0, _ => none
  | fuel + 1, st =>
    if st.i + needle.length ≤ haystack.length then
      (splitStep haystack needle st).bind (splitLoop haystack needle fuel)
    else (sliceFrom haystack st.start).map fun last => st.segs ++ [last]

/-- All of it.
Source: `budu-rules/src/ruleset.rs` `split_on` -/
def splitOnLoop (haystack needle : Bytes) (fuel : Nat) : Option (List Bytes) :=
  if needle.isEmpty then some [haystack] else splitLoop haystack needle fuel ⟨[], 0, 0⟩

/-! ## What it computes -/

/-- A slice within bounds does not panic. -/
theorem slice_eq_some {h : Bytes} {a b : Nat} (hab : a ≤ b) (hb : b ≤ h.length) :
    slice h a b = some ((h.drop a).take (b - a)) := if_pos ⟨hab, hb⟩

/-- The window at an index is the needle where the needle occurs there. -/
theorem window_eq_iff {haystack needle : Bytes} {i : Nat} :
    (haystack.drop i).take needle.length = needle ↔ needle <+: haystack.drop i :=
  ⟨fun h => h ▸ List.take_prefix _ _, fun h => (List.prefix_iff_eq_take.mp h).symm⟩

section loop

variable {haystack needle : Bytes} (hne : needle ≠ [])

/-- The indices are in order, and within the text. -/
structure SplitState.InBounds (haystack : Bytes) (st : SplitState) : Prop where
  /-- A segment does not start behind the index. -/
  start_le : st.start ≤ st.i
  /-- The index is within the text. -/
  i_le : st.i ≤ haystack.length

/-- What the loop still has to give: the segments so far, and those of the rest, of which the bytes
between the two indices are read already. -/
def SplitState.remaining (haystack needle : Bytes) (st : SplitState) : List Bytes :=
  st.segs ++ Str.splitSubFrom needle 0
    ((haystack.drop st.start).take (st.i - st.start)).reverse (haystack.drop st.i)

include hne

/-- **One turn** stays in bounds, moves on, and does not change what the loop has to give. -/
theorem splitStep_spec {st : SplitState} (hst : st.InBounds haystack)
    (hroom : st.i + needle.length ≤ haystack.length) :
    ∃ st', splitStep haystack needle st = some st' ∧ st'.InBounds haystack ∧ st.i < st'.i ∧
      st'.remaining haystack needle = st.remaining haystack needle := by
  have hpos := List.length_pos_iff.mpr hne
  have hwindow : slice haystack st.i (st.i + needle.length) =
      some ((haystack.drop st.i).take needle.length) := by
    rw [slice_eq_some (Nat.le_add_right _ _) hroom, Nat.add_sub_cancel_left]
  have hseg := slice_eq_some hst.start_le hst.i_le
  unfold splitStep
  rw [hwindow, Option.bind_eq_bind, Option.bind_some]
  by_cases hmatch : (haystack.drop st.i).take needle.length = needle
  · rw [if_pos hmatch, hseg, Option.bind_some]
    refine ⟨_, rfl, ⟨Nat.le_refl _, hroom⟩, Nat.lt_add_of_pos_right hpos, ?_⟩
    obtain ⟨rest, hrest⟩ := window_eq_iff.mp hmatch
    have hdrop : haystack.drop (st.i + needle.length) = rest := by
      rw [← List.drop_drop, ← hrest, List.drop_left]
    unfold SplitState.remaining
    rw [hdrop, ← hrest, Str.splitSubFrom_needle hne, List.reverse_reverse, Nat.sub_self,
      List.take_zero, List.append_assoc]
    rfl
  · rw [if_neg hmatch]
    have hlt : st.i < haystack.length := by omega
    refine ⟨_, rfl, ⟨Nat.le_succ_of_le hst.start_le, hlt⟩, Nat.lt_succ_self _, ?_⟩
    have hcons := List.drop_eq_getElem_cons hlt
    have hfront : ¬ needle <+: haystack[st.i] :: haystack.drop (st.i + 1) := by
      rw [← hcons]
      exact fun h => hmatch (window_eq_iff.mpr h)
    -- The byte at the index joins those read of the current segment.
    have hread : (haystack.drop st.start).take (st.i + 1 - st.start) =
        (haystack.drop st.start).take (st.i - st.start) ++ [haystack[st.i]] := by
      have hlength : st.i - st.start < (haystack.drop st.start).length := by
        have := hst.start_le
        rw [List.length_drop]
        omega
      have hat : (haystack.drop st.start)[st.i - st.start] = haystack[st.i] := by
        rw [List.getElem_drop]
        congr 1
        exact Nat.add_sub_cancel' hst.start_le
      have hsucc : st.i + 1 - st.start = st.i - st.start + 1 := Nat.succ_sub hst.start_le
      rw [hsucc, ← List.take_append_getElem hlength, hat]
    unfold SplitState.remaining
    rw [hcons, Str.splitSubFrom_cons hfront, hread, List.reverse_append]
    rfl

/-- **The loop** ends, without a panic, and gives that. -/
theorem splitLoop_eq {fuel : Nat} {st : SplitState} (hst : st.InBounds haystack)
    (hfuel : haystack.length - st.i < fuel) :
    splitLoop haystack needle fuel st = some (st.remaining haystack needle) := by
  induction fuel generalizing st with
  | zero => exact absurd hfuel (Nat.not_lt_zero _)
  | succ fuel ih =>
      unfold splitLoop
      by_cases hroom : st.i + needle.length ≤ haystack.length
      · obtain ⟨st', hstep, hst', hmoved, hremaining⟩ := splitStep_spec hne hst hroom
        have hpos := List.length_pos_iff.mpr hne
        rw [if_pos hroom, hstep, Option.bind_some, ih hst' (by omega), hremaining]
      · have hstart := hst.start_le
        have hend := hst.i_le
        have hnone : ¬ needle <:+: haystack.drop st.i := by
          intro hmem
          have hle := hmem.length_le
          rw [List.length_drop] at hle
          omega
        have hlast : (haystack.drop st.start).take (st.i - st.start) ++ haystack.drop st.i =
            haystack.drop st.start := by
          have hrest : haystack.drop st.i =
              (haystack.drop st.start).drop (st.i - st.start) := by
            rw [List.drop_drop, Nat.add_sub_cancel' hstart]
          rw [hrest, List.take_append_drop]
        unfold sliceFrom SplitState.remaining
        rw [if_neg hroom, slice_eq_some (hstart.trans hend) (Nat.le_refl _), Option.map_some,
          Str.splitSubFrom_uncut hnone, List.reverse_reverse, hlast]
        congr 3
        rw [List.take_of_length_le]
        rw [List.length_drop]

/-- **`split_on`** gives the pieces between the occurrences of the needle. -/
theorem splitOnLoop_eq {fuel : Nat} (hfuel : haystack.length < fuel) :
    splitOnLoop haystack needle fuel = some (splitOn haystack needle) := by
  have hempty : ¬ needle.isEmpty = true := by simpa using hne
  have hstart : (SplitState.mk [] 0 0).InBounds haystack := ⟨Nat.le_refl _, Nat.zero_le _⟩
  unfold splitOnLoop splitOn
  rw [if_neg hempty, if_neg hempty, splitLoop_eq hne hstart (by simpa using hfuel)]
  rfl

/-- **`find_sub`** gives the least index of an occurrence. -/
theorem findSub_eq_some_iff {i : Nat} : findSub haystack needle = some i ↔
    needle <+: haystack.drop i ∧ ∀ j < i, ¬ needle <+: haystack.drop j := by
  have hempty : needle.isEmpty = false := by simpa using hne
  have hlength : ∀ {j : Nat}, needle <+: haystack.drop j →
      j + needle.length ≤ haystack.length := by
    intro j hj
    have hle := hj.length_le
    have hpos := List.length_pos_iff.mpr hne
    rw [List.length_drop] at hle
    omega
  unfold findSub
  rw [hempty, Bool.false_or]
  by_cases hshort : haystack.length < needle.length
  · rw [if_pos (decide_eq_true hshort)]
    refine iff_of_false (by rintro ⟨⟩) fun h => ?_
    have := hlength h.1
    omega
  · rw [if_neg (by simpa using hshort), List.find?_range_eq_some]
    simp only [beq_iff_eq, window_eq_iff, List.mem_range, Bool.not_eq_true', beq_eq_false_iff_ne,
      ne_eq]
    constructor
    · rintro ⟨hi, -, hleast⟩
      exact ⟨hi, hleast⟩
    · rintro ⟨hi, hleast⟩
      have hle := hlength hi
      exact ⟨hi, by omega, hleast⟩

end loop

/-- **The split is faithful.** For every text and every needle that is not empty, the loop ends,
without a slice out of bounds, with segments that give the text when they are joined by the needle
and none of which contains the needle; and the search gives the least index at which the needle
occurs, if it occurs. -/
theorem split_on_faithful (haystack needle : Bytes) (hne : needle ≠ []) :
    (∀ fuel, haystack.length < fuel →
        splitOnLoop haystack needle fuel = some (splitOn haystack needle)) ∧
      needle.intercalate (splitOn haystack needle) = haystack ∧
      (∀ seg ∈ splitOn haystack needle, ¬ needle <:+: seg) ∧
      ∀ i, findSub haystack needle = some i ↔
        needle <+: haystack.drop i ∧ ∀ j < i, ¬ needle <+: haystack.drop j := by
  have hsplit : splitOn haystack needle = Str.splitSub needle haystack :=
    if_neg (by simpa using hne)
  refine ⟨fun fuel hfuel => splitOnLoop_eq hne hfuel, ?_, ?_, fun i => findSub_eq_some_iff hne⟩
  · rw [hsplit]
    exact Str.intercalate_splitSub hne haystack
  · rw [hsplit]
    exact Str.not_infix_of_mem_splitSub hne haystack

/-- A needle that overlaps itself: the occurrence at the front is passed over as a whole. -/
theorem split_on_overlapping :
    splitOnLoop [1, 1, 1, 2, 1] [1, 1] 6 = some (splitOn [1, 1, 1, 2, 1] [1, 1]) ∧
      findSub [1, 1, 1, 2, 1] [1, 1] = some 0 := by
  obtain ⟨hloop, -, -, hfind⟩ := split_on_faithful [1, 1, 1, 2, 1] [1, 1] (by decide)
  refine ⟨hloop 6 (by decide), (hfind 0).mpr ⟨by decide, ?_⟩⟩
  exact fun j hj => absurd hj (Nat.not_lt_zero j)

end BuduWaf.Rules
