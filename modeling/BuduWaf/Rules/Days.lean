import BuduWaf.Lib.Cyclic
import BuduWaf.Rules.Clock

/-!
# `budu-rules`: what a day specification denotes

A specification is a union: each item is a weekday or a cyclic range of weekdays, and the mask has
a bit for each day of the union.

* **`SpecDenotes`**: the days of a specification.
* **`RangeRuns`**, **`MaskRuns`**: the loops of the source as they run, the inner one without a
  bound. `maskRuns_iff`: they come to an end, with what the bounded walk gives.
* **`dayRange_hasDay`**: the walk from `a` passes the arc to `b`, since each step comes nearer.
* **`parse_day_mask_exact`**: the mask is that of the specification.

The inner loop of the source is a `loop` without a bound, and whether it ends at all is part of what
is shown: its runs are an inductive relation with one rule for each turn, there is exactly one run
from every state (`RangeRuns.unique`), and the bounded walk of `Rules/Compile` computes it. That the
walk ends is an induction on the distance to its last day, which each turn makes smaller by one.

What the mask denotes is compared day by day: a token adds the days that it denotes and no others
(`dayToken_hasDay`), and blank tokens add none.
-/

namespace BuduWaf.Rules

open Cyclic

/-! ## Specifications -/

/-- The weekdays by name, Sunday first. -/
def weekdayNames : List (Str × Nat) :=
  [(("sun" : Str), 0), ("sunday", 0), ("mon", 1), ("monday", 1), ("tue", 2), ("tues", 2),
    ("tuesday", 2), ("wed", 3), ("weds", 3), ("wednesday", 3), ("thu", 4), ("thur", 4),
    ("thurs", 4), ("thursday", 4), ("fri", 5), ("friday", 5), ("sat", 6), ("saturday", 6)]

/-- A weekday's name, in any case and with white space around it. -/
def IsWeekday (s : Str) (d : Nat) : Prop :=
  weekdayNames.lookup (Str.toAsciiLowercase (Str.trim s)) = some d

/-- An item denotes the day it names, or the days from its first one to its last one. -/
def ItemDenotes (item : Str) (d : Nat) : Prop :=
  IsWeekday item d ∨ ∃ a b first last, item = a ++ '-' :: b ∧ IsWeekday a first ∧
    IsWeekday b last ∧ d < 7 ∧ OnArc 7 first last d

/-- A specification denotes what its items do. -/
def SpecDenotes (s : Str) (d : Nat) : Prop := ∃ item ∈ s.splitOn ',', ItemDenotes (Str.trim item) d

/-- The bit of a day is set in a mask. -/
def HasDay (mask : UInt8) (d : Nat) : Prop := mask.toNat.testBit d = true

/-- `parse_day_name` looks the trimmed, folded text up in the table of weekday names. -/
theorem parseDayName_eq (s : Str) :
    parseDayName s = weekdayNames.lookup (Str.toAsciiLowercase (Str.trim s)) := by
  by_cases hname : Str.toAsciiLowercase (Str.trim s) ∈ dayNames
  · have hall : (dayNames.all fun name =>
        [[("sun" : Str), "sunday"], ["mon", "monday"], ["tue", "tues", "tuesday"],
          ["wed", "weds", "wednesday"], ["thu", "thur", "thurs", "thursday"], ["fri", "friday"],
          ["sat", "saturday"]].findIdx? (fun names => names.contains name) ==
        weekdayNames.lookup name) = true := by decide +kernel
    exact eq_of_beq (List.all_eq_true.mp hall _ hname)
  · have hnone : parseDayName s = none := by
      rw [← Option.not_isSome_iff_eq_none, Option.isSome_iff_exists]
      exact fun h => hname (exists_parseDayName_iff.mp h)
    have hkeys : (weekdayNames.all fun p => List.contains dayNames p.1) = true := by decide +kernel
    have hlookup : weekdayNames.lookup (Str.toAsciiLowercase (Str.trim s)) = none := by
      rw [List.lookup_eq_none_iff]
      intro p hp
      have hmem := List.all_eq_true.mp hkeys p hp
      simp only [List.contains_eq_mem, decide_eq_true_eq] at hmem
      rw [bne_iff_ne]
      intro h
      exact hname (h ▸ hmem)
    rw [hnone, hlookup]

/-- `parse_day_name` gives `d` exactly for the names of day `d`. -/
theorem parseDayName_eq_some_iff {s : Str} {d : Nat} : parseDayName s = some d ↔ IsWeekday s d := by
  rw [parseDayName_eq]
  exact Iff.rfl

/-- A weekday is one of seven, counted from Sunday. -/
theorem IsWeekday.lt {s : Str} {d : Nat} (h : IsWeekday s d) : d < 7 :=
  lt_of_parseDayName (parseDayName_eq_some_iff.mpr h)

/-- The name of a weekday has no dash, so a range is cut in one place only. -/
theorem IsWeekday.notMem {s : Str} {d : Nat} (h : IsWeekday s d) : '-' ∉ s :=
  (exists_parseDayName_iff.mp ⟨d, parseDayName_eq_some_iff.mpr h⟩).notMem

/-! ## The loops -/

/-- A run of the inner loop from day `d`, which is left only at day `b`.
Source: `budu-rules/src/ruleset.rs` `parse_day_mask` (the inner loop) -/
inductive RangeRuns (b : Nat) : (d : Nat) → (mask mask' : UInt8) → Prop
  | stop (mask : UInt8) : RangeRuns b b mask (mask ||| dayBit b)
  | next {d : Nat} {mask mask' : UInt8} (hne : d ≠ b) :
      RangeRuns b ((d + 1) % 7) (mask ||| dayBit d) mask' → RangeRuns b d mask mask'

/-- A run of one iteration of the outer loop; `none` where it returns early.
Source: `budu-rules/src/ruleset.rs` `parse_day_mask` (the outer loop body) -/
def TokenRuns (mask : UInt8) (tok : Str) (r : Option UInt8) : Prop :=
  if (Str.trim tok).isEmpty then r = some mask
  else
    match Str.splitOnce '-' (Str.trim tok) with
    | some (a, b) =>
      match parseDayName a, parseDayName b with
      | some a, some b => ∃ mask', RangeRuns b a mask mask' ∧ r = some mask'
      | _, _ => r = none
    | none => r = (parseDayName (Str.trim tok)).map fun d => mask ||| dayBit d

/-- A run of the outer loop.
Source: `budu-rules/src/ruleset.rs` `parse_day_mask` (the outer loop) -/
def TokensRun : (toks : List Str) → UInt8 → Option UInt8 → Prop
  | [], mask, r => r = some mask
  | tok :: toks, mask, r =>
    TokenRuns mask tok none ∧ r = none ∨
      ∃ mask', TokenRuns mask tok (some mask') ∧ TokensRun toks mask' r

/-- A run of the whole function.
Source: `budu-rules/src/ruleset.rs` `parse_day_mask` -/
def MaskRuns (s : Str) (r : Option UInt8) : Prop :=
  ∃ mask, TokensRun (s.splitOn ',') 0 mask ∧ r = mask.filter (· ≠ 0)

/-! ## The walk from day to day -/

/-- The next day on the circle of the week is one step further. -/
theorem distance_nextDay (d b : Nat) :
    distance 7 (((d + 1) % 7 : Nat) : Int) b = distance 7 ((d : Int) + 1) b := by
  rw [← distance_emod_left 7 ((d : Int) + 1)]
  congr 1

/-- The day after `d`, taken within the week, begins the arc that `d + 1` begins. -/
theorem onArc_nextDay (d b e : Nat) :
    OnArc 7 (((d + 1) % 7 : Nat) : Int) b e ↔ OnArc 7 ((d : Int) + 1) b e := by
  unfold OnArc
  rw [distance_nextDay, distance_nextDay]

/-- Between two days there are no days exactly where they are the same. -/
theorem distance_days_eq_zero_iff {d b : Nat} (hd : d < 7) (hb : b < 7) :
    distance 7 d b = 0 ↔ d = b := by
  rw [distance_eq_zero_iff (by omega) (by omega) (by omega) (by omega), Int.ofNat_inj]

/-- The walk steps on as long as it has not met its end. -/
theorem dayRange_of_ne {b d steps : Nat} (h : d ≠ b) (mask : UInt8) :
    dayRange b (steps + 1) d mask = dayRange b steps ((d + 1) % 7) (mask ||| dayBit d) := if_neg h

/-- The loop ends at its last day, with the bit of that day. -/
theorem dayRange_self (b steps : Nat) (mask : UInt8) :
    dayRange b (steps + 1) b mask = mask ||| dayBit b := if_pos rfl

/-- Enough steps are left for the walk from the next day. -/
theorem distance_nextDay_lt {b d steps : Nat} (hd : d < 7) (hb : b < 7) (hne : d ≠ b)
    (hsteps : distance 7 d b < (steps + 1 : Nat)) :
    distance 7 (((d + 1) % 7 : Nat) : Int) b < steps := by
  have hzero : distance 7 (d : Int) b ≠ 0 := fun h => hne ((distance_days_eq_zero_iff hd hb).mp h)
  rw [distance_nextDay, distance_step (by decide) hzero]
  omega

/-- **The inner loop comes to its end**, with what the bounded walk gives. -/
theorem rangeRuns_dayRange {b : Nat} (hb : b < 7) {steps : Nat} :
    ∀ {d : Nat} (mask : UInt8), d < 7 → distance 7 d b < (steps : Nat) →
      RangeRuns b d mask (dayRange b steps d mask) := by
  induction steps with
  | zero =>
      intro d mask hd hsteps
      have hnonneg := distance_nonneg (by decide : (0 : Int) < 7) d b
      omega
  | succ steps ih =>
      intro d mask hd hsteps
      by_cases heq : d = b
      · subst heq
        rw [dayRange_self]
        exact .stop mask
      · rw [dayRange_of_ne heq]
        have hleft := distance_nextDay_lt hd hb heq hsteps
        exact .next heq (ih _ (Nat.mod_lt _ (by decide)) hleft)

/-- The inner loop comes to one end only. -/
theorem RangeRuns.unique {b d : Nat} {mask r r' : UInt8} (h : RangeRuns b d mask r)
    (h' : RangeRuns b d mask r') : r = r' := by
  induction h with
  | stop mask =>
      cases h' with
      | stop => rfl
      | next hne _ => exact absurd rfl hne
  | next hne _ ih =>
      cases h' with
      | stop => exact absurd rfl hne
      | next _ h' => exact ih h'

/-- The inner loop ends with what seven steps of `dayRange` give. -/
theorem rangeRuns_iff {a b : Nat} (ha : a < 7) (hb : b < 7) (mask r : UInt8) :
    RangeRuns b a mask r ↔ r = dayRange b 7 a mask := by
  have hsteps : distance 7 a b < (7 : Nat) := distance_lt (by decide) a b
  have hruns := rangeRuns_dayRange hb mask ha hsteps
  constructor
  · intro h
    exact h.unique hruns
  · rintro rfl
    exact hruns

/-- The runs of the loop over a token are exactly what `dayToken` computes. -/
theorem tokenRuns_iff (mask : UInt8) (tok : Str) (r : Option UInt8) :
    TokenRuns mask tok r ↔ r = dayToken mask tok := by
  unfold TokenRuns dayToken
  dsimp only
  by_cases hblank : (Str.trim tok).isEmpty = true
  · rw [if_pos hblank, if_pos hblank]
  · rw [if_neg hblank, if_neg hblank]
    cases Str.splitOnce '-' (Str.trim tok) with
    | none => exact Iff.rfl
    | some p =>
        obtain ⟨a, b⟩ := p
        dsimp only
        cases ha : parseDayName a with
        | none => exact Iff.rfl
        | some first =>
            cases hb : parseDayName b with
            | none => exact Iff.rfl
            | some last =>
                simp only [rangeRuns_iff (lt_of_parseDayName ha) (lt_of_parseDayName hb),
                  exists_eq_left]
                exact Iff.rfl

/-- The runs over the tokens are exactly what the fold computes. -/
theorem tokensRun_iff (toks : List Str) (mask : UInt8) (r : Option UInt8) :
    TokensRun toks mask r ↔ r = toks.foldlM dayToken mask := by
  induction toks generalizing mask with
  | nil => exact Iff.rfl
  | cons tok toks ih =>
      unfold TokensRun
      simp only [tokenRuns_iff, ih, List.foldlM_cons]
      cases dayToken mask tok with
      | none => simp
      | some mask' => simp

/-- **The function comes to its end**, with what the bounded walk gives. -/
theorem maskRuns_iff (s : Str) (r : Option UInt8) : MaskRuns s r ↔ r = parseDayMask s := by
  unfold MaskRuns parseDayMask
  simp only [tokensRun_iff, exists_eq_left]

/-! ## The days of a mask -/

/-- The empty mask has no day. -/
theorem hasDay_zero (d : Nat) : ¬ HasDay 0 d := by simp [HasDay]

/-- A mask with the bit of a day has that day more. -/
theorem hasDay_or_dayBit {d : Nat} (hd : d < 7) (mask : UInt8) (e : Nat) :
    HasDay (mask ||| dayBit d) e ↔ HasDay mask e ∨ e = d := by
  have hbit : ∀ d < 7, (dayBit d).toNat = 2 ^ d := by decide
  unfold HasDay
  rw [UInt8.toNat_or, Nat.testBit_or, hbit d hd, Nat.testBit_two_pow, Bool.or_eq_true,
    decide_eq_true_eq, eq_comm (a := d)]

/-- **Adding a range** adds the days of its arc. -/
theorem dayRange_hasDay {b : Nat} (hb : b < 7) {steps : Nat} :
    ∀ {d : Nat} (mask : UInt8), d < 7 → distance 7 d b < (steps : Nat) → ∀ e,
      HasDay (dayRange b steps d mask) e ↔ HasDay mask e ∨ e < 7 ∧ OnArc 7 d b e := by
  induction steps with
  | zero =>
      intro d mask hd hsteps
      have hnonneg := distance_nonneg (by decide : (0 : Int) < 7) d b
      omega
  | succ steps ih =>
      intro d mask hd hsteps e
      have hfirst : e = d ↔ e < 7 ∧ distance 7 d e = 0 := by
        constructor
        · rintro rfl
          exact ⟨hd, distance_self 7 _⟩
        · rintro ⟨he, hzero⟩
          exact ((distance_days_eq_zero_iff hd he).mp hzero).symm
      by_cases heq : d = b
      · subst heq
        rw [dayRange_self, hasDay_or_dayBit hd, hfirst,
          onArc_end_iff (by decide) (distance_self 7 _)]
      · have hzero : distance 7 (d : Int) b ≠ 0 :=
          fun h => heq ((distance_days_eq_zero_iff hd hb).mp h)
        have hleft := distance_nextDay_lt hd hb heq hsteps
        rw [dayRange_of_ne heq, ih _ (Nat.mod_lt _ (by decide)) hleft, hasDay_or_dayBit hd, hfirst,
          onArc_nextDay, onArc_step_iff (by decide) hzero]
        tauto

/-- A token adds to the mask the days it denotes, and no others. -/
theorem dayToken_hasDay {mask mask' : UInt8} {tok : Str} (h : dayToken mask tok = some mask')
    (e : Nat) : HasDay mask' e ↔ HasDay mask e ∨ ItemDenotes (Str.trim tok) e := by
  unfold dayToken at h
  dsimp only at h
  by_cases hblank : (Str.trim tok).isEmpty = true
  · rw [if_pos hblank] at h
    obtain rfl := Option.some.inj h
    have hnil : Str.trim tok = [] := List.isEmpty_iff.mp hblank
    have hnothing : ¬ ItemDenotes (Str.trim tok) e := by
      rw [hnil]
      rintro (hday | ⟨a, b, -, -, hcut, -⟩)
      · cases hday
      · exact absurd hcut.symm (List.append_ne_nil_of_right_ne_nil _ (List.cons_ne_nil _ _))
    exact (or_iff_left hnothing).symm
  · rw [if_neg hblank] at h
    cases hcut : Str.splitOnce '-' (Str.trim tok) with
    | none =>
        rw [hcut] at h
        obtain ⟨d, hd, rfl⟩ := Option.map_eq_some_iff.mp h
        have hminus := Str.splitOnce_eq_none_iff.mp hcut
        have hitem : ItemDenotes (Str.trim tok) e ↔ e = d := by
          constructor
          · rintro (hday | ⟨a, b, -, -, hrange, -⟩)
            · exact Option.some.inj ((parseDayName_eq_some_iff.mpr hday).symm.trans hd)
            · rw [hrange] at hminus
              exact absurd (List.mem_append_right a List.mem_cons_self) hminus
          · rintro rfl
            exact Or.inl (parseDayName_eq_some_iff.mp hd)
        rw [hasDay_or_dayBit (lt_of_parseDayName hd), hitem]
    | some p =>
        obtain ⟨a, b⟩ := p
        rw [hcut] at h
        obtain ⟨first, hfirst, h⟩ := Option.bind_eq_some_iff.mp h
        obtain ⟨last, hlast, h⟩ := Option.bind_eq_some_iff.mp h
        obtain rfl := Option.some.inj h
        obtain ⟨hs, hminus⟩ := Str.splitOnce_eq_some_iff.mp hcut
        have hitem : ItemDenotes (Str.trim tok) e ↔ e < 7 ∧ OnArc 7 first last e := by
          constructor
          · rintro (hday | ⟨a', b', i, j, hrange, hi, hj, he, harc⟩)
            · exact absurd (hs ▸ List.mem_append_right a List.mem_cons_self) hday.notMem
            · have hcut' := Str.splitOnce_append hi.notMem b'
              rw [← hrange, hcut] at hcut'
              obtain ⟨rfl, rfl⟩ := Prod.mk.inj (Option.some.inj hcut')
              obtain rfl := Option.some.inj (hfirst.symm.trans (parseDayName_eq_some_iff.mpr hi))
              obtain rfl := Option.some.inj (hlast.symm.trans (parseDayName_eq_some_iff.mpr hj))
              exact ⟨he, harc⟩
          · rintro ⟨he, harc⟩
            exact Or.inr ⟨a, b, first, last, hs, parseDayName_eq_some_iff.mp hfirst,
              parseDayName_eq_some_iff.mp hlast, he, harc⟩
        have hsteps : distance 7 first last < (7 : Nat) := distance_lt (by decide) _ _
        rw [dayRange_hasDay (lt_of_parseDayName hlast) mask (lt_of_parseDayName hfirst) hsteps,
          hitem]

/-- The tokens add the days they denote. -/
theorem foldlM_hasDay {toks : List Str} {mask mask' : UInt8}
    (h : toks.foldlM dayToken mask = some mask') (e : Nat) :
    HasDay mask' e ↔ HasDay mask e ∨ ∃ tok ∈ toks, ItemDenotes (Str.trim tok) e := by
  induction toks generalizing mask with
  | nil =>
      obtain rfl := Option.some.inj h
      simp
  | cons tok toks ih =>
      rw [List.foldlM_cons] at h
      obtain ⟨mask₁, hstep, hrest⟩ := Option.bind_eq_some_iff.mp h
      rw [ih hrest, dayToken_hasDay hstep, or_assoc, List.exists_mem_cons_iff]

/-- An item denotes days of the week only. -/
theorem ItemDenotes.lt {item : Str} {d : Nat} (h : ItemDenotes item d) : d < 7 := by
  rcases h with hday | ⟨_, _, _, _, -, -, -, hd, -⟩
  · exact hday.lt
  · exact hd

/-- **A day specification is read as the union it denotes.** For every text the function comes to
its end, and if all items are weekdays or ranges and there is one, it gives a mask with the bits of
the days they denote, all of them below seven; else it gives none. -/
theorem parse_day_mask_exact (s : Str) :
    (∀ r, MaskRuns s r ↔ r = parseDayMask s) ∧
      ((IsDaySpec s ∧ ∃ mask, parseDayMask s = some mask ∧
          ∀ d, HasDay mask d ↔ d < 7 ∧ SpecDenotes s d) ∨
        (¬ IsDaySpec s ∧ parseDayMask s = none)) := by
  refine ⟨maskRuns_iff s, ?_⟩
  by_cases hspec : IsDaySpec s
  · obtain ⟨mask, hmask⟩ := exists_parseDayMask_iff.mpr hspec
    refine Or.inl ⟨hspec, mask, hmask, ?_⟩
    intro d
    have hfold := (Option.filter_eq_some_iff.mp hmask).1
    rw [foldlM_hasDay hfold, or_iff_right (hasDay_zero d)]
    constructor
    · rintro ⟨item, hitem, hdenotes⟩
      exact ⟨hdenotes.lt, item, hitem, hdenotes⟩
    · rintro ⟨-, hdenotes⟩
      exact hdenotes
  · refine Or.inr ⟨hspec, ?_⟩
    rw [← Option.not_isSome_iff_eq_none, Option.isSome_iff_exists]
    exact fun h => hspec (exists_parseDayMask_iff.mp h)

/-- A range that passes the end of the week. -/
example : parseDayMask "Fri-mon" = some 0x63 := by decide +kernel

end BuduWaf.Rules
