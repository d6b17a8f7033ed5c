import BuduWaf.Lib.Cyclic
import BuduWaf.Lib.Decimal
import BuduWaf.Rules.Evaluate
import Mathlib.Logic.Function.Iterate

/-!
# `budu-rules`: the local clock

`time_between` sees the minute of the UTC day and `day_of_week` the minute since the epoch. Both add
the offset for themselves, and take quotient or rest by the day.

* **`localMinute`**, **`localDay`**, **`dayOfWeek`**: the clock on the wall of a place that is
  `offset` minutes ahead of UTC, and the calendar that hangs next to it.
* **`inWindow_iff`**: a window is an arc of the day, passed from its start to its end.
* **`weekday_eq`**: the weekday is that of the local day.
* **`local_clock_shared`**: so both operators read one clock, and the weekday changes at its
  midnight.

A weekday is defined by counting days from a known one, forwards and backwards, one at a time, and
not by a formula. The formula of the code is then a theorem (`weekday_eq`), by induction on the
number of days, and so is the minute's being that of the same day. Offsets are any integers; the
bounds of a window are minutes of a day.
-/

namespace BuduWaf.Rules

open Cyclic

/-! ## The clock on the wall -/

/-- The minute of the local day at an instant. -/
def localMinute (t offset : Int) : Int := (t + offset) % 1440

/-- The local day, counted from 1970-01-01. -/
def localDay (t offset : Int) : Int := (t + offset) / 1440

/-- Thursday, where Sunday is zero: the first day of the epoch. -/
def thursday : Nat := 4

/-- The weekday after a weekday. -/
def nextWeekday (d : Nat) : Nat := (d + 1) % 7

/-- The weekday before a weekday. -/
def previousWeekday (d : Nat) : Nat := (d + 6) % 7

/-- The weekday of a day, counted from Thursday 1970-01-01, forwards and backwards. -/
def dayOfWeek : Int → Nat
  | .ofNat days => nextWeekday^[days] thursday
  | .negSucc days => previousWeekday^[days + 1] thursday

/-- So many days after a Thursday the weekday is `(days + 4) % 7`. -/
theorem nextWeekday_iterate (days : Nat) : nextWeekday^[days] thursday = (days + 4) % 7 := by
  induction days with
  | zero => rfl
  | succ days ih =>
      rw [Function.iterate_succ_apply', ih, nextWeekday]
      omega

/-- So many days before a Thursday the weekday is `(days * 6 + 4) % 7`. -/
theorem previousWeekday_iterate (days : Nat) :
    previousWeekday^[days] thursday = (days * 6 + 4) % 7 := by
  induction days with
  | zero => rfl
  | succ days ih =>
      rw [Function.iterate_succ_apply', ih, previousWeekday]
      omega

/-- The weekday of day `n` since Thursday 1970-01-01 is `(n + 4) % 7`. -/
theorem dayOfWeek_eq (day : Int) : (dayOfWeek day : Int) = (day + 4) % 7 := by
  cases day with
  | ofNat days =>
      have hforwards := nextWeekday_iterate days
      rw [dayOfWeek, hforwards, Int.ofNat_eq_natCast]
      omega
  | negSucc days =>
      have hbackwards := previousWeekday_iterate (days + 1)
      rw [dayOfWeek, hbackwards, Int.negSucc_eq]
      omega

/-- The calendar from one day to the next. -/
theorem dayOfWeek_succ (day : Int) : dayOfWeek (day + 1) = nextWeekday (dayOfWeek day) := by
  have hday := dayOfWeek_eq day
  have hnext := dayOfWeek_eq (day + 1)
  unfold nextWeekday
  omega

/-- The weekday after a weekday is another one. -/
theorem nextWeekday_ne (d : Nat) : nextWeekday d ≠ d := by
  unfold nextWeekday
  omega

/-- The clock from one minute to the next: the day is over after its last minute. -/
theorem localDay_succ (t offset : Int) :
    localDay (t + 1) offset =
      if localMinute (t + 1) offset = 0 then localDay t offset + 1 else localDay t offset := by
  unfold localDay localMinute
  split
  · omega
  · omega

/-! ## The operators -/

/-- **A window is an arc of the local day.** -/
theorem inWindow_iff {nowUtc start finish : Nat} (hstart : start < 1440) (hfinish : finish < 1440)
    (offset : Int) :
    inWindow nowUtc start finish offset = true ↔
      OnArc 1440 start finish (localMinute nowUtc offset) := by
  unfold inWindow localMinute
  obtain ⟨minute, hminute⟩ : ∃ minute : Nat, ((nowUtc : Int) + offset) % 1440 = minute :=
    Int.eq_ofNat_of_zero_le (Int.emod_nonneg _ (by decide))
  have hday : minute < 1440 := by
    have hlt := Int.emod_lt_of_pos ((nowUtc : Int) + offset) (by decide : (0 : Int) < 1440)
    omega
  rw [hminute]
  by_cases hle : start ≤ finish
  · rw [onArc_iff_of_le (by omega) (by omega) (by omega) (by omega) (by omega)]
    simp [hle]
  · rw [onArc_iff_of_lt (by omega) (by omega) (by omega) (by omega) (by omega)]
    simp [hle]

/-- **The weekday is that of the local day.** -/
theorem weekday_eq (t offset : Int) : weekday t offset = dayOfWeek (localDay t offset) := by
  have hcalendar := dayOfWeek_eq (localDay t offset)
  unfold weekday
  unfold localDay at hcalendar ⊢
  omega

/-- The minute of the UTC day is that of the epoch minute. -/
theorem localMinute_utc (t : Nat) (offset : Int) :
    localMinute ((t % 1440 : Nat) : Int) offset = localMinute t offset := by
  unfold localMinute
  omega

/-- The weekday changes where the local day does, and to the next one. -/
theorem weekday_succ (t offset : Int) :
    weekday (t + 1) offset =
      if localMinute (t + 1) offset = 0 then nextWeekday (weekday t offset)
      else weekday t offset := by
  rw [weekday_eq, weekday_eq, localDay_succ]
  split
  · exact dayOfWeek_succ _
  · rfl

/-! ## The conditions -/

variable {X : Crates}

/-- What `time` reads is the minute of the day that `day` reads. -/
theorem utcMinutesNow_eq (now : Now) : utcMinutesNow now = utcEpochMinutes now % 1440 := by
  unfold utcMinutesNow utcEpochMinutes
  omega

/-- A `time_between` condition tests the local minute. -/
theorem evalOp_timeBetween {start finish : Nat} (hstart : start < 1440) (hfinish : finish < 1440)
    (offset : Int) (now : Now) :
    evalOp (X := X) (.timeBetween start finish offset) (Str.ofNat (utcMinutesNow now)) = true ↔
      OnArc 1440 start finish (localMinute (utcEpochMinutes now) offset) := by
  have hfits : utcMinutesNow now < 2 ^ 16 := by
    rw [utcMinutesNow_eq]
    omega
  have hread : Str.parseUInt 16 (Str.trim (Str.ofNat (utcMinutesNow now))) =
      some (utcMinutesNow now) := by
    rw [Str.trim_ofNat, Str.parseUInt_ofNat, if_pos hfits]
  show (Str.parseUInt 16 _).any _ = true ↔ _
  rw [hread, Option.any_some, inWindow_iff hstart hfinish, utcMinutesNow_eq, localMinute_utc]

/-- A `day_of_week` condition tests the weekday of the local day, as long as the clock's seconds
are 64 bits. -/
theorem evalOp_dayOfWeek (mask : UInt8) (offset : Int) {now : Now} (hnow : now.wall < 2 ^ 64) :
    evalOp (X := X) (.dayOfWeek mask offset) (Str.ofNat (utcEpochMinutes now)) = true ↔
      mask &&& dayBit (dayOfWeek (localDay (utcEpochMinutes now) offset)) ≠ 0 := by
  have hfits : utcEpochMinutes now < 2 ^ 63 := by
    unfold utcEpochMinutes
    omega
  have hread : Str.parseInt 64 (Str.trim (Str.ofNat (utcEpochMinutes now))) =
      some (utcEpochMinutes now : Int) := by
    rw [Str.trim_ofNat, Str.parseInt_ofNat, if_pos hfits]
  show numericTest _ _ = true ↔ _
  rw [numericTest, hread, Option.any_some, weekday_eq, bne_iff_ne]

/-! ## One clock -/

/-- **Both operators read one local clock**: at every minute and for every offset, a window is an
arc of the local day, the weekday is that of the local day, and it changes when the local minute is
zero and at no other time. The conditions that are evaluated test these, as long as the clock's
seconds are 64 bits. -/
theorem local_clock_shared (X : Crates) (t : Nat) (offset : Int) :
    (∀ start finish : Fin 1440, inWindow (t % 1440) start finish offset = true ↔
      OnArc 1440 start.val finish.val (localMinute t offset)) ∧
    weekday t offset = dayOfWeek (localDay t offset) ∧
    (weekday (t + 1) offset ≠ weekday t offset ↔ localMinute (t + 1) offset = 0) ∧
    (weekday (t + 1) offset = nextWeekday (weekday t offset) ↔
      localMinute (t + 1) offset = 0) ∧
    ∀ now : Now, utcEpochMinutes now = t →
      (∀ start finish : Fin 1440,
        evalOp (X := X) (.timeBetween start finish offset) (Str.ofNat (utcMinutesNow now)) = true ↔
          OnArc 1440 start.val finish.val (localMinute t offset)) ∧
      (now.wall < 2 ^ 64 → ∀ mask,
        evalOp (X := X) (.dayOfWeek mask offset) (Str.ofNat (utcEpochMinutes now)) = true ↔
          mask &&& dayBit (dayOfWeek (localDay t offset)) ≠ 0) := by
  refine ⟨?_, weekday_eq t offset, ?_, ?_, ?_⟩
  · intro start finish
    rw [inWindow_iff start.isLt finish.isLt, localMinute_utc]
  · rw [weekday_succ]
    split
    · exact iff_of_true (nextWeekday_ne _) ‹_›
    · exact iff_of_false (fun h => h rfl) ‹_›
  · rw [weekday_succ]
    split
    · exact iff_of_true rfl ‹_›
    · exact iff_of_false (Ne.symm (nextWeekday_ne _)) ‹_›
  · rintro now rfl
    exact ⟨fun start finish => evalOp_timeBetween start.isLt finish.isLt offset now,
      fun hnow mask => evalOp_dayOfWeek mask offset hnow⟩

end BuduWaf.Rules
