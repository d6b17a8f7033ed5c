import BuduWaf.Rules.Clock

/-!
# `budu-rules`: arithmetic on what times and offsets are read as

The readers of times and offsets compute `then_some`'s argument before they know whether its
condition holds, so the arithmetic meets every number the texts can hold. A build with overflow
checks stops there; one without them wraps, and the condition refuses the result.

* **`parseTimeWindowChecked`**, **`parseTzOffsetChecked`**: the readers in a build with checks. What
  they give without stopping is what the readers give (`parseTimeWindow_of_checked`,
  `parseTzOffset_of_checked`).
* **`WindowSafe`**, **`TzSafe`**: no overflow, results within a day, and numbers that are out of
  range or have two signs refused.
* **`clock_texts_safe_iff`**: which texts the readers treat so. Numbers in the hundreds overflow,
  and an offset may hide a sign behind its sign.

A text is reduced to the numbers that are read of it, or to their absence (`timeNumbers`). Both
readers are then functions of these numbers, and every question about them is one of linear
arithmetic on two or three bounded integers. The window and the offset are treated apart; the
theorem is the conjunction.

Scope: arithmetic with checks is that of the debug and test profiles. In the release profile the
same sums wrap, which is what `Rules/Compile` models.
-/

namespace BuduWaf.Rules

/-! ## Builds with overflow checks -/

/-- A computation does not fit its machine integer. -/
inductive Overflow where
  | overflow
deriving DecidableEq

/-- A result that has to fit into a `u16`, as a build with overflow checks asks. -/
def checkedU16 (n : Nat) : Except Overflow Nat :=
  if n < 2 ^ 16 then .ok n else .error .overflow

/-- A result that has to fit into an `i16`, as a build with overflow checks asks. -/
def checkedI16 (n : Int) : Except Overflow Int :=
  if -2 ^ 15 ≤ n ∧ n < 2 ^ 15 then .ok n else .error .overflow

section checked

variable {α : Type}

/-- A result that fits is gone on with. -/
theorem checkedU16_bind {n : Nat} (h : n < 2 ^ 16) (f : Nat → Except Overflow α) :
    (checkedU16 n >>= f) = f n := by
  rw [checkedU16, if_pos h]
  rfl

/-- A number that does not fit into a `u16` ends the evaluation. -/
theorem checkedU16_bind_of_not {n : Nat} (h : ¬ n < 2 ^ 16) (f : Nat → Except Overflow α) :
    (checkedU16 n >>= f) = .error .overflow := by
  rw [checkedU16, if_neg h]
  rfl

/-- A checked number that fits is gone on with. -/
theorem checkedI16_bind {n : Int} (h : -2 ^ 15 ≤ n ∧ n < 2 ^ 15) (f : Int → Except Overflow α) :
    (checkedI16 n >>= f) = f n := by
  rw [checkedI16, if_pos h]
  rfl

/-- A checked number that does not fit overflows. -/
theorem checkedI16_bind_of_not {n : Int} (h : ¬ (-2 ^ 15 ≤ n ∧ n < 2 ^ 15))
    (f : Int → Except Overflow α) : (checkedI16 n >>= f) = .error .overflow := by
  rw [checkedI16, if_neg h]
  rfl

end checked

/-- Hours and minutes as they are written.
Source: `budu-rules/src/ruleset.rs` `parse_hhmm` -/
def timeTexts (s : Str) : Option (Str × Str) :=
  (Str.splitOnce ':' (Str.trim s)).or (Str.splitOnce '.' (Str.trim s))

/-- Minutes since midnight, in a build with overflow checks.
Source: `budu-rules/src/ruleset.rs` `parse_hhmm` -/
def parseHhmmChecked (s : Str) : Except Overflow (Option Nat) :=
  match timeTexts s with
  | none => .ok none
  | some (h, m) =>
    match Str.parseUInt 16 (Str.trim h), Str.parseUInt 16 (Str.trim m) with
    | some h, some m => do
      let minutes ← checkedU16 (h * 60)
      let minutes ← checkedU16 (minutes + m)
      return if h ≤ 23 ∧ m ≤ 59 then some minutes else none
    | _, _ => .ok none

/-- A time window, in a build with overflow checks.
Source: `budu-rules/src/ruleset.rs` `parse_time_window` -/
def parseTimeWindowChecked (s : Str) : Except Overflow (Option (Nat × Nat)) :=
  match Str.splitOnce '-' s with
  | none => .ok none
  | some (a, b) => do
    match ← parseHhmmChecked a with
    | none => return none
    | some start =>
      match ← parseHhmmChecked b with
      | none => return none
      | some finish => return some (start, finish)

/-- Hours and minutes behind the sign of an offset as they are written.
Source: `budu-rules/src/ruleset.rs` `parse_tz_offset` -/
def offsetTexts (s : Str) : Str × Str :=
  (Str.splitOnce ':' (afterSign (afterUtc (Str.trim s)))).getD
    (afterSign (afterUtc (Str.trim s)), "0")

/-- The sign of an offset.
Source: `budu-rules/src/ruleset.rs` `parse_tz_offset` -/
def offsetSign (s : Str) : Int := signOf (afterUtc (Str.trim s))

/-- A timezone offset, in a build with overflow checks.
Source: `budu-rules/src/ruleset.rs` `parse_tz_offset` -/
def parseTzOffsetChecked (s : Str) : Except Overflow (Option Int) :=
  if (Str.trim s).isEmpty then .ok (some 0)
  else if (afterUtc (Str.trim s)).isEmpty then .ok (some 0)
  else
    match Str.parseInt 16 (Str.trim (offsetTexts s).1),
      Str.parseInt 16 (Str.trim (offsetTexts s).2) with
    | some h, some m => do
      let minutes ← checkedI16 (h * 60)
      let minutes ← checkedI16 (minutes + m)
      let minutes ← checkedI16 (offsetSign s * minutes)
      return if h ≤ 14 ∧ m ≤ 59 then some minutes else none
    | _, _ => .ok none

/-! ## Times of day -/

/-- What the hours and the minutes of a time of day are read as. -/
def timeNumbers (s : Str) : Option (Nat × Nat) := do
  let (h, m) ← timeTexts s
  let h ← Str.parseUInt 16 (Str.trim h)
  let m ← Str.parseUInt 16 (Str.trim m)
  return (h, m)

/-- The minutes of a time of day fit, whether or not it is one. -/
def TimeFits (s : Str) : Prop := ∀ h m, timeNumbers s = some (h, m) → 60 * h + m < 2 ^ 16

/-- The numbers of a time are those its two texts are read as. -/
theorem timeNumbers_eq_some_iff {s : Str} {h m : Nat} :
    timeNumbers s = some (h, m) ↔ ∃ a b, timeTexts s = some (a, b) ∧
      Str.parseUInt 16 (Str.trim a) = some h ∧ Str.parseUInt 16 (Str.trim b) = some m := by
  unfold timeNumbers
  simp only [Option.bind_eq_bind, Option.bind_eq_some_iff, Prod.exists, Option.pure_def,
    Option.some.injEq, Prod.mk.injEq]
  constructor
  · rintro ⟨a, b, htexts, _, ha, _, hb, rfl, rfl⟩
    exact ⟨a, b, htexts, ha, hb⟩
  · rintro ⟨a, b, htexts, ha, hb⟩
    exact ⟨a, b, htexts, h, ha, m, hb, rfl, rfl⟩

/-- Where no number is read, there is no time and no arithmetic. -/
theorem time_of_none {s : Str} (h : timeNumbers s = none) :
    parseHhmm s = none ∧ parseHhmmChecked s = .ok none := by
  unfold timeNumbers at h
  unfold parseHhmm parseHhmmChecked
  unfold timeTexts at h ⊢
  dsimp only [Option.bind_eq_bind] at h ⊢
  cases htexts : (Str.splitOnce ':' (Str.trim s)).or (Str.splitOnce '.' (Str.trim s)) with
  | none => exact ⟨rfl, rfl⟩
  | some p =>
      obtain ⟨a, b⟩ := p
      rw [htexts] at h
      simp only [Option.bind_some] at h ⊢
      cases ha : Str.parseUInt 16 (Str.trim a) with
      | none => exact ⟨rfl, rfl⟩
      | some n =>
          cases hb : Str.parseUInt 16 (Str.trim b) with
          | none => exact ⟨rfl, rfl⟩
          | some k =>
              rw [ha, hb] at h
              cases h

/-- The numbers of a time of day are read as a time by both builds, if they are one; the build with
checks refuses those whose sum does not fit. -/
theorem time_of_some {s : Str} {h m : Nat} (hnumbers : timeNumbers s = some (h, m)) :
    parseHhmm s = (if h ≤ 23 ∧ m ≤ 59 then some ((h * 60 + m) % 65536) else none) ∧
      parseHhmmChecked s =
        if 60 * h + m < 2 ^ 16 then
          .ok (if h ≤ 23 ∧ m ≤ 59 then some (h * 60 + m) else none)
        else .error .overflow := by
  obtain ⟨a, b, htexts, ha, hb⟩ := timeNumbers_eq_some_iff.mp hnumbers
  constructor
  · have hcut : (Str.splitOnce ':' (Str.trim s)).or (Str.splitOnce '.' (Str.trim s)) =
        some (a, b) := htexts
    unfold parseHhmm
    dsimp only [Option.bind_eq_bind]
    rw [hcut, Option.bind_some]
    dsimp only
    rw [ha, hb, Option.bind_some, Option.bind_some]
  · unfold parseHhmmChecked
    rw [htexts]
    dsimp only
    rw [ha, hb]
    dsimp only
    by_cases hfits : 60 * h + m < 2 ^ 16
    · have hhours : h * 60 < 2 ^ 16 := by omega
      have hminutes : h * 60 + m < 2 ^ 16 := by omega
      rw [if_pos hfits, checkedU16_bind hhours, checkedU16_bind hminutes]
      rfl
    · rw [if_neg hfits]
      by_cases hhours : h * 60 < 2 ^ 16
      · have hminutes : ¬ h * 60 + m < 2 ^ 16 := by omega
        rw [checkedU16_bind hhours, checkedU16_bind_of_not hminutes]
      · rw [checkedU16_bind_of_not hhours]

/-- The reader with checks stops where the minutes do not fit, and reads the same elsewhere. -/
theorem parseHhmmChecked_of_fits {s : Str} (h : TimeFits s) :
    parseHhmmChecked s = .ok (parseHhmm s) := by
  cases hnumbers : timeNumbers s with
  | none =>
      obtain ⟨hplain, hchecked⟩ := time_of_none hnumbers
      rw [hplain, hchecked]
  | some p =>
      obtain ⟨hours, minutes⟩ := p
      have hfits := h hours minutes hnumbers
      obtain ⟨hplain, hchecked⟩ := time_of_some hnumbers
      have hwrap : (hours * 60 + minutes) % 65536 = hours * 60 + minutes := by omega
      rw [hplain, hchecked, if_pos hfits, hwrap]

/-- A time whose minutes do not fit a `u16` overflows. -/
theorem parseHhmmChecked_of_not_fits {s : Str} (h : ¬ TimeFits s) :
    parseHhmmChecked s = .error .overflow := by
  unfold TimeFits at h
  push Not at h
  obtain ⟨hours, minutes, hnumbers, hover⟩ := h
  obtain ⟨-, hchecked⟩ := time_of_some hnumbers
  rw [hchecked, if_neg (by omega)]

/-! ## Windows -/

/-- Both halves fit, the second one where the first one is read. -/
def WindowFits (s : Str) : Prop :=
  ∀ a b, Str.splitOnce '-' s = some (a, b) → TimeFits a ∧ (IsTimeOfDay a → TimeFits b)

/-- The hours or the minutes are not a number of a time of day, or have two signs. -/
def BadTime (s : Str) : Prop :=
  ∃ h m, timeTexts s = some (h, m) ∧
    (¬ IsNumber 23 h ∨ ¬ IsNumber 59 m ∨ 2 ≤ Str.signs (Str.trim h) ∨ 2 ≤ Str.signs (Str.trim m))

/-- The reader of windows treats a text safely. -/
structure WindowSafe (s : Str) : Prop where
  /-- No overflow. -/
  fits : ∃ r, parseTimeWindowChecked s = .ok r
  /-- Bounds within the day. -/
  range : ∀ start finish, parseTimeWindow s = some (start, finish) → start ≤ 1439 ∧ finish ≤ 1439
  /-- Other numbers are refused. -/
  refused : ∀ a b, Str.splitOnce '-' s = some (a, b) → BadTime a ∨ BadTime b →
    parseTimeWindow s = none

/-- `parse_time_window` splits at the dash and reads both halves. -/
theorem parseTimeWindow_eq (s : Str) :
    parseTimeWindow s = (Str.splitOnce '-' s).bind fun p =>
      (parseHhmm p.1).bind fun start => (parseHhmm p.2).map fun finish => (start, finish) := by
  unfold parseTimeWindow
  cases Str.splitOnce '-' s with
  | none => rfl
  | some p =>
      obtain ⟨a, b⟩ := p
      show ((parseHhmm a).bind fun start => (parseHhmm b).bind fun finish => some (start, finish)) =
        (parseHhmm a).bind fun start => (parseHhmm b).map fun finish => (start, finish)
      simp only [Option.map_eq_bind]
      rfl

/-- Where the minutes fit, the reader with checks reads what the one without them does. -/
theorem parseTimeWindowChecked_of_fits {s : Str} (h : WindowFits s) :
    parseTimeWindowChecked s = .ok (parseTimeWindow s) := by
  rw [parseTimeWindow_eq]
  unfold parseTimeWindowChecked
  cases hcut : Str.splitOnce '-' s with
  | none => rfl
  | some p =>
      obtain ⟨a, b⟩ := p
      obtain ⟨ha, hb⟩ := h a b hcut
      dsimp only [Option.bind_some]
      rw [parseHhmmChecked_of_fits ha]
      cases hstart : parseHhmm a with
      | none => rfl
      | some start =>
          have hfits := hb (exists_parseHhmm_iff.mp ⟨start, hstart⟩)
          show (parseHhmmChecked b >>= _) = _
          rw [parseHhmmChecked_of_fits hfits]
          cases parseHhmm b with
          | none => rfl
          | some finish => rfl

/-- A window with a half whose minutes do not fit overflows. -/
theorem parseTimeWindowChecked_of_not_fits {s : Str} (h : ¬ WindowFits s) :
    parseTimeWindowChecked s = .error .overflow := by
  unfold WindowFits at h
  push Not at h
  obtain ⟨a, b, hcut, hover⟩ := h
  unfold parseTimeWindowChecked
  rw [hcut]
  dsimp only
  by_cases ha : TimeFits a
  · obtain ⟨htime, hb⟩ := hover ha
    obtain ⟨start, hstart⟩ := exists_parseHhmm_iff.mpr htime
    rw [parseHhmmChecked_of_fits ha, hstart]
    show (parseHhmmChecked b >>= _) = _
    rw [parseHhmmChecked_of_not_fits hb]
    rfl
  · rw [parseHhmmChecked_of_not_fits ha]
    rfl

/-- What the reader with checks gives, the one without them does. -/
theorem parseTimeWindow_of_checked {s : Str} {r : Option (Nat × Nat)}
    (h : parseTimeWindowChecked s = .ok r) : parseTimeWindow s = r := by
  by_cases hfits : WindowFits s
  · exact Except.ok.inj ((parseTimeWindowChecked_of_fits hfits).symm.trans h)
  · rw [parseTimeWindowChecked_of_not_fits hfits] at h
    cases h

/-- A time of day that is read has two numbers, with a sign at most. -/
theorem not_badTime_of_parseHhmm {s : Str} {t : Nat} (h : parseHhmm s = some t) : ¬ BadTime s := by
  obtain ⟨a, b, htexts, n, k, hn, hk, ⟨hle, hle'⟩, -⟩ := parseHhmm_eq_some_iff.mp h
  rintro ⟨a', b', htexts', hbad⟩
  obtain ⟨rfl, rfl⟩ := Prod.mk.inj (Option.some.inj (htexts.symm.trans htexts'))
  rcases hbad with hbad | hbad | hbad | hbad
  · exact hbad ⟨n, hle, hn⟩
  · exact hbad ⟨k, hle', hk⟩
  · have hsigns := (Str.parseUInt_bounds hn).2
    omega
  · have hsigns := (Str.parseUInt_bounds hk).2
    omega

/-- **Windows are read safely where their minutes fit.** -/
theorem windowSafe_iff (s : Str) : WindowSafe s ↔ WindowFits s := by
  constructor
  · intro h
    by_contra hover
    obtain ⟨r, hr⟩ := h.fits
    rw [parseTimeWindowChecked_of_not_fits hover] at hr
    cases hr
  · intro h
    refine ⟨⟨_, parseTimeWindowChecked_of_fits h⟩, ?_, ?_⟩
    · intro start finish hread
      obtain ⟨hstart, hfinish⟩ := lt_of_parseTimeWindow hread
      omega
    · intro a b hcut hbad
      by_contra hsome
      obtain ⟨w, hw⟩ := Option.ne_none_iff_exists'.mp hsome
      obtain ⟨a', b', hcut', ha, hb⟩ := parseTimeWindow_eq_some_iff.mp hw
      obtain ⟨rfl, rfl⟩ := Prod.mk.inj (Option.some.inj (hcut.symm.trans hcut'))
      rcases hbad with hbad | hbad
      · exact not_badTime_of_parseHhmm ha hbad
      · exact not_badTime_of_parseHhmm hb hbad

/-! ## Offsets -/

/-- The text reads as a number from zero to `bound`. -/
def InRange (bound : Int) (s : Str) : Prop :=
  ∃ n, Str.parseInt 16 (Str.trim s) = some n ∧ 0 ≤ n ∧ n ≤ bound

/-- The hours or the minutes are not a number of an offset, or have two signs: the hours one of
their own behind that of the offset. -/
def BadOffset (s : Str) : Prop :=
  ¬ InRange 14 (offsetTexts s).1 ∨ ¬ InRange 59 (offsetTexts s).2 ∨
    1 ≤ Str.signs (Str.trim (offsetTexts s).1) ∨ 2 ≤ Str.signs (Str.trim (offsetTexts s).2)

/-- The reader of offsets treats a text safely. -/
structure TzSafe (s : Str) : Prop where
  /-- No overflow. -/
  fits : ∃ r, parseTzOffsetChecked s = .ok r
  /-- Less than fifteen hours. -/
  range : ∀ tz, parseTzOffset s = some tz → -899 ≤ tz ∧ tz ≤ 899
  /-- The sign is the text's. -/
  sign : ∀ tz, parseTzOffset s = some tz → 0 ≤ offsetSign s * tz
  /-- Other numbers are refused. -/
  refused : afterUtc (Str.trim s) ≠ [] → BadOffset s → parseTzOffset s = none

/-- A text that is refused without an overflow is treated safely. -/
theorem TzSafe.of_none {s : Str} (hok : ∃ r, parseTzOffsetChecked s = .ok r)
    (hnone : parseTzOffset s = none) : TzSafe s := by
  refine ⟨hok, ?_, ?_, fun _ _ => hnone⟩
  · intro tz htz
    rw [hnone] at htz
    cases htz
  · intro tz htz
    rw [hnone] at htz
    cases htz

/-- What the numbers of an offset have to be: within their upper bounds, neither the hours have a
sign of their own nor are the minutes negative; beyond these, they are small enough. -/
def TzFits (s : Str) : Prop :=
  ∀ h m, Str.parseInt 16 (Str.trim (offsetTexts s).1) = some h →
    Str.parseInt 16 (Str.trim (offsetTexts s).2) = some m →
      if h ≤ 14 ∧ m ≤ 59 then Str.signs (Str.trim (offsetTexts s).1) = 0 ∧ 0 ≤ m
      else -546 ≤ h ∧ h ≤ 546 ∧ 60 * h + m < 2 ^ 15

/-- A number that fits into an `i16` is not wrapped. -/
theorem wrap16_of_fits {n : Int} (h : -2 ^ 15 ≤ n ∧ n < 2 ^ 15) : wrap16 n = n := by
  unfold wrap16 Int.bmod
  dsimp only
  split
  · omega
  · omega

/-- The sign of an offset is plus or minus one. -/
theorem offsetSign_cases (s : Str) : offsetSign s = -1 ∨ offsetSign s = 1 := by
  unfold offsetSign signOf
  split
  · exact Or.inl rfl
  · exact Or.inr rfl

/-- The sign makes an offset no larger. -/
theorem offsetSign_mul_bounds (s : Str) {k : Int} (hk : 0 ≤ k) :
    -k ≤ offsetSign s * k ∧ offsetSign s * k ≤ k := by
  rcases offsetSign_cases s with hsign | hsign
  · rw [hsign]
    omega
  · rw [hsign]
    omega

/-- An offset text that has nothing but white space or `UTC` is read as no shift, in both builds. -/
theorem tz_of_blank {s : Str} (h : afterUtc (Str.trim s) = []) :
    parseTzOffset s = some 0 ∧ parseTzOffsetChecked s = .ok (some 0) := by
  rw [parseTzOffset_eq, parseTzOffsetChecked, h]
  by_cases hblank : (Str.trim s).isEmpty = true
  · rw [if_pos hblank, if_pos hblank]
    exact ⟨rfl, rfl⟩
  · rw [if_neg hblank, if_neg hblank]
    exact ⟨rfl, rfl⟩

/-- A text with something behind its `UTC` is not empty, nor is what is behind. -/
theorem isEmpty_of_afterUtc {s : Str} (h : afterUtc (Str.trim s) ≠ []) :
    ¬ (Str.trim s).isEmpty = true ∧ ¬ (afterUtc (Str.trim s)).isEmpty = true := by
  rw [List.isEmpty_iff, List.isEmpty_iff]
  refine ⟨?_, h⟩
  intro hblank
  rw [hblank] at h
  exact h (by decide)

/-- Where a number is not read, there is no offset and no arithmetic. -/
theorem tz_of_none {s : Str} (h : afterUtc (Str.trim s) ≠ [])
    (hnone : Str.parseInt 16 (Str.trim (offsetTexts s).1) = none ∨
      Str.parseInt 16 (Str.trim (offsetTexts s).2) = none) :
    parseTzOffset s = none ∧ parseTzOffsetChecked s = .ok none := by
  obtain ⟨hblank, hutc⟩ := isEmpty_of_afterUtc h
  rw [parseTzOffset_eq, parseTzOffsetChecked, if_neg hblank, if_neg hutc, if_neg hblank,
    if_neg hutc]
  unfold offsetMinutes
  show (Str.parseInt 16 (Str.trim (offsetTexts s).1) >>= fun h =>
      Str.parseInt 16 (Str.trim (offsetTexts s).2) >>= fun m => _) = none ∧ _
  cases hh : Str.parseInt 16 (Str.trim (offsetTexts s).1) with
  | none => exact ⟨rfl, rfl⟩
  | some n =>
      rw [hh] at hnone
      have hm := hnone.resolve_left (by simp)
      rw [hm]
      exact ⟨rfl, rfl⟩

section numbers

variable {s : Str} {h m : Int} (hne : afterUtc (Str.trim s) ≠ [])
  (hh : Str.parseInt 16 (Str.trim (offsetTexts s).1) = some h)
  (hm : Str.parseInt 16 (Str.trim (offsetTexts s).2) = some m)

include hne hh hm

/-- The numbers of an offset are read as an offset if they are within its bounds, with the sign of
the text and wrapped. -/
theorem parseTzOffset_of_numbers :
    parseTzOffset s =
      if h ≤ 14 ∧ m ≤ 59 then some (wrap16 (offsetSign s * wrap16 (h * 60 + m))) else none := by
  obtain ⟨hblank, hutc⟩ := isEmpty_of_afterUtc hne
  rw [parseTzOffset_eq, if_neg hblank, if_neg hutc]
  unfold offsetMinutes
  show (Str.parseInt 16 (Str.trim (offsetTexts s).1) >>= fun h =>
      Str.parseInt 16 (Str.trim (offsetTexts s).2) >>= fun m => _) = _
  rw [hh, hm]
  rfl

/-- The reader with checks stops exactly where one of the three results does not fit. -/
theorem parseTzOffsetChecked_eq_ok_iff {r : Option Int} :
    parseTzOffsetChecked s = .ok r ↔
      ((-2 ^ 15 ≤ h * 60 ∧ h * 60 < 2 ^ 15) ∧ (-2 ^ 15 ≤ h * 60 + m ∧ h * 60 + m < 2 ^ 15) ∧
        -2 ^ 15 ≤ offsetSign s * (h * 60 + m) ∧ offsetSign s * (h * 60 + m) < 2 ^ 15) ∧
      (if h ≤ 14 ∧ m ≤ 59 then some (offsetSign s * (h * 60 + m)) else none) = r := by
  obtain ⟨hblank, hutc⟩ := isEmpty_of_afterUtc hne
  rw [parseTzOffsetChecked, if_neg hblank, if_neg hutc, hh, hm]
  dsimp only
  by_cases hhours : -2 ^ 15 ≤ h * 60 ∧ h * 60 < 2 ^ 15
  · rw [checkedI16_bind hhours, and_iff_right hhours]
    by_cases hminutes : -2 ^ 15 ≤ h * 60 + m ∧ h * 60 + m < 2 ^ 15
    · rw [checkedI16_bind hminutes, and_iff_right hminutes]
      by_cases hsigned : -2 ^ 15 ≤ offsetSign s * (h * 60 + m) ∧
          offsetSign s * (h * 60 + m) < 2 ^ 15
      · rw [checkedI16_bind hsigned, and_iff_right hsigned]
        exact ⟨Except.ok.inj, congrArg Except.ok⟩
      · rw [checkedI16_bind_of_not hsigned]
        exact iff_of_false (by rintro ⟨⟩) (fun hall => hsigned hall.1)
    · rw [checkedI16_bind_of_not hminutes]
      exact iff_of_false (by rintro ⟨⟩) (fun hall => hminutes hall.1.1)
  · rw [checkedI16_bind_of_not hhours]
    exact iff_of_false (by rintro ⟨⟩) (fun hall => hhours hall.1.1)

/-- When no step of the reader overflows. -/
theorem exists_parseTzOffsetChecked_iff : (∃ r, parseTzOffsetChecked s = .ok r) ↔
    (-2 ^ 15 ≤ h * 60 ∧ h * 60 < 2 ^ 15) ∧ (-2 ^ 15 ≤ h * 60 + m ∧ h * 60 + m < 2 ^ 15) ∧
      -2 ^ 15 ≤ offsetSign s * (h * 60 + m) ∧ offsetSign s * (h * 60 + m) < 2 ^ 15 := by
  simp only [parseTzOffsetChecked_eq_ok_iff hne hh hm]
  exact ⟨fun ⟨_, hall, _⟩ => hall, fun hall => ⟨_, hall, rfl⟩⟩

/-- **Numbers that are read** have to be in range and with one sign. -/
theorem tzSafe_iff_of_read (hread : h ≤ 14 ∧ m ≤ 59) :
    TzSafe s ↔ Str.signs (Str.trim (offsetTexts s).1) = 0 ∧ 0 ≤ m := by
  obtain ⟨hlow, hhigh, -, hsigned⟩ := Str.parseInt_bounds hh
  obtain ⟨hlow', hhigh', hsigns, -⟩ := Str.parseInt_bounds hm
  have hplain := parseTzOffset_of_numbers hne hh hm
  rw [if_pos hread] at hplain
  constructor
  · intro hsafe
    by_contra hbad
    have hrefused := hsafe.refused hne (by
      by_contra hgood
      unfold BadOffset at hgood
      push Not at hgood
      obtain ⟨-, ⟨m', hm', hnonneg, -⟩, hown, -⟩ := hgood
      obtain rfl := Option.some.inj (hm.symm.trans hm')
      exact hbad ⟨by omega, hnonneg⟩)
    rw [hplain] at hrefused
    cases hrefused
  · rintro ⟨hown, hnonneg⟩
    have hpos := hsigned hown
    have hbounds := offsetSign_mul_bounds s (k := h * 60 + m) (by omega)
    have hvalue : parseTzOffset s = some (offsetSign s * (h * 60 + m)) := by
      rw [hplain, wrap16_of_fits (n := h * 60 + m) (by omega), wrap16_of_fits (by omega)]
    refine ⟨(exists_parseTzOffsetChecked_iff hne hh hm).mpr (by omega), ?_, ?_, ?_⟩
    · intro tz htz
      obtain rfl := Option.some.inj (hvalue.symm.trans htz)
      omega
    · intro tz htz
      obtain rfl := Option.some.inj (hvalue.symm.trans htz)
      rcases offsetSign_cases s with hsign | hsign
      · rw [hsign]
        omega
      · rw [hsign]
        omega
    · rintro - (hbad | hbad | hbad | hbad)
      · exact absurd ⟨h, hh, hpos, hread.1⟩ hbad
      · exact absurd ⟨m, hm, hnonneg, hread.2⟩ hbad
      · omega
      · omega

/-- **Of numbers that are refused** it is the arithmetic that counts. -/
theorem tzSafe_iff_of_not_read (hread : ¬(h ≤ 14 ∧ m ≤ 59)) :
    TzSafe s ↔ -546 ≤ h ∧ h ≤ 546 ∧ 60 * h + m < 2 ^ 15 := by
  obtain ⟨hlow, hhigh, -, -⟩ := Str.parseInt_bounds hh
  obtain ⟨hlow', hhigh', -, -⟩ := Str.parseInt_bounds hm
  have hplain := parseTzOffset_of_numbers hne hh hm
  rw [if_neg hread] at hplain
  have hoverflow : (∃ r, parseTzOffsetChecked s = .ok r) ↔
      -546 ≤ h ∧ h ≤ 546 ∧ 60 * h + m < 2 ^ 15 := by
    rw [exists_parseTzOffsetChecked_iff hne hh hm]
    rcases offsetSign_cases s with hsign | hsign
    · rw [hsign]
      omega
    · rw [hsign]
      omega
  rw [← hoverflow]
  constructor
  · intro hsafe
    exact hsafe.fits
  · intro hok
    exact .of_none hok hplain

omit hne in
/-- What the numbers of the text have to be. -/
theorem tzFits_iff_of_numbers : TzFits s ↔
    if h ≤ 14 ∧ m ≤ 59 then Str.signs (Str.trim (offsetTexts s).1) = 0 ∧ 0 ≤ m
    else -546 ≤ h ∧ h ≤ 546 ∧ 60 * h + m < 2 ^ 15 := by
  constructor
  · intro hall
    exact hall h m hh hm
  · intro hone h' m' hh' hm'
    obtain rfl := Option.some.inj (hh.symm.trans hh')
    obtain rfl := Option.some.inj (hm.symm.trans hm')
    exact hone

end numbers

/-- What the reader with checks gives, the one without them does. -/
theorem parseTzOffset_of_checked {s : Str} {r : Option Int} (hok : parseTzOffsetChecked s = .ok r) :
    parseTzOffset s = r := by
  by_cases hne : afterUtc (Str.trim s) = []
  · obtain ⟨hplain, hchecked⟩ := tz_of_blank hne
    exact hplain.trans (Except.ok.inj (hchecked.symm.trans hok))
  by_cases hnumbers : Str.parseInt 16 (Str.trim (offsetTexts s).1) = none ∨
      Str.parseInt 16 (Str.trim (offsetTexts s).2) = none
  · obtain ⟨hplain, hchecked⟩ := tz_of_none hne hnumbers
    exact hplain.trans (Except.ok.inj (hchecked.symm.trans hok))
  obtain ⟨hhours, hminutes⟩ := not_or.mp hnumbers
  obtain ⟨h, hh⟩ := Option.ne_none_iff_exists'.mp hhours
  obtain ⟨m, hm⟩ := Option.ne_none_iff_exists'.mp hminutes
  obtain ⟨⟨-, hsum, hsigned⟩, hr⟩ := (parseTzOffsetChecked_eq_ok_iff hne hh hm).mp hok
  rw [parseTzOffset_of_numbers hne hh hm, wrap16_of_fits hsum, wrap16_of_fits hsigned, hr]

/-- Nothing but white space, or `UTC`, is read as no offset. -/
theorem tzSafe_of_blank {s : Str} (h : afterUtc (Str.trim s) = []) : TzSafe s ∧ TzFits s := by
  obtain ⟨hplain, hchecked⟩ := tz_of_blank h
  have htexts : (offsetTexts s).1 = [] := by
    unfold offsetTexts
    rw [h]
    rfl
  refine ⟨⟨⟨_, hchecked⟩, ?_, ?_, fun hne => absurd h hne⟩, ?_⟩
  · intro tz htz
    obtain rfl := Option.some.inj (hplain.symm.trans htz)
    decide
  · intro tz htz
    obtain rfl := Option.some.inj (hplain.symm.trans htz)
    exact Int.le_of_eq (Int.mul_zero _).symm
  · intro hours minutes hhours
    rw [htexts] at hhours
    cases hhours

/-- **Offsets are read safely where their numbers are in range, or too large and small enough to
compute with.** -/
theorem tzSafe_iff (s : Str) : TzSafe s ↔ TzFits s := by
  by_cases hne : afterUtc (Str.trim s) = []
  · exact iff_of_true (tzSafe_of_blank hne).1 (tzSafe_of_blank hne).2
  by_cases hnumbers : Str.parseInt 16 (Str.trim (offsetTexts s).1) = none ∨
      Str.parseInt 16 (Str.trim (offsetTexts s).2) = none
  · obtain ⟨hplain, hchecked⟩ := tz_of_none hne hnumbers
    refine iff_of_true (.of_none ⟨_, hchecked⟩ hplain) ?_
    intro h m hh hm
    rcases hnumbers with hnone | hnone
    · rw [hh] at hnone
      cases hnone
    · rw [hm] at hnone
      cases hnone
  obtain ⟨hhours, hminutes⟩ := not_or.mp hnumbers
  obtain ⟨h, hh⟩ := Option.ne_none_iff_exists'.mp hhours
  obtain ⟨m, hm⟩ := Option.ne_none_iff_exists'.mp hminutes
  rw [tzFits_iff_of_numbers hh hm]
  by_cases hread : h ≤ 14 ∧ m ≤ 59
  · rw [if_pos hread]
    exact tzSafe_iff_of_read hne hh hm hread
  · rw [if_neg hread]
    exact tzSafe_iff_of_not_read hne hh hm hread

/-- **Which texts the readers of times and offsets treat safely**: a window whose halves, as far as
they are read, hold hours and minutes that add up to a `u16`; an offset whose hours and minutes are
in range with one sign in all, or one of which is too large and both are small enough to compute
with. What the readers with checks give, those without them do. -/
theorem clock_texts_safe_iff (s : Str) :
    (WindowSafe s ↔ WindowFits s) ∧ (TzSafe s ↔ TzFits s) ∧
      (∀ r, parseTimeWindowChecked s = .ok r → parseTimeWindow s = r) ∧
      ∀ r, parseTzOffsetChecked s = .ok r → parseTzOffset s = r :=
  ⟨windowSafe_iff s, tzSafe_iff s, fun _ => parseTimeWindow_of_checked,
    fun _ => parseTzOffset_of_checked⟩

/-- Eleven hundred hours overflow, and a sign behind the sign lets an offset of four days pass. -/
theorem clock_texts_unsafe :
    parseTimeWindowChecked "1100:00-10:00" = .error .overflow ∧
      parseTzOffset "+-99:00" = some (-5940) ∧
      ¬ ∀ s, WindowSafe s ∧ TzSafe s := by
  have hwindow : parseTimeWindowChecked "1100:00-10:00" = .error .overflow := by decide +kernel
  refine ⟨hwindow, by decide +kernel, ?_⟩
  intro h
  obtain ⟨r, hr⟩ := (h "1100:00-10:00").1.fits
  rw [hwindow] at hr
  cases hr

end BuduWaf.Rules
