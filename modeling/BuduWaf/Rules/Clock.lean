import BuduWaf.Lib.Decimal
import BuduWaf.Lib.Split
import BuduWaf.Rules.Compile

/-!
# `budu-rules`: times, days and offsets as they are written

The forms the documentation gives for the argument of `time_between`, of `day_of_week` and for
`tz`, as relations on texts, beside what the readers accept.

* **Windows** (`exists_parseTimeWindow_iff`) and **days** (`exists_parseDayMask_iff`): accepted
  where well formed, with bounds below a day and a mask of weekdays.
* **Offsets** (`exists_parseTzOffset_iff`): hours and minutes are read as signed numbers with an
  upper bound only, so one with a minus sign of its own passes whatever its size
  (`isTz_isNumber_iff`).

Each form is a relation between a text and what it means, written from the documentation and not
from the reader. A reader is then shown to accept a text iff it is of that form, by reading the text
from its first separator on. The one place where reader and form part is the sign: an offset takes
its sign off the front, and what is left is read by `i16::from_str`, which takes a sign as well.
-/

namespace BuduWaf.Rules

/-! ## Times of day -/

/-- A number that is at most `bound`, with white space around it. -/
def IsNumber (bound : Nat) (s : Str) : Prop :=
  ∃ n ≤ bound, Str.parseUInt 16 (Str.trim s) = some n

/-- Hours and minutes, with a colon or a full stop between them. -/
def IsTimeOfDay (s : Str) : Prop :=
  ∃ h m, (Str.trim s = h ++ ':' :: m ∨ Str.trim s = h ++ '.' :: m) ∧
    IsNumber 23 h ∧ IsNumber 59 m

/-- A start and an end, with a minus between them. -/
def IsTimeWindow (s : Str) : Prop :=
  ∃ a b, s = a ++ '-' :: b ∧ IsTimeOfDay a ∧ IsTimeOfDay b

/-- A number holds digits, a plus and white space. -/
theorem IsNumber.notMem {bound : Nat} {s : Str} (h : IsNumber bound s) {c : Char}
    (hspace : Str.isWhitespace c = false) (hdigit : c.isDigit = false) (hplus : c ≠ '+') :
    c ∉ s := by
  obtain ⟨n, -, hread⟩ := h
  intro hc
  rcases Str.mem_of_parseUInt hread c (Str.mem_trim_of_mem hc hspace) with hc | hc
  · rw [hdigit] at hc
    cases hc
  · exact hplus hc

/-- What a time of day is read as: the minutes since midnight. -/
theorem parseHhmm_eq_some_iff {s : Str} {t : Nat} :
    parseHhmm s = some t ↔
      ∃ h m, (Str.splitOnce ':' (Str.trim s)).or (Str.splitOnce '.' (Str.trim s)) = some (h, m) ∧
        ∃ n k, Str.parseUInt 16 (Str.trim h) = some n ∧ Str.parseUInt 16 (Str.trim m) = some k ∧
          (n ≤ 23 ∧ k ≤ 59) ∧ n * 60 + k = t := by
  unfold parseHhmm
  simp only [Option.bind_eq_bind, Option.bind_eq_some_iff, Prod.exists,
    Option.ite_none_right_eq_some, Option.some.injEq]
  constructor
  · rintro ⟨h, m, hcut, n, hn, k, hk, hle, rfl⟩
    exact ⟨h, m, hcut, n, k, hn, hk, hle, by omega⟩
  · rintro ⟨h, m, hcut, n, k, hn, hk, hle, rfl⟩
    exact ⟨h, m, hcut, n, hn, k, hk, hle, by omega⟩

/-- A time that is read is a minute of the day. -/
theorem lt_of_parseHhmm {s : Str} {t : Nat} (h : parseHhmm s = some t) : t < 1440 := by
  obtain ⟨_, _, -, n, k, -, -, hle, rfl⟩ := parseHhmm_eq_some_iff.mp h
  omega

/-- A time is read exactly from the texts of a time of day. -/
theorem exists_parseHhmm_iff {s : Str} : (∃ t, parseHhmm s = some t) ↔ IsTimeOfDay s := by
  simp only [parseHhmm_eq_some_iff]
  constructor
  · rintro ⟨t, h, m, hcut, n, k, hn, hk, ⟨hle, hle'⟩, -⟩
    refine ⟨h, m, ?_, ⟨n, hle, hn⟩, ⟨k, hle', hk⟩⟩
    rcases Option.or_eq_some_iff.mp hcut with hcut | ⟨-, hcut⟩
    · exact Or.inl (Str.splitOnce_eq_some_iff.mp hcut).1
    · exact Or.inr (Str.splitOnce_eq_some_iff.mp hcut).1
  · rintro ⟨h, m, hs, hh, hm⟩
    -- a number holds neither separator, so the first one cut at is the one between them
    have hcut : (Str.splitOnce ':' (Str.trim s)).or (Str.splitOnce '.' (Str.trim s)) =
        some (h, m) := by
      rcases hs with hs | hs
      · rw [hs, Str.splitOnce_append (hh.notMem (by decide) (by decide) (by decide)),
          Option.some_or]
      · have hnone : ':' ∉ h ++ '.' :: m := by
          rw [List.mem_append, List.mem_cons]
          rintro (hc | hc | hc)
          · exact hh.notMem (by decide) (by decide) (by decide) hc
          · cases hc
          · exact hm.notMem (by decide) (by decide) (by decide) hc
        rw [hs, Str.splitOnce_eq_none_iff.mpr hnone, Option.none_or,
          Str.splitOnce_append (hh.notMem (by decide) (by decide) (by decide))]
    obtain ⟨n, hle, hn⟩ := hh
    obtain ⟨k, hle', hk⟩ := hm
    exact ⟨_, h, m, hcut, n, k, hn, hk, ⟨hle, hle'⟩, rfl⟩

/-- A time of day has no minus, so a window is cut in one place only. -/
theorem IsTimeOfDay.notMem {s : Str} (h : IsTimeOfDay s) : '-' ∉ s := by
  obtain ⟨h, m, hs, hh, hm⟩ := h
  intro hc
  have hmem := Str.mem_trim_of_mem hc (by decide)
  have hcut : '-' ∈ h ∨ '-' ∈ m := by
    rcases hs with hs | hs
    all_goals
      rw [hs, List.mem_append, List.mem_cons] at hmem
      rcases hmem with hmem | hmem | hmem
      · exact Or.inl hmem
      · cases hmem
      · exact Or.inr hmem
  rcases hcut with hc | hc
  · exact hh.notMem (by decide) (by decide) (by decide) hc
  · exact hm.notMem (by decide) (by decide) (by decide) hc

/-- A window is read exactly from two times with a dash between them. -/
theorem parseTimeWindow_eq_some_iff {s : Str} {w : Nat × Nat} :
    parseTimeWindow s = some w ↔
      ∃ a b, Str.splitOnce '-' s = some (a, b) ∧ parseHhmm a = some w.1 ∧
        parseHhmm b = some w.2 := by
  obtain ⟨start, finish⟩ := w
  unfold parseTimeWindow
  simp only [Option.bind_eq_bind, Option.bind_eq_some_iff, Prod.exists, Option.pure_def,
    Option.some.injEq, Prod.mk.injEq]
  constructor
  · rintro ⟨a, b, hcut, _, ha, _, hb, rfl, rfl⟩
    exact ⟨a, b, hcut, ha, hb⟩
  · rintro ⟨a, b, hcut, ha, hb⟩
    exact ⟨a, b, hcut, _, ha, _, hb, rfl, rfl⟩

/-- Both bounds of a window lie within the day. -/
theorem lt_of_parseTimeWindow {s : Str} {start finish : Nat}
    (h : parseTimeWindow s = some (start, finish)) : start < 1440 ∧ finish < 1440 := by
  obtain ⟨a, b, -, ha, hb⟩ := parseTimeWindow_eq_some_iff.mp h
  exact ⟨lt_of_parseHhmm ha, lt_of_parseHhmm hb⟩

/-- **A window is read where it is well formed.** -/
theorem exists_parseTimeWindow_iff {s : Str} :
    (∃ w, parseTimeWindow s = some w) ↔ IsTimeWindow s := by
  simp only [parseTimeWindow_eq_some_iff]
  constructor
  · rintro ⟨w, a, b, hcut, ha, hb⟩
    exact ⟨a, b, (Str.splitOnce_eq_some_iff.mp hcut).1, exists_parseHhmm_iff.mp ⟨_, ha⟩,
      exists_parseHhmm_iff.mp ⟨_, hb⟩⟩
  · rintro ⟨a, b, rfl, ha, hb⟩
    obtain ⟨t, ht⟩ := exists_parseHhmm_iff.mpr ha
    obtain ⟨u, hu⟩ := exists_parseHhmm_iff.mpr hb
    exact ⟨(t, u), a, b, Str.splitOnce_append ha.notMem b, ht, hu⟩

/-! ## Days -/

/-- The names of the weekdays, long and short. -/
def dayNames : List Str :=
  [("sun" : Str), "sunday", "mon", "monday", "tue", "tues", "tuesday", "wed", "weds",
    "wednesday", "thu", "thur", "thurs", "thursday", "fri", "friday", "sat", "saturday"]

/-- A weekday's name, in any case and with white space around it. -/
def IsDay (s : Str) : Prop := Str.toAsciiLowercase (Str.trim s) ∈ dayNames

/-- A weekday, or a range of weekdays. -/
def IsDayItem (s : Str) : Prop := IsDay s ∨ ∃ a b, s = a ++ '-' :: b ∧ IsDay a ∧ IsDay b

/-- Weekdays and ranges of weekdays, with commas between them; blank items do not count, but
there has to be another. -/
def IsDaySpec (s : Str) : Prop :=
  (∀ item ∈ s.splitOn ',', Str.trim item = [] ∨ IsDayItem (Str.trim item)) ∧
    ∃ item ∈ s.splitOn ',', Str.trim item ≠ []

/-- A day is read exactly from the names of days. -/
theorem exists_parseDayName_iff {s : Str} : (∃ d, parseDayName s = some d) ↔ IsDay s := by
  rw [← Option.isSome_iff_exists]
  unfold parseDayName IsDay dayNames
  simp only [List.findIdx?_isSome, List.any_cons, List.any_nil, Bool.or_false, Bool.or_eq_true,
    List.contains_eq_mem, decide_eq_true_eq, List.mem_cons, List.not_mem_nil, or_false, or_assoc]

/-- A day that is read is one of seven. -/
theorem lt_of_parseDayName {s : Str} {d : Nat} (h : parseDayName s = some d) : d < 7 := by
  unfold parseDayName at h
  exact (List.findIdx?_eq_some_iff_getElem.mp h).1

/-- A weekday's name has no minus, so a range is cut in one place only. -/
theorem IsDay.notMem {s : Str} (h : IsDay s) : '-' ∉ s := by
  intro hc
  have hmem : '-' ∈ Str.toAsciiLowercase (Str.trim s) :=
    List.mem_map.mpr ⟨'-', Str.mem_trim_of_mem hc (by decide), by decide⟩
  have hnames : ∀ name ∈ dayNames, '-' ∉ name := by
    intro name hname
    have hall : (dayNames.all fun name => !List.contains name '-') = true := by decide
    have hname := List.all_eq_true.mp hall name hname
    simpa using hname
  exact hnames _ h hmem

section masks

variable {mask : UInt8} {d : Nat}

/-- Adding a day gives a mask with a day in it. -/
theorem or_dayBit_ne_zero (hd : d < 7) : mask ||| dayBit d ≠ 0 := by
  intro h
  have hzero := congrArg UInt8.toNat h
  rw [UInt8.toNat_or] at hzero
  have hbit : (dayBit d).toNat = 0 := (Nat.or_eq_zero_iff.mp hzero).2
  have hne : ∀ d < 7, (dayBit d).toNat ≠ 0 := by decide
  exact hne d hd hbit

/-- Adding a day stays within the seven bits. -/
theorem or_dayBit_lt (hmask : mask.toNat < 128) (hd : d < 7) :
    (mask ||| dayBit d).toNat < 128 := by
  have hbit : ∀ d < 7, (dayBit d).toNat < 128 := by decide
  rw [UInt8.toNat_or]
  exact Nat.or_lt_two_pow (n := 7) hmask (hbit d hd)

/-- Adding a range of days stays within the seven bits, and adds a day. -/
theorem dayRange_bounds (b steps : Nat) (hmask : mask.toNat < 128) (hd : d < 7) :
    (dayRange b steps d mask).toNat < 128 ∧
      (mask ≠ 0 ∨ 0 < steps → dayRange b steps d mask ≠ 0) := by
  induction steps generalizing d mask with
  | zero =>
      refine ⟨hmask, fun h => h.resolve_right (Nat.lt_irrefl 0)⟩
  | succ steps ih =>
      unfold dayRange
      by_cases hend : d = b
      · rw [if_pos hend]
        exact ⟨or_dayBit_lt hmask hd, fun _ => or_dayBit_ne_zero hd⟩
      · rw [if_neg hend]
        obtain ⟨hlt, hne⟩ := ih (or_dayBit_lt hmask hd) (Nat.mod_lt _ (by decide) : (d + 1) % 7 < 7)
        exact ⟨hlt, fun _ => hne (Or.inl (or_dayBit_ne_zero hd))⟩

/-- A token is read where it is blank, a day or a range of days. -/
theorem exists_dayToken_iff {tok : Str} :
    (∃ mask', dayToken mask tok = some mask') ↔
      Str.trim tok = [] ∨ IsDayItem (Str.trim tok) := by
  unfold dayToken
  dsimp only
  by_cases hblank : (Str.trim tok).isEmpty = true
  · rw [if_pos hblank]
    exact iff_of_true ⟨mask, rfl⟩ (Or.inl (List.isEmpty_iff.mp hblank))
  · have hne : Str.trim tok ≠ [] := fun h => hblank (List.isEmpty_iff.mpr h)
    rw [if_neg hblank, or_iff_right hne]
    cases hcut : Str.splitOnce '-' (Str.trim tok) with
    | none =>
        have hminus := Str.splitOnce_eq_none_iff.mp hcut
        have hitem : IsDayItem (Str.trim tok) ↔ IsDay (Str.trim tok) := by
          refine or_iff_left ?_
          rintro ⟨a, b, h, -⟩
          rw [h] at hminus
          exact hminus (List.mem_append_right a List.mem_cons_self)
        rw [hitem, ← exists_parseDayName_iff]
        dsimp only
        cases parseDayName (Str.trim tok) with
        | none => simp
        | some d => simp
    | some p =>
        obtain ⟨a, b⟩ := p
        obtain ⟨hs, ha⟩ := Str.splitOnce_eq_some_iff.mp hcut
        have hitem : IsDayItem (Str.trim tok) ↔ IsDay a ∧ IsDay b := by
          constructor
          · rintro (hday | ⟨a', b', h, ha', hb'⟩)
            · exact absurd (hs ▸ List.mem_append_right a List.mem_cons_self) hday.notMem
            · have hcut' := Str.splitOnce_append ha'.notMem b'
              rw [← h, hcut] at hcut'
              obtain ⟨rfl, rfl⟩ := Prod.mk.inj (Option.some.inj hcut')
              exact ⟨ha', hb'⟩
          · intro h
            exact Or.inr ⟨a, b, hs, h⟩
        rw [hitem, ← exists_parseDayName_iff, ← exists_parseDayName_iff]
        dsimp only
        cases parseDayName a with
        | none => simp
        | some d =>
            cases parseDayName b with
            | none => simp
            | some e => simp

/-- What a token does to the mask: it stays within seven bits, and is empty only if it was and the
token is. -/
theorem dayToken_bounds {tok : Str} {mask' : UInt8} (hmask : mask.toNat < 128)
    (h : dayToken mask tok = some mask') :
    mask'.toNat < 128 ∧ (mask' = 0 ↔ mask = 0 ∧ Str.trim tok = []) := by
  unfold dayToken at h
  dsimp only at h
  by_cases hblank : (Str.trim tok).isEmpty = true
  · rw [if_pos hblank] at h
    obtain rfl := Option.some.inj h
    exact ⟨hmask, (and_iff_left (List.isEmpty_iff.mp hblank)).symm⟩
  · have hne : Str.trim tok ≠ [] := fun h => hblank (List.isEmpty_iff.mpr h)
    rw [if_neg hblank] at h
    have hday : mask'.toNat < 128 ∧ mask' ≠ 0 := by
      cases hcut : Str.splitOnce '-' (Str.trim tok) with
      | none =>
          rw [hcut] at h
          obtain ⟨d, hd, rfl⟩ := Option.map_eq_some_iff.mp h
          exact ⟨or_dayBit_lt hmask (lt_of_parseDayName hd),
            or_dayBit_ne_zero (lt_of_parseDayName hd)⟩
      | some p =>
          rw [hcut] at h
          obtain ⟨d, hd, h⟩ := Option.bind_eq_some_iff.mp h
          obtain ⟨e, -, h⟩ := Option.bind_eq_some_iff.mp h
          obtain rfl := Option.some.inj h
          have hrange := dayRange_bounds e 7 hmask (lt_of_parseDayName hd)
          exact ⟨hrange.1, hrange.2 (Or.inr (by decide))⟩
    exact ⟨hday.1, iff_of_false hday.2 fun h => hne h.2⟩

end masks

/-- Over the tokens: all are read where each is, the mask keeps to the seven bits, and it is
empty where it was and all of them are blank. -/
theorem foldlM_dayToken (toks : List Str) {mask : UInt8} (hmask : mask.toNat < 128) :
    ((∃ mask', toks.foldlM dayToken mask = some mask') ↔
      ∀ tok ∈ toks, Str.trim tok = [] ∨ IsDayItem (Str.trim tok)) ∧
    ∀ mask', toks.foldlM dayToken mask = some mask' →
      mask'.toNat < 128 ∧ (mask' = 0 ↔ mask = 0 ∧ ∀ tok ∈ toks, Str.trim tok = []) := by
  induction toks generalizing mask with
  | nil =>
      refine ⟨iff_of_true ⟨mask, rfl⟩ (fun tok h => absurd h List.not_mem_nil), ?_⟩
      intro mask' h
      obtain rfl := Option.some.inj h
      exact ⟨hmask, (and_iff_left fun tok h => absurd h List.not_mem_nil).symm⟩
  | cons tok toks ih =>
      rw [List.foldlM_cons, List.forall_mem_cons, ← @exists_dayToken_iff mask tok]
      cases hstep : dayToken mask tok with
      | none =>
          refine ⟨iff_of_false ?_ ?_, ?_⟩
          · rintro ⟨_, h⟩
            cases h
          · rintro ⟨⟨_, h⟩, -⟩
            cases h
          · intro _ h
            cases h
      | some mask₁ =>
          obtain ⟨hlt, hzero⟩ := dayToken_bounds hmask hstep
          obtain ⟨hread, hbounds⟩ := ih hlt
          refine ⟨?_, ?_⟩
          · rw [and_iff_right ⟨mask₁, rfl⟩]
            exact hread
          · intro mask' h
            obtain ⟨hlt', hzero'⟩ := hbounds mask' h
            rw [hzero] at hzero'
            refine ⟨hlt', hzero'.trans ?_⟩
            rw [List.forall_mem_cons, and_assoc]

/-- **A day specification is read where it is well formed.** -/
theorem exists_parseDayMask_iff {s : Str} : (∃ mask, parseDayMask s = some mask) ↔ IsDaySpec s := by
  have hnone : (0 : UInt8).toNat < 128 := by decide
  obtain ⟨hread, hbounds⟩ := foldlM_dayToken (s.splitOn ',') hnone
  unfold parseDayMask
  simp only [Option.filter_eq_some_iff, decide_eq_true_eq]
  unfold IsDaySpec
  rw [← hread]
  constructor
  · rintro ⟨mask, hmask, hne⟩
    refine ⟨⟨mask, hmask⟩, ?_⟩
    by_contra hblank
    refine hne ((hbounds mask hmask).2.mpr ⟨rfl, fun tok htok => ?_⟩)
    by_contra htrim
    exact hblank ⟨tok, htok, htrim⟩
  · rintro ⟨⟨mask, hmask⟩, tok, htok, htrim⟩
    refine ⟨mask, hmask, fun hzero => ?_⟩
    exact htrim (((hbounds mask hmask).2.mp hzero).2 tok htok)

/-- The mask has a day in it and no more than seven. -/
theorem parseDayMask_bounds {s : Str} {mask : UInt8} (h : parseDayMask s = some mask) :
    1 ≤ mask.toNat ∧ mask.toNat ≤ 127 := by
  unfold parseDayMask at h
  obtain ⟨hmask, hne⟩ := Option.filter_eq_some_iff.mp h
  have hnone : (0 : UInt8).toNat < 128 := by decide
  have hlt := ((foldlM_dayToken (s.splitOn ',') hnone).2 mask hmask).1
  have hpos : mask.toNat ≠ 0 := by
    intro hzero
    have hzero : mask = 0 := UInt8.toNat_inj.mp hzero
    simp [hzero] at hne
  omega

/-! ## Offsets -/

/-- An offset text without its `UTC`, which may be left out. -/
def afterUtc (s : Str) : Str :=
  Str.trim (((Str.stripPrefix ("UTC" : Str) s).or (Str.stripPrefix ("utc" : Str) s)).getD s)

/-- An offset text without its sign, which may be left out. -/
def afterSign : Str → Str
  | '-' :: rest => rest
  | '+' :: rest => rest
  | s => s

/-- The sign of an offset text, plus if it has none. -/
def signOf : Str → Int
  | '-' :: _ => -1
  | _ => 1

/-- Hours, or hours and minutes, as `number` has it. -/
def IsOffset (number : Nat → Str → Prop) (s : Str) : Prop :=
  (':' ∉ s ∧ number 14 s) ∨ ∃ h m, s = h ++ ':' :: m ∧ ':' ∉ h ∧ number 14 h ∧ number 59 m

/-- A timezone: nothing or `UTC`, or an offset with an optional `UTC` and an optional sign before
it. -/
def IsTz (number : Nat → Str → Prop) (s : Str) : Prop :=
  Str.trim s = [] ∨ afterUtc (Str.trim s) = [] ∨
    IsOffset number (afterSign (afterUtc (Str.trim s)))

/-- A number that has at most the value `bound`, with a sign of its own or not. -/
def IsSigned (bound : Nat) (s : Str) : Prop :=
  ∃ n : Int, n ≤ bound ∧ Str.parseInt 16 (Str.trim s) = some n

/-- A timezone with a minus sign behind its sign. -/
def HasStrayMinus (s : Str) : Prop := '-' ∈ afterSign (afterUtc (Str.trim s))

instance (s : Str) : Decidable (HasStrayMinus s) :=
  inferInstanceAs (Decidable ('-' ∈ afterSign (afterUtc (Str.trim s))))

/-- The minutes of an offset behind its sign. -/
def offsetMinutes (sign : Int) (rest : Str) : Option Int := do
  let (h, m) := (Str.splitOnce ':' rest).getD (rest, "0")
  let h ← Str.parseInt 16 (Str.trim h)
  let m ← Str.parseInt 16 (Str.trim m)
  if h ≤ 14 ∧ m ≤ 59 then some (wrap16 (sign * wrap16 (h * 60 + m))) else none

/-- Where there is no sign nothing is taken off. -/
theorem afterSign_of_ne {c : Char} (hminus : c ≠ '-') (hplus : c ≠ '+') (s : Str) :
    afterSign (c :: s) = c :: s := by
  unfold afterSign
  split
  · rename_i heq
    exact absurd (List.cons.inj heq).1 hminus
  · rename_i heq
    exact absurd (List.cons.inj heq).1 hplus
  · rfl

/-- Without a minus in front the sign is plus. -/
theorem signOf_of_ne {c : Char} (hminus : c ≠ '-') (s : Str) : signOf (c :: s) = 1 := by
  unfold signOf
  split
  · rename_i heq
    exact absurd (List.cons.inj heq).1 hminus
  · rfl

/-- What a timezone is read as: nothing, `UTC`, or a sign and what stands behind it. -/
theorem parseTzOffset_eq (s : Str) : parseTzOffset s =
    if (Str.trim s).isEmpty then some 0
    else if (afterUtc (Str.trim s)).isEmpty then some 0
    else offsetMinutes (signOf (afterUtc (Str.trim s))) (afterSign (afterUtc (Str.trim s))) := by
  unfold parseTzOffset afterUtc
  dsimp only
  generalize Str.trim (((Str.stripPrefix ("UTC" : Str) (Str.trim s)).or
    (Str.stripPrefix ("utc" : Str) (Str.trim s))).getD (Str.trim s)) = t
  generalize (Str.trim s).isEmpty = blank
  cases blank with
  | true => rfl
  | false =>
      cases t with
      | nil => rfl
      | cons c t =>
          simp only [List.isEmpty_cons, Bool.false_eq_true, if_false]
          by_cases hminus : c = '-'
          · subst hminus
            rfl
          · rw [signOf_of_ne hminus]
            by_cases hplus : c = '+'
            · subst hplus
              rfl
            · rw [afterSign_of_ne hminus hplus]
              split
              · rename_i heq
                exact absurd (List.cons.inj heq).1 hminus
              · rename_i heq
                exact absurd (List.cons.inj heq).1 hplus
              · rfl

/-- An offset is read where its hours and minutes are within their upper bounds. -/
theorem exists_offsetMinutes_iff {sign : Int} {rest : Str} :
    (∃ n, offsetMinutes sign rest = some n) ↔ IsOffset IsSigned rest := by
  have hminutes : ∀ h m : Str, (∃ n, (Str.parseInt 16 (Str.trim h)).bind (fun h =>
      (Str.parseInt 16 (Str.trim m)).bind fun m =>
        if h ≤ 14 ∧ m ≤ 59 then some (wrap16 (sign * wrap16 (h * 60 + m))) else none) = some n) ↔
      IsSigned 14 h ∧ IsSigned 59 m := by
    intro h m
    simp only [Option.bind_eq_some_iff, Option.ite_none_right_eq_some, Option.some.injEq]
    constructor
    · rintro ⟨_, h', hh, m', hm, ⟨hle, hle'⟩, -⟩
      exact ⟨⟨h', hle, hh⟩, ⟨m', hle', hm⟩⟩
    · rintro ⟨⟨h', hle, hh⟩, ⟨m', hle', hm⟩⟩
      exact ⟨_, h', hh, m', hm, ⟨hle, hle'⟩, rfl⟩
  cases hcut : Str.splitOnce ':' rest with
  | none =>
      have hcolon := Str.splitOnce_eq_none_iff.mp hcut
      have hzero : IsSigned 59 "0" := ⟨0, by decide, by decide⟩
      have heq : offsetMinutes sign rest = (Str.parseInt 16 (Str.trim rest)).bind (fun h =>
          (Str.parseInt 16 (Str.trim "0")).bind fun m =>
            if h ≤ 14 ∧ m ≤ 59 then some (wrap16 (sign * wrap16 (h * 60 + m))) else none) := by
        unfold offsetMinutes
        rw [hcut]
        rfl
      rw [heq, hminutes, and_iff_left hzero]
      constructor
      · intro h
        exact Or.inl ⟨hcolon, h⟩
      · rintro (⟨-, h⟩ | ⟨h, m, rfl, -⟩)
        · exact h
        · exact absurd (List.mem_append_right h List.mem_cons_self) hcolon
  | some p =>
      obtain ⟨h, m⟩ := p
      obtain ⟨rfl, hcolon⟩ := Str.splitOnce_eq_some_iff.mp hcut
      have heq : offsetMinutes sign (h ++ ':' :: m) = (Str.parseInt 16 (Str.trim h)).bind (fun h =>
          (Str.parseInt 16 (Str.trim m)).bind fun m =>
            if h ≤ 14 ∧ m ≤ 59 then some (wrap16 (sign * wrap16 (h * 60 + m))) else none) := by
        unfold offsetMinutes
        rw [hcut]
        rfl
      rw [heq, hminutes]
      constructor
      · rintro ⟨hh, hm⟩
        exact Or.inr ⟨h, m, rfl, hcolon, hh, hm⟩
      · rintro (⟨hnone, -⟩ | ⟨h', m', hs, hcolon', hh, hm⟩)
        · exact absurd (List.mem_append_right h List.mem_cons_self) hnone
        · have hcut' := Str.splitOnce_append hcolon' m'
          rw [← hs, hcut] at hcut'
          obtain ⟨rfl, rfl⟩ := Prod.mk.inj (Option.some.inj hcut')
          exact ⟨hh, hm⟩

/-- **A timezone is read where its hours and minutes are within their upper bounds**, be they
negative or not. -/
theorem exists_parseTzOffset_iff {s : Str} :
    (∃ tz, parseTzOffset s = some tz) ↔ IsTz IsSigned s := by
  unfold IsTz
  rw [parseTzOffset_eq]
  simp only [List.isEmpty_iff]
  by_cases hblank : Str.trim s = []
  · rw [if_pos hblank]
    exact iff_of_true ⟨0, rfl⟩ (Or.inl hblank)
  · rw [if_neg hblank, or_iff_right hblank]
    by_cases hutc : afterUtc (Str.trim s) = []
    · rw [if_pos hutc]
      exact iff_of_true ⟨0, rfl⟩ (Or.inl hutc)
    · rw [if_neg hutc, or_iff_right hutc]
      exact exists_offsetMinutes_iff

/-- An unsigned number is a signed one without a minus. -/
theorem isNumber_iff {bound : Nat} (hbound : bound < 2 ^ 15) {s : Str} :
    IsNumber bound s ↔ IsSigned bound s ∧ '-' ∉ s := by
  have hwidth : ∀ (t : Str) (n : Nat), n ≤ bound →
      (Str.parseUInt 16 t = some n ↔ Str.parseUInt 15 t = some n) := by
    intro t n hn
    unfold Str.parseUInt
    simp only [Option.filter_eq_some_iff, decide_eq_true_eq]
    refine and_congr_right fun _ => iff_of_true ?_ ?_
    all_goals omega
  constructor
  · intro h
    have hminus : '-' ∉ s := h.notMem (by decide) (by decide) (by decide)
    obtain ⟨n, hle, hn⟩ := h
    refine ⟨⟨n, Int.ofNat_le.mpr hle, ?_⟩, hminus⟩
    rw [Str.parseInt_of_notMem fun hc => hminus (Str.mem_of_mem_trim hc), (hwidth _ n hle).mp hn]
    rfl
  · rintro ⟨⟨n, hle, hn⟩, hminus⟩
    rw [Str.parseInt_of_notMem fun hc => hminus (Str.mem_of_mem_trim hc)] at hn
    obtain ⟨k, hk, rfl⟩ := Option.map_eq_some_iff.mp hn
    have hle : k ≤ bound := Int.ofNat_le.mp hle
    exact ⟨k, hle, (hwidth _ k hle).mpr hk⟩

/-- **The timezones that are well formed** are those that are read and have no stray minus. -/
theorem isTz_isNumber_iff {s : Str} :
    IsTz IsNumber s ↔ IsTz IsSigned s ∧ ¬ HasStrayMinus s := by
  unfold IsTz HasStrayMinus
  by_cases hblank : Str.trim s = []
  · have hnone : '-' ∉ afterSign (afterUtc (Str.trim s)) := by
      rw [hblank]
      decide
    exact iff_of_true (Or.inl hblank) ⟨Or.inl hblank, hnone⟩
  · rw [or_iff_right hblank, or_iff_right hblank]
    by_cases hutc : afterUtc (Str.trim s) = []
    · have hnone : '-' ∉ afterSign (afterUtc (Str.trim s)) := by
        rw [hutc]
        decide
      exact iff_of_true (Or.inl hutc) ⟨Or.inl hutc, hnone⟩
    · rw [or_iff_right hutc, or_iff_right hutc]
      generalize afterSign (afterUtc (Str.trim s)) = rest
      unfold IsOffset
      simp only [isNumber_iff (by decide : 14 < 2 ^ 15), isNumber_iff (by decide : 59 < 2 ^ 15)]
      constructor
      · rintro (⟨hcolon, h, hminus⟩ | ⟨h, m, rfl, hcolon, ⟨hh, hminus⟩, hm, hminus'⟩)
        · exact ⟨Or.inl ⟨hcolon, h⟩, hminus⟩
        · refine ⟨Or.inr ⟨h, m, rfl, hcolon, hh, hm⟩, ?_⟩
          rw [List.mem_append, List.mem_cons]
          rintro (hc | hc | hc)
          · exact hminus hc
          · cases hc
          · exact hminus' hc
      · rintro ⟨⟨hcolon, h⟩ | ⟨h, m, rfl, hcolon, hh, hm⟩, hminus⟩
        · exact Or.inl ⟨hcolon, h, hminus⟩
        · rw [List.mem_append, List.mem_cons, not_or, not_or] at hminus
          exact Or.inr ⟨h, m, rfl, hcolon, ⟨hh, hminus.1⟩, hm, hminus.2.2⟩

end BuduWaf.Rules
