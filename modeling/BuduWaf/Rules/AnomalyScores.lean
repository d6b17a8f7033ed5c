import BuduWaf.Lib.Decimal
import BuduWaf.Lib.Split
import BuduWaf.Rules.Modsec

/-!
# `budu-rules`: which `setvar`s score

What an imported `setvar` adds to the score of a request, and what it was written to do.

* **`Increments`**: a `setvar` that adds an amount to a variable.
* **`Scores`**: the points such a `setvar` stands for, by a number or by the macro of a severity.
* **`anomalyScore_eq`**: the points that are read: those of the first severity that is named
  anywhere, else a number behind the last plus, else five.
* **`anomaly_score_kept_iff`**: when these are the same.

A `setvar` names its variable, then adds, sets or removes something. The reader looks for the words
of a severity anywhere in the text and for a number behind the last plus, and takes five where it
finds neither. Two readings are therefore compared on one text: what it stands for as an increment
(`Scores`) and what is computed of it (`anomalyScore_eq`). They differ on every `setvar` that names
an anomaly score without adding to it.
-/

namespace BuduWaf.Rules.Modsec

/-! ## Meanings -/

/-- A `setvar` that adds an amount to a variable: `name=+amount` or `name+=amount`. -/
def Increments (setvar name amount : Str) : Prop :=
  '=' ∉ name ∧ (setvar = name ++ '=' :: '+' :: amount ∨ setvar = name ++ '+' :: '=' :: amount)

/-- A text names an anomaly score, in any case. -/
def NamesAnomalyScore (s : Str) : Prop := ("anomaly_score" : Str) <:+: Str.toAsciiLowercase s

/-- The macro of a severity, in any case. -/
def IsMacroOf (severity amount : Str) : Prop :=
  Str.toAsciiLowercase amount = ("%\x7btx." : Str) ++ severity ++ ("\x7d" : Str)

/-- **What a `setvar` scores**: it adds so many points, written as a number, to a variable named
after an anomaly score, or those of a severity by its macro. -/
def Scores (setvar : Str) (points : UInt32) : Prop :=
  ∃ name amount, Increments setvar name amount ∧
    ((NamesAnomalyScore name ∧ Str.parseDigits amount = some points.toNat) ∨
      ∃ severity, (severity, points) ∈ severities ∧ IsMacroOf severity amount)

/-! ## What is read -/

/-- The points of the first severity of the table that is named anywhere in a `setvar`. -/
def namedSeverity (setvar : Str) : Option UInt32 :=
  (severities.find? fun s => Str.contains s.1 (Str.toAsciiLowercase setvar)).map Prod.snd

/-- The number behind the last plus; without one, five. -/
def amountRead (setvar : Str) : UInt32 :=
  if List.elem '+' setvar then
    let behind := (setvar.reverse.takeWhile (· != '+')).reverse
    ((Str.parseUInt 32 (behind.filter Char.isDigit)).map UInt32.ofNat).getD 5
  else 5

/-- **The points that are read** of a `setvar` that names an anomaly score. -/
theorem anomalyScore_eq {setvar : Str} (h : NamesAnomalyScore setvar) :
    anomalyScore setvar = some ((namedSeverity setvar).getD (amountRead setvar)) := by
  have hnames : Str.contains ("anomaly_score" : Str) (Str.toAsciiLowercase setvar) = true :=
    Str.contains_iff.mpr h
  unfold anomalyScore namedSeverity amountRead
  simp only [hnames, Bool.not_true, Bool.false_eq_true, if_false]
  cases severities.find? fun s => Str.contains s.1 (Str.toAsciiLowercase setvar) with
  | some s => rfl
  | none =>
      dsimp only
      split <;> rfl

/-- A `setvar` of another variable scores nothing. -/
theorem anomalyScore_eq_none {setvar : Str} (h : ¬ NamesAnomalyScore setvar) :
    anomalyScore setvar = none := by
  have hnames : Str.contains ("anomaly_score" : Str) (Str.toAsciiLowercase setvar) = false :=
    Bool.eq_false_iff.mpr fun hmem => h (Str.contains_iff.mp hmem)
  unfold anomalyScore
  simp only [hnames, Bool.not_false, if_true]

/-- What stands behind the last plus of a text, found from its end. -/
theorem behind_plus {front back : Str} (h : '+' ∉ back) :
    ((front ++ '+' :: back).reverse.takeWhile (· != '+')).reverse = back := by
  have hother : ∀ c ∈ back.reverse, (c != '+') = true := by
    intro c hc
    refine bne_iff_ne.mpr ?_
    rintro rfl
    exact h (List.mem_reverse.mp hc)
  have hrev : (front ++ '+' :: back).reverse = back.reverse ++ '+' :: front.reverse := by simp
  rw [hrev, List.takeWhile_append_of_pos hother, List.takeWhile_cons_of_neg (by decide),
    List.append_nil, List.reverse_reverse]

/-- A number that is added is read back. -/
theorem amountRead_of_increments {setvar name amount : Str} {points : UInt32}
    (h : Increments setvar name amount) (hamount : Str.parseDigits amount = some points.toNat) :
    amountRead setvar = points := by
  have hdigit := Str.isDigit_of_parseDigits hamount
  have hplus : '+' ∉ amount := fun hmem => absurd (hdigit '+' hmem) (by decide)
  have hfilter : amount.filter Char.isDigit = amount := List.filter_eq_self.mpr hdigit
  -- Either way the digits behind the last plus are those of the amount.
  obtain ⟨front, back, hsetvar, hback, hdigits⟩ : ∃ front back, setvar = front ++ '+' :: back ∧
      '+' ∉ back ∧ back.filter Char.isDigit = amount := by
    rcases h.2 with rfl | rfl
    · exact ⟨name ++ ['='], amount, by simp, hplus, hfilter⟩
    · refine ⟨name, '=' :: amount, rfl, by simpa using hplus, ?_⟩
      rw [List.filter_cons_of_neg (by decide), hfilter]
  have hmem : List.elem '+' setvar = true := by simp [hsetvar]
  have hparse : Str.parseUInt 32 amount = some points.toNat := by
    have hfirst : ∀ rest, amount ≠ '+' :: rest := by
      rintro rest rfl
      exact hplus List.mem_cons_self
    have hfits : points.toNat < 2 ^ 32 := points.toNat_lt
    unfold Str.parseUInt
    split
    · exact absurd rfl (hfirst _)
    · dsimp only
      rw [hamount, Option.filter_some, if_pos (decide_eq_true hfits)]
  unfold amountRead
  rw [if_pos hmem]
  dsimp only
  rw [hsetvar, behind_plus hback, hdigits, hparse, Option.map_some, Option.getD_some,
    UInt32.ofNat_toNat]

/-! ## When both agree -/

/-- What is named in a part is named in the whole. -/
theorem infix_lower {token part whole : Str} (h : part <:+: whole)
    (htoken : token <:+: Str.toAsciiLowercase part) : token <:+: Str.toAsciiLowercase whole :=
  htoken.trans (h.map Char.toLower)

/-- The amount of an increment is a part of its text. -/
theorem Increments.amount_occurs {setvar name amount : Str} (h : Increments setvar name amount) :
    amount <:+: setvar := by
  rcases h.2 with rfl | rfl
  · exact ⟨name ++ ['=', '+'], [], by simp⟩
  · exact ⟨name ++ ['+', '='], [], by simp⟩

/-- A macro names its severity, and so an anomaly score. -/
theorem macro_names_score {severity amount : Str} {points : UInt32}
    (hmem : (severity, points) ∈ severities) (h : IsMacroOf severity amount) :
    severity <:+: Str.toAsciiLowercase amount ∧ NamesAnomalyScore amount := by
  have hall : ∀ s ∈ severities, ("anomaly_score" : Str) <:+: s.1 := by
    intro s hs
    have htable : (severities.all fun s => Str.contains ("anomaly_score" : Str) s.1) = true := by
      decide
    exact Str.contains_iff.mp (List.all_eq_true.mp htable s hs)
  have hseverity : severity <:+: Str.toAsciiLowercase amount := by
    rw [h]
    exact ⟨_, _, rfl⟩
  exact ⟨hseverity, (hall _ hmem).trans hseverity⟩

/-- A severity of the table that is named has some severity named first. -/
theorem namedSeverity_isSome {setvar severity : Str} {points : UInt32}
    (hmem : (severity, points) ∈ severities)
    (h : severity <:+: Str.toAsciiLowercase setvar) : ∃ p, namedSeverity setvar = some p := by
  unfold namedSeverity
  rw [← Option.isSome_iff_exists, Option.isSome_map, List.find?_isSome]
  exact ⟨_, hmem, Str.contains_iff.mpr h⟩

/-- **When a `setvar` is read as it is written**: it names no anomaly score; or it adds a number
that fits to a variable named after one, and a severity that is named anywhere in it has just as
many points; or it adds the macro of the severity that is named first. -/
def ReadAsWritten (setvar : Str) : Prop :=
  ¬ NamesAnomalyScore setvar ∨ ∃ name amount, Increments setvar name amount ∧
    ((NamesAnomalyScore name ∧ ∃ points : UInt32, Str.parseDigits amount = some points.toNat ∧
        ∀ p, namedSeverity setvar = some p → p = points) ∨
      ∃ severity points, (severity, points) ∈ severities ∧ IsMacroOf severity amount ∧
        namedSeverity setvar = some points)

/-- **Only increments score** exactly if the `setvar` is one of these. -/
theorem anomaly_score_kept_iff (setvar : Str) :
    (∀ points, anomalyScore setvar = some points → Scores setvar points) ↔
      ReadAsWritten setvar := by
  by_cases hnames : NamesAnomalyScore setvar
  · rw [anomalyScore_eq hnames]
    unfold ReadAsWritten
    rw [or_iff_right (not_not_intro hnames)]
    simp only [Option.some.injEq, forall_eq']
    constructor
    · rintro ⟨name, amount, hinc, ⟨hname, hamount⟩ | ⟨severity, hmem, hmacro⟩⟩
      · refine ⟨name, amount, hinc, .inl ⟨hname, _, hamount, fun p hp => ?_⟩⟩
        rw [hp, Option.getD_some]
      · have hnamed := infix_lower hinc.amount_occurs (macro_names_score hmem hmacro).1
        obtain ⟨p, hp⟩ := namedSeverity_isSome hmem hnamed
        rw [hp, Option.getD_some] at hmem
        exact ⟨name, amount, hinc, .inr ⟨severity, p, hmem, hmacro, hp⟩⟩
    · rintro ⟨name, amount, hinc, ⟨hname, points, hamount, hseverity⟩ |
        ⟨severity, points, hmem, hmacro, hnamed⟩⟩
      · have hread : (namedSeverity setvar).getD (amountRead setvar) = points := by
          cases hnamed : namedSeverity setvar with
          | some p => exact hseverity p hnamed
          | none => exact amountRead_of_increments hinc hamount
        rw [hread]
        exact ⟨name, amount, hinc, .inl ⟨hname, hamount⟩⟩
      · rw [hnamed, Option.getD_some]
        exact ⟨name, amount, hinc, .inr ⟨severity, hmem, hmacro⟩⟩
  · rw [anomalyScore_eq_none hnames]
    exact iff_of_true (by rintro _ ⟨⟩) (.inl hnames)

/-- An increment is written with a plus. -/
theorem Increments.plus_mem {setvar name amount : Str} (h : Increments setvar name amount) :
    '+' ∈ setvar := by
  rcases h.2 with rfl | rfl
  · simp
  · simp

/-- What is written without a plus stands for no points. -/
theorem not_scores {setvar : Str} (h : '+' ∉ setvar) (points : UInt32) :
    ¬ Scores setvar points := by
  rintro ⟨name, amount, hinc, -⟩
  exact h hinc.plus_mem

/-- A reset, an assignment, a removal and a decrement: they stand for no points, and are read as
five. -/
theorem reset_scores :
    (∀ setvar ∈ [("tx.inbound_anomaly_score_pl1=0" : Str), "tx.anomaly_score=5",
        "!tx.anomaly_score", "tx.anomaly_score=-3"],
      anomalyScore setvar = some 5 ∧ ∀ points, ¬ Scores setvar points) ∧
      ¬ ∀ setvar points, anomalyScore setvar = some points → Scores setvar points := by
  have hread : ∀ setvar ∈ [("tx.inbound_anomaly_score_pl1=0" : Str), "tx.anomaly_score=5",
      "!tx.anomaly_score", "tx.anomaly_score=-3"],
        anomalyScore setvar = some 5 ∧ '+' ∉ setvar := by
    decide +kernel
  constructor
  · intro setvar hmem
    obtain ⟨hfive, hplus⟩ := hread setvar hmem
    exact ⟨hfive, not_scores hplus⟩
  · intro h
    obtain ⟨hfive, hplus⟩ := hread _ List.mem_cons_self
    exact not_scores hplus 5 (h _ 5 hfive)

end BuduWaf.Rules.Modsec
