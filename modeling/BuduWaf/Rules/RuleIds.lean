import Mathlib.Data.List.Nodup
import BuduWaf.Rules.Chains

/-!
# `budu-rules`: the labels of imported rules

A rule on several variables becomes a rule a variable, and their labels differ in a letter: `a`
moved on by the index of the variable, both of them bytes.

* **`checkedSuffix`**: the letter, where the sum fits in a byte.
* **`SourceRule.Expands`**: a rule without chained members that becomes so many rules.
* **`SourceRule.labels_cases`**: the labels that are given out for a rule.
* **`numberOf_of_mem_labels`**: the number of a rule is read back from each of its labels.
* **`noOverflow_iff`**, **`labels_nodup_iff`**: the sums all fit up to 159 rules, and the labels
  differ up to 256.
* **`rule_ids_unique_iff`**: so both hold up to 159.

Labels are compared across the whole text: within a rule they differ by their letters, and between
rules by their numbers, which can be read back from a label since a letter is set off by a dash
(`numberOf_of_mem_labels`). Within a rule only the number of its variables matters. Computing the
letter overflows at index 159, as the letter `a` is 97; wrapping, letters repeat at 256.
-/

namespace BuduWaf.Rules.Modsec

variable (X : Crates)

/-! ## Suffixes -/

/-- `b'a' + idx as u8`, with overflow checks: nothing where it panics.
Source: `budu-rules/src/modsec.rs` `build_rules` -/
def checkedSuffix (idx : Nat) : Option Char :=
  if 97 + idx % 256 < 256 then some (Char.ofNat (97 + idx % 256)) else none

/-- Where the sum fits it is the letter of a build without checks. -/
theorem suffixLetter_of_checked {idx : Nat} {c : Char} (h : checkedSuffix idx = some c) :
    suffixLetter idx = c := by
  unfold checkedSuffix at h
  by_cases hfits : 97 + idx % 256 < 256
  · rw [if_pos hfits] at h
    unfold suffixLetter
    rw [Nat.mod_eq_of_lt hfits]
    exact Option.some.inj h
  · rw [if_neg hfits] at h
    cases h

/-- The indices for which a suffix is computed.
Source: `budu-rules/src/modsec.rs` `build_rules` (`if multi`) -/
def suffixIndices : (memberConds : List (List EmittedCond)) → List Nat
  | [conds] => if 1 < conds.length then List.range conds.length else []
  | _ => []

/-- The indices for which one is computed for a rule of the text.
Source: `budu-rules/src/modsec.rs` `build_rules` -/
def SourceRule.suffixIndices (r : SourceRule) : List Nat :=
  match r.parsed with
  | .error _ => []
  | .ok starter =>
    if 3 ≤ starter.phase then []
    else
      match (memberConditions X (starter :: chained starter r.following)).1 with
      | .ok conds => Modsec.suffixIndices conds
      | .error _ => []

/-- The import of a text computes no suffix that overflows. -/
def NoOverflow (input : Str) : Prop :=
  ∀ r ∈ sourceRules input, ∀ idx ∈ r.suffixIndices X, (checkedSuffix idx).isSome = true

/-- A rule without chained members is converted to so many rules. -/
def SourceRule.Expands (r : SourceRule) (n : Nat) : Prop :=
  ∃ starter, r.parsed = .ok starter ∧ chained starter r.following = [] ∧
    Convertible X starter [] ∧ (targets starter).length = n

/-- No rule of a text becomes more than so many rules. -/
def ExpandAtMost (k : Nat) (input : Str) : Prop :=
  ∀ r ∈ sourceRules input, ∀ n, r.Expands X n → n ≤ k

/-- The label of the rule for the variable at an index: the base and a letter. -/
def suffixed (starter : ParsedRule) (idx : Nat) : Str :=
  idBase starter ++ ['-', suffixLetter idx]

/-- The labels of the rules for a rule of the text. -/
def SourceRule.labels (r : SourceRule) : List Str := (r.report X).rules.map EmittedRule.id

variable {X}

/-! ## The labels of one rule -/

/-- The labels of the rules that are assembled of one member's conditions. -/
theorem labels_of_single {starter : ParsedRule} {conds : List EmittedCond}
    {rules : List EmittedRule} (h : assembleRules starter [conds] = .ok rules) :
    rules.map EmittedRule.id = if 1 < conds.length then
      (List.range conds.length).map (suffixed starter) else conds.map fun _ => idBase starter := by
  have hindices : ∀ f : Nat → Str, conds.zipIdx.map (fun p => f p.2) =
      (List.range conds.length).map f := by
    intro f
    rw [List.range_eq_range', ← List.zipIdx_map_snd 0 conds, List.map_map]
    rfl
  rw [← Except.ok.inj h, List.map_map]
  by_cases hmulti : 1 < conds.length
  · simp only [hmulti, if_true]
    exact hindices (suffixed starter)
  · simp only [hmulti, if_false]
    have hconst := hindices fun _ => idBase starter
    refine hconst.trans ?_
    rw [List.map_const', List.map_const', List.length_range]

/-- The rules of a report are those that are built. -/
theorem rules_blockReport {starter : ParsedRule} {chained : List ParsedRule}
    {rules : List EmittedRule} (h : (buildRules X starter chained).1 = .ok rules) :
    (blockReport X starter chained).rules = rules := by
  unfold blockReport
  rcases hbuilt : buildRules X starter chained with ⟨_ | rules', warnings⟩
  · rw [hbuilt] at h
    cases h
  · rw [hbuilt] at h
    exact Except.ok.inj h

/-- The indices for which a suffix is computed for a starter and its members.
Source: `budu-rules/src/modsec.rs` `build_rules` -/
theorem suffixIndices_eq {r : SourceRule} {starter : ParsedRule} (h : r.parsed = .ok starter) :
    r.suffixIndices X = if 3 ≤ starter.phase then [] else
      match (memberConditions X (starter :: SourceRule.chained starter r.following)).1 with
      | .ok conds => suffixIndices conds
      | .error _ => [] := by
  unfold SourceRule.suffixIndices
  rw [h]

/-- A rule with chained members gets no suffix. -/
theorem suffixIndices_of_length {conds : List (List EmittedCond)} (h : conds.length ≠ 1) :
    suffixIndices conds = [] := by
  unfold suffixIndices
  split
  · exact absurd rfl h
  · rfl

/-- A rule that can not be converted has no labels and computes no suffix. -/
theorem labels_of_not_convertible {r : SourceRule} {starter : ParsedRule}
    (hparsed : r.parsed = .ok starter)
    (h : ¬ Convertible X starter (SourceRule.chained starter r.following)) :
    r.labels X = [] ∧ r.suffixIndices X = [] := by
  constructor
  · unfold SourceRule.labels SourceRule.report
    rw [hparsed]
    dsimp only
    rw [(blockReport_of_error h).1, List.map_nil]
  · rw [suffixIndices_eq hparsed]
    split
    · rfl
    · rename_i hphase
      cases hconds : (memberConditions X
          (starter :: SourceRule.chained starter r.following)).1 with
      | error e => rfl
      | ok conds =>
          -- The conditions are there, so that it is a chain that could not be assembled.
          have hmany : conds.length ≠ 1 := by
            intro hone
            obtain ⟨c, rfl⟩ := List.length_eq_one_iff.mp hone
            apply h
            exact convertible_of_ok (buildRules_ok_iff.mpr ⟨Nat.not_le.mp hphase, _, hconds, rfl⟩)
          exact suffixIndices_of_length hmany

/-- A chain that is converted has one label and computes no suffix. -/
theorem labels_of_chained {r : SourceRule} {starter : ParsedRule}
    (hparsed : r.parsed = .ok starter) (hchained : SourceRule.chained starter r.following ≠ [])
    (h : Convertible X starter (SourceRule.chained starter r.following)) :
    r.labels X = [idBase starter] ∧ r.suffixIndices X = [] := by
  obtain ⟨rules, hbuilt⟩ := h.buildRules
  obtain ⟨hphase, conds, hconds, hassembled⟩ := buildRules_ok_iff.mp hbuilt
  have hmany := length_ne_one_of_chained hchained hconds
  obtain ⟨when_, -, rfl⟩ := (assembleRules_chain_iff hmany).mp hassembled
  constructor
  · unfold SourceRule.labels SourceRule.report
    rw [hparsed]
    dsimp only
    rw [rules_blockReport hbuilt]
    rfl
  · rw [suffixIndices_eq hparsed, if_neg (Nat.not_le.mpr hphase), hconds]
    exact suffixIndices_of_length hmany

/-- A rule without chained members that is converted has a label a target. -/
theorem labels_of_unchained {r : SourceRule} {starter : ParsedRule}
    (hparsed : r.parsed = .ok starter) (hchained : SourceRule.chained starter r.following = [])
    (h : Convertible X starter []) :
    r.labels X = (if 1 < (targets starter).length then
        (List.range (targets starter).length).map (suffixed starter) else [idBase starter]) ∧
      r.suffixIndices X = if 1 < (targets starter).length then
        List.range (targets starter).length else [] := by
  obtain ⟨rules, hbuilt⟩ := h.buildRules
  obtain ⟨hphase, conds, hconds, hassembled⟩ := buildRules_ok_iff.mp hbuilt
  cases memberConditions_ok_iff.mp hconds with
  | cons hstarter hnone =>
      cases hnone
      obtain ⟨op, hop, hne, rfl⟩ := mapMemberConditions_ok_iff.mp hstarter
      have hlabels := labels_of_single hassembled
      rw [List.length_map] at hlabels
      constructor
      · unfold SourceRule.labels SourceRule.report
        rw [hparsed]
        dsimp only
        rw [hchained, rules_blockReport hbuilt, hlabels]
        split
        · rfl
        · rename_i hsingle
          have hpos := List.length_pos_iff.mpr hne
          have hone : (targets starter).length = 1 := by omega
          obtain ⟨target, htarget⟩ := List.length_eq_one_iff.mp hone
          rw [htarget]
          rfl
      · rw [suffixIndices_eq hparsed, if_neg (Nat.not_le.mpr hphase), hchained, hconds]
        unfold suffixIndices
        dsimp only
        rw [List.length_map]

/-- **The labels of a rule**: none, or the one of its number, and no suffix is computed; or that
with each of the suffixes. -/
theorem SourceRule.labels_cases (r : SourceRule) :
    ((r.labels X = [] ∨ ∃ starter, r.parsed = .ok starter ∧ r.labels X = [idBase starter]) ∧
        r.suffixIndices X = [] ∧ ∀ n, r.Expands X n → n ≤ 1) ∨
      ∃ starter n, r.parsed = .ok starter ∧ (∀ m, r.Expands X m ↔ m = n) ∧ 1 < n ∧
        r.labels X = (List.range n).map (suffixed starter) ∧ r.suffixIndices X = List.range n := by
  cases hparsed : r.parsed with
  | error reason =>
      refine .inl ⟨.inl ?_, ?_, ?_⟩
      · unfold SourceRule.labels SourceRule.report
        rw [hparsed]
        rfl
      · unfold SourceRule.suffixIndices
        rw [hparsed]
      · rintro n ⟨starter, hok, -⟩
        rw [hparsed] at hok
        cases hok
  | ok starter =>
      have hexpands : ∀ n, r.Expands X n ↔ chained starter r.following = [] ∧
          Convertible X starter [] ∧ (targets starter).length = n := by
        intro n
        unfold SourceRule.Expands
        rw [hparsed]
        constructor
        · rintro ⟨_, hok, h⟩
          obtain rfl := Except.ok.inj hok
          exact h
        · exact fun h => ⟨starter, rfl, h⟩
      by_cases hconvertible : Convertible X starter (chained starter r.following)
      · by_cases hchained : chained starter r.following = []
        · rw [hchained] at hconvertible
          obtain ⟨hlabels, hindices⟩ := labels_of_unchained hparsed hchained hconvertible
          by_cases hmulti : 1 < (targets starter).length
          · rw [if_pos hmulti] at hlabels hindices
            refine .inr ⟨starter, _, rfl, fun m => ?_, hmulti, hlabels, hindices⟩
            rw [hexpands, and_iff_right hchained, and_iff_right hconvertible]
            exact eq_comm
          · rw [if_neg hmulti] at hlabels hindices
            refine .inl ⟨.inr ⟨starter, rfl, hlabels⟩, hindices, fun n hn => ?_⟩
            have hlength := ((hexpands n).mp hn).2.2
            omega
        · obtain ⟨hlabels, hindices⟩ := labels_of_chained hparsed hchained hconvertible
          refine .inl ⟨.inr ⟨starter, rfl, hlabels⟩, hindices, fun n hn => ?_⟩
          exact absurd ((hexpands n).mp hn).1 hchained
      · obtain ⟨hlabels, hindices⟩ := labels_of_not_convertible hparsed hconvertible
        refine .inl ⟨.inl hlabels, hindices, fun n hn => ?_⟩
        obtain ⟨hchained, hsingle, -⟩ := (hexpands n).mp hn
        rw [hchained] at hconvertible
        exact absurd hsingle hconvertible

/-! ## The labels of a text -/

/-- An id that is a number. -/
def IsNumber (id : Str) : Prop := ∀ c ∈ id, c.isDigit = true

/-- The id of a rule that could be read. -/
def SourceRule.number (r : SourceRule) : Option Str := r.parsed.toOption.bind ParsedRule.id

/-- The rules of a text carry numbers, which differ. -/
structure DistinctNumbers (input : Str) : Prop where
  /-- Each has a number. -/
  number : ∀ r ∈ sourceRules input, ∀ starter, r.parsed = .ok starter →
    ∃ id, starter.id = some id ∧ IsNumber id
  /-- They differ. -/
  nodup : ((sourceRules input).filterMap SourceRule.number).Nodup

/-- The number in a label: the digits behind its prefix. -/
def numberOf (label : Str) : Str := (label.drop 4).takeWhile Char.isDigit

/-- The number of a rule is in its label, and in that with any suffix. -/
theorem numberOf_idBase {starter : ParsedRule} {id tail : Str} (hid : starter.id = some id)
    (hnumber : IsNumber id) (htail : tail = [] ∨ ∃ c, tail = ['-', c]) :
    numberOf (idBase starter ++ tail) = id := by
  have hbase : (idBase starter ++ tail).drop 4 = id ++ tail := by
    unfold idBase
    rw [hid]
    rfl
  have hstop : tail.takeWhile Char.isDigit = [] := by
    rcases htail with rfl | ⟨c, rfl⟩
    · rfl
    · rfl
  unfold numberOf
  rw [hbase, List.takeWhile_append_of_pos hnumber, hstop, List.append_nil]

/-- **Every label of a rule has its number in it.** -/
theorem numberOf_of_mem_labels {r : SourceRule} {label : Str} (h : label ∈ r.labels X)
    (hnumber : ∀ starter, r.parsed = .ok starter → ∃ id, starter.id = some id ∧ IsNumber id) :
    r.number = some (numberOf label) := by
  have hread : ∀ {starter : ParsedRule} {tail : Str}, r.parsed = .ok starter →
      (tail = [] ∨ ∃ c, tail = ['-', c]) →
        r.number = some (numberOf (idBase starter ++ tail)) := by
    intro starter tail hparsed htail
    obtain ⟨id, hid, hnum⟩ := hnumber starter hparsed
    unfold SourceRule.number
    rw [hparsed, numberOf_idBase hid hnum htail]
    exact hid
  rcases r.labels_cases (X := X) with ⟨hnone | ⟨starter, hparsed, hone⟩, -⟩ |
    ⟨starter, n, hparsed, -, -, hmany, -⟩
  · rw [hnone] at h
    cases h
  · rw [hone] at h
    obtain rfl := List.mem_singleton.mp h
    have hself := hread hparsed (.inl rfl)
    rwa [List.append_nil] at hself
  · rw [hmany] at h
    obtain ⟨idx, -, rfl⟩ := List.mem_map.mp h
    exact hread hparsed (.inr ⟨_, rfl⟩)

/-- The labels of a text are those of its rules. -/
theorem labels_convert (input : Str) : (convert X input).rules.map EmittedRule.id =
    (sourceRules input).flatMap (SourceRule.labels X) := by
  have hjoin : ∀ reports : List ConvertReport,
      (joinReports reports).rules = reports.flatMap ConvertReport.rules := by
    intro reports
    induction reports with
    | nil => rfl
    | cons report reports ih => exact congrArg (report.rules ++ ·) ih
  rw [convert_eq, hjoin, List.map_flatMap, List.flatMap_map]
  rfl

/-- **The labels of a text differ** where those of each rule do. -/
theorem nodup_labels_iff {input : Str} (h : DistinctNumbers input) :
    ((convert X input).rules.map EmittedRule.id).Nodup ↔
      ∀ r ∈ sourceRules input, (r.labels X).Nodup := by
  rw [labels_convert, List.nodup_flatMap]
  refine and_iff_left ?_
  have hpairwise := List.pairwise_filterMap.mp h.nodup
  refine hpairwise.imp_of_mem ?_
  intro r r' hr hr' hne label hlabel hlabel'
  have hread := numberOf_of_mem_labels hlabel (h.number r hr)
  have hread' := numberOf_of_mem_labels hlabel' (h.number r' hr')
  exact hne _ hread _ hread' rfl

/-- Letters of different indices differ, up to 256 of them. -/
theorem suffixLetter_inj {i j : Nat} (hi : i < 256) (hj : j < 256)
    (h : suffixLetter i = suffixLetter j) : i = j := by
  have hvalue : ∀ n, (suffixLetter n).toNat = (97 + n % 256) % 256 := by
    intro n
    have hbyte := Str.toNat_byteChar (UInt8.ofNat (97 + n % 256))
    rwa [UInt8.toNat_ofNat'] at hbyte
  have heq := congrArg Char.toNat h
  rw [hvalue, hvalue] at heq
  omega

/-- Up to 256 variables, different indices give different ids. -/
theorem suffixed_inj {starter : ParsedRule} {i j : Nat} (hi : i < 256) (hj : j < 256)
    (h : suffixed starter i = suffixed starter j) : i = j := by
  have htail := List.append_cancel_left h
  exact suffixLetter_inj hi hj (List.cons.inj (List.cons.inj htail).2).1

/-- **The labels differ** exactly if no rule becomes more than 256 rules. -/
theorem labels_nodup_iff {input : Str} (h : DistinctNumbers input) :
    ((convert X input).rules.map EmittedRule.id).Nodup ↔ ExpandAtMost X 256 input := by
  rw [nodup_labels_iff h]
  refine forall₂_congr fun r _ => ?_
  rcases r.labels_cases (X := X) with ⟨hfew, -, hone⟩ | ⟨starter, n, -, hexpands, -, hmany, -⟩
  · refine iff_of_true ?_ fun n hn => (hone n hn).trans (by decide)
    rcases hfew with hnone | ⟨starter, -, hone⟩
    · rw [hnone]
      exact List.nodup_nil
    · rw [hone]
      exact List.nodup_singleton _
  · rw [hmany]
    simp only [hexpands, forall_eq]
    constructor
    · intro hnodup
      by_contra hlong
      -- The letters of the first index and of the one 256 behind it are the same.
      have hinj := List.inj_on_of_nodup_map hnodup
      have hsame := hinj (List.mem_range.mpr (by omega : 0 < n))
        (List.mem_range.mpr (by omega : 256 < n)) rfl
      cases hsame
    · intro hshort
      refine List.Nodup.map_on ?_ List.nodup_range
      intro i hi j hj hlabel
      have hi' := List.mem_range.mp hi
      have hj' := List.mem_range.mp hj
      exact suffixed_inj (by omega) (by omega) hlabel

/-- **No suffix overflows** exactly if no rule becomes more than 159 rules. -/
theorem noOverflow_iff (input : Str) : NoOverflow X input ↔ ExpandAtMost X 159 input := by
  have hchecked : ∀ idx, (checkedSuffix idx).isSome = true ↔ idx % 256 < 159 := by
    intro idx
    unfold checkedSuffix
    by_cases hfits : 97 + idx % 256 < 256
    · rw [if_pos hfits]
      exact iff_of_true rfl (by omega)
    · rw [if_neg hfits]
      exact iff_of_false Bool.false_ne_true (by omega)
  refine forall₂_congr fun r _ => ?_
  rcases r.labels_cases (X := X) with ⟨-, hnone, hone⟩ | ⟨starter, n, -, hexpands, -, -, hall⟩
  · rw [hnone]
    refine iff_of_true ?_ fun n hn => (hone n hn).trans (by decide)
    exact fun idx hidx => absurd hidx List.not_mem_nil
  · rw [hall]
    simp only [hexpands, forall_eq, hchecked, List.mem_range]
    constructor
    · intro hfits
      by_contra hlong
      have hover := hfits 159 (by omega)
      omega
    · intro hshort idx hidx
      have hmod := Nat.mod_le idx 256
      omega

/-- **Labels of imported rules.** In every text whose rules carry different numbers, the import
computes without overflow and gives out different labels exactly if no rule without chained members
becomes more than 159 rules, that is, has more than 159 supported variables. A letter that is
computed without overflow is the one that is written. -/
theorem rule_ids_unique_iff {input : Str} (h : DistinctNumbers input) :
    ((NoOverflow X input ∧ ((convert X input).rules.map EmittedRule.id).Nodup) ↔
      ExpandAtMost X 159 input) ∧
      ∀ idx c, checkedSuffix idx = some c → suffixLetter idx = c := by
  refine ⟨?_, fun _ _ => suffixLetter_of_checked⟩
  rw [noOverflow_iff, labels_nodup_iff h]
  refine and_iff_left_of_imp ?_
  intro hfew r hr n hn
  exact (hfew r hr n hn).trans (by decide)

/-! ## A rule on many variables -/

/-- A rule on one argument after another. -/
def argsRule (n : Nat) : Str :=
  ("SecRule " : Str) ++ Str.join "|" (List.replicate n ("ARGS" : Str)) ++
    (" \"@rx evil\" \"id:5,deny\"" : Str)

/-- What a rule with this many variables reads as. -/
def argsStarter (n : Nat) : ParsedRule where
  vars := List.replicate n ⟨"ARGS", none, false, false⟩
  opName := "rx"
  opArg := "evil"
  negate := false
  id := some ['5']
  disrupt := true

/-- A text with one rule has distinct numbers. -/
theorem distinctNumbers_of_source {n : Nat}
    (h : sourceRules (argsRule n) = [⟨.ok (argsStarter n), []⟩]) :
    DistinctNumbers (argsRule n) := by
  constructor
  · intro r hr starter hparsed
    rw [h] at hr
    obtain rfl := List.mem_singleton.mp hr
    obtain rfl := Except.ok.inj hparsed
    exact ⟨['5'], rfl, List.forall_mem_singleton.mpr (by decide)⟩
  · rw [h]
    exact List.nodup_singleton _

/-- The rule with `n` variables becomes `n` rules. -/
theorem expands_args {n : Nat} (hn : n ≠ 0) :
    (SourceRule.mk (.ok (argsStarter n)) []).Expands (.plain .none .none) n := by
  have htargets : targets (argsStarter n) = List.replicate n (("args" : Str), none) := by
    have hmap : mapVar ⟨"ARGS", none, false, false⟩ = some (("args" : Str), none) := by rfl
    have hkept : (List.replicate n (⟨"ARGS", none, false, false⟩ : RawVar)).filter
        (fun v => !v.exclude) = List.replicate n ⟨"ARGS", none, false, false⟩ :=
      List.filter_replicate_of_pos rfl
    unfold targets argsStarter
    rw [hkept, List.filterMap_replicate_of_some hmap]
  have hphase : (argsStarter n).phase < 3 := (by decide : 2 < 3)
  refine ⟨_, rfl, rfl, ⟨hphase, ?_, fun hne => absurd rfl hne⟩, ?_⟩
  · intro m hm
    obtain rfl := List.mem_singleton.mp hm
    refine ⟨⟨(("regex" : Str), some ("evil" : Str)), rfl⟩, ?_⟩
    rw [htargets]
    simpa using hn
  · rw [htargets, List.length_replicate]

/-- A rule with two variables, as the tests of the source have it, gets two different labels. -/
theorem two_variables_labelled :
    NoOverflow (.plain .none .none) (argsRule 2) ∧
      ((convert (.plain .none .none) (argsRule 2)).rules.map EmittedRule.id).Nodup := by
  have hsource : sourceRules (argsRule 2) = [⟨.ok (argsStarter 2), []⟩] := by decide +kernel
  refine (rule_ids_unique_iff (distinctNumbers_of_source hsource)).1.mpr ?_
  intro r hr n hn
  rw [hsource] at hr
  obtain rfl := List.mem_singleton.mp hr
  obtain ⟨_, hparsed, -, -, hlength⟩ := hn
  obtain rfl := Except.ok.inj hparsed
  have htwo : (targets (argsStarter 2)).length = 2 := by decide
  omega

/-- One variable too many: the letter of the last one does not fit in a byte. -/
theorem suffix_overflows :
    DistinctNumbers (argsRule 160) ∧ ¬ NoOverflow (.plain .none .none) (argsRule 160) ∧
      ¬ ∀ input, DistinctNumbers input → NoOverflow (.plain .none .none) input ∧
        ((convert (.plain .none .none) input).rules.map EmittedRule.id).Nodup := by
  have hsource : sourceRules (argsRule 160) = [⟨.ok (argsStarter 160), []⟩] := by
    decide +kernel
  have hnumbers := distinctNumbers_of_source hsource
  have hover : ¬ NoOverflow (.plain .none .none) (argsRule 160) := by
    rw [noOverflow_iff]
    intro hfew
    have hmem : (⟨.ok (argsStarter 160), []⟩ : SourceRule) ∈ sourceRules (argsRule 160) := by
      rw [hsource]
      exact List.mem_singleton_self _
    exact absurd (hfew _ hmem 160 (expands_args (by decide))) (by decide)
  exact ⟨hnumbers, hover, fun h => hover (h _ hnumbers).1⟩

end BuduWaf.Rules.Modsec
