import Mathlib.Data.List.Forall2
import BuduWaf.Plain
import BuduWaf.Rules.Modsec

/-!
# `budu-rules`: imported chains

The import reads a rule and the members chained to it. Where a chain breaks off, at the end of the
text or at a line that is no rule, it goes on with the members read so far.

* **`sourceRules`**: the rules of a text with the lines behind them, and `convert_eq`: the report
  is made of theirs.
* **`sourceChain`**: the members of a complete chain, and `nextRules`: those of one that breaks
  off.
* **`buildRules_ok_iff`**: which members can be converted.
* **`chains_kept_iff`**: no chain of a text is widened, if and only if none that breaks off has
  members that can be converted.

The import works on lines; the statements are about rules. `sourceRules` is the list of the rules
that begin in a text, each with the lines behind it, and `convert_eq` turns every result about a
rule into one about texts. Whether a chain is complete is read off the source lines alone
(`sourceChain`); what is read of it does not depend on that, which is how a broken one is widened.
`Convertible` is the condition under which members become rules at all, and is what the later
modules on the import work with.
-/

namespace BuduWaf.Rules.Modsec

variable (X : Crates)

/-! ## The rules of a text -/

/-- A `SecRule` of the text, read as far as possible, and the lines behind it. -/
structure SourceRule where
  /-- What it reads as. -/
  parsed : Except Str ParsedRule
  /-- The lines behind it. -/
  following : List Str
deriving DecidableEq

namespace SourceRule

/-- The members that are read for a starter. -/
def chained (starter : ParsedRule) (following : List Str) : List ParsedRule :=
  if starter.chain then (chainMembers following).1 else []

/-- The report on one rule: on itself, with the rules that follow it and are chained. -/
def report (r : SourceRule) : ConvertReport :=
  match r.parsed with
  | .error reason => ⟨[], 0, [⟨"?", reason⟩], []⟩
  | .ok starter => blockReport X starter (chained starter r.following)

end SourceRule

/-- The rules that are no members of a chain, in the lines from here on. -/
def sourceRulesFrom : (skip : Nat) → List Str → List SourceRule
  | _, [] => []
  | skip + 1, _ :: rest => sourceRulesFrom skip rest
  | 0, l :: rest =>
    let line := Str.trim l
    if isFiller line then sourceRulesFrom 0 rest
    else
      match (directiveArg line "SecRule").map parseSecrule with
      | none => sourceRulesFrom 0 rest
      | some (.error reason) => ⟨.error reason, rest⟩ :: sourceRulesFrom 0 rest
      | some (.ok starter) =>
        ⟨.ok starter, rest⟩ ::
          sourceRulesFrom (if starter.chain then (chainMembers rest).2 else 0) rest

/-- The rules of a text that are no members of a chain. -/
def sourceRules (input : Str) : List SourceRule := sourceRulesFrom 0 (joinContinuations input)

/-- What a line is to the import: no directive, another one, or a rule that can or cannot be
read. -/
inductive LineKind (l : Str) : Prop where
  | filler (hfiller : isFiller (Str.trim l) = true)
  | other (hfiller : isFiller (Str.trim l) = false)
      (harg : directiveArg (Str.trim l) "SecRule" = none)
  | malformed {arg reason : Str} (hfiller : isFiller (Str.trim l) = false)
      (harg : directiveArg (Str.trim l) "SecRule" = some arg)
      (hparsed : parseSecrule arg = .error reason)
  | rule {arg : Str} {r : ParsedRule} (hfiller : isFiller (Str.trim l) = false)
      (harg : directiveArg (Str.trim l) "SecRule" = some arg) (hparsed : parseSecrule arg = .ok r)

/-- Every line is of one of these kinds. -/
theorem lineKind (l : Str) : LineKind l := by
  cases hfiller : isFiller (Str.trim l) with
  | true => exact .filler hfiller
  | false =>
      cases harg : directiveArg (Str.trim l) "SecRule" with
      | none => exact .other hfiller harg
      | some arg =>
          cases hparsed : parseSecrule arg with
          | error reason => exact .malformed hfiller harg hparsed
          | ok r => exact .rule hfiller harg hparsed

/-- One report after another, in the order of the rules. -/
def joinReports (reports : List ConvertReport) : ConvertReport :=
  reports.foldr ConvertReport.append .empty

/-- The report on lines is made of those on their rules. -/
theorem convertFrom_eq (lines : List Str) (skip : Nat) : convertFrom X skip lines =
    joinReports ((sourceRulesFrom skip lines).map (SourceRule.report X)) := by
  induction lines generalizing skip with
  | nil => cases skip <;> rfl
  | cons l rest ih =>
      cases skip with
      | succ skip => exact ih skip
      | zero =>
          cases lineKind l with
          | filler hfiller =>
              simp only [convertFrom, sourceRulesFrom, hfiller, if_true]
              exact ih 0
          | other hfiller harg =>
              simp only [convertFrom, sourceRulesFrom, hfiller, harg, Option.map_none,
                Bool.false_eq_true, if_false]
              exact ih 0
          | malformed hfiller harg hparsed =>
              simp only [convertFrom, sourceRulesFrom, hfiller, harg, hparsed, Option.map_some,
                Bool.false_eq_true, if_false]
              exact congrArg (ConvertReport.append _) (ih 0)
          | @rule _ starter hfiller harg hparsed =>
              simp only [convertFrom, sourceRulesFrom, hfiller, harg, hparsed, Option.map_some,
                Bool.false_eq_true, if_false, ih, List.map_cons, SourceRule.report,
                SourceRule.chained]
              by_cases hchain : starter.chain = true
              · simp only [hchain, if_true]
                rfl
              · simp only [hchain]
                rfl

/-- **The report on a text** is made of those on its rules. -/
theorem convert_eq (input : Str) :
    convert X input = joinReports ((sourceRules input).map (SourceRule.report X)) :=
  convertFrom_eq X (joinContinuations input) 0

/-! ## Complete chains -/

/-- The members behind a starter that carries `chain`, up to the first one that does not; none
where the lines end before it, or one of them is no rule. -/
def sourceChain : List Str → Option (List ParsedRule)
  | [] => none
  | l :: rest =>
    let l := Str.trim l
    if isFiller l then sourceChain rest
    else
      match (directiveArg l "SecRule").map parseSecrule with
      | some (.ok r) => if r.chain then (sourceChain rest).map (r :: ·) else some [r]
      | _ => none

/-- The rule on a line, if there is one that can be read. -/
def ruleOf (l : Str) : Option ParsedRule :=
  ((directiveArg l "SecRule").map parseSecrule).bind Except.toOption

/-- The rules on the next lines, up to one that is none; blank lines and comments do not count. -/
def nextRules (lines : List Str) : List ParsedRule :=
  ((((lines.map Str.trim).filter fun l => !isFiller l).map ruleOf).takeWhile
    Option.isSome).reduceOption

/-- Of a chain that breaks off, the members are read up to where it does. -/
theorem chainMembers_of_broken {lines : List Str} (h : sourceChain lines = none) :
    (chainMembers lines).1 = nextRules lines := by
  induction lines with
  | nil => rfl
  | cons l rest ih =>
      unfold nextRules at ih ⊢
      rw [List.map_cons, List.filter_cons]
      cases lineKind l with
      | filler hfiller =>
          simp only [sourceChain, hfiller, if_true] at h
          simp only [chainMembers, hfiller, if_true, Bool.not_true, Bool.false_eq_true, if_false]
          exact ih h
      | other hfiller harg =>
          simp only [chainMembers, ruleOf, hfiller, harg, Bool.not_false, Bool.false_eq_true,
            if_false, if_true, List.map_cons]
          rfl
      | malformed hfiller harg hparsed =>
          simp only [chainMembers, ruleOf, hfiller, harg, hparsed, Option.map_some, Bool.not_false,
            Bool.false_eq_true, if_false, if_true, List.map_cons]
          rfl
      | @rule _ r hfiller harg hparsed =>
          simp only [sourceChain, hfiller, harg, hparsed, Option.map_some, Bool.false_eq_true,
            if_false] at h
          simp only [chainMembers, ruleOf, hfiller, harg, hparsed, Option.map_some, Bool.not_false,
            Bool.false_eq_true, if_false, if_true, List.map_cons]
          by_cases hchain : r.chain = true
          · rw [if_pos hchain] at h ⊢
            exact congrArg (r :: ·) (ih (Option.map_eq_none_iff.mp h))
          · rw [if_neg hchain] at h
            cases h

/-- A complete chain has a member, and its members are all read. -/
theorem chainMembers_of_complete {lines : List Str} {members : List ParsedRule}
    (h : sourceChain lines = some members) :
    members ≠ [] ∧ (chainMembers lines).1 = members := by
  induction lines generalizing members with
  | nil => cases h
  | cons l rest ih =>
      cases lineKind l with
      | filler hfiller =>
          simp only [sourceChain, hfiller, if_true] at h
          simp only [chainMembers, hfiller, if_true]
          exact ih h
      | other hfiller harg =>
          simp only [sourceChain, hfiller, harg, Option.map_none, Bool.false_eq_true, if_false] at h
          cases h
      | malformed hfiller harg hparsed =>
          simp only [sourceChain, hfiller, harg, hparsed, Option.map_some, Bool.false_eq_true,
            if_false] at h
          cases h
      | @rule _ r hfiller harg hparsed =>
          simp only [sourceChain, hfiller, harg, hparsed, Option.map_some, Bool.false_eq_true,
            if_false] at h
          simp only [chainMembers, hfiller, harg, hparsed, Option.map_some, Bool.false_eq_true,
            if_false]
          by_cases hchain : r.chain = true
          · rw [if_pos hchain] at h ⊢
            obtain ⟨more, hmore, rfl⟩ := Option.map_eq_some_iff.mp h
            exact ⟨List.cons_ne_nil _ _, congrArg (r :: ·) (ih hmore).2⟩
          · rw [if_neg hchain] at h ⊢
            obtain rfl := Option.some.inj h
            exact ⟨List.cons_ne_nil _ _, rfl⟩

/-- A field that two rules agree on is that of either. -/
theorem field_ite {α : Type} {f : ParsedRule → α} {x : α} {c : Prop} [Decidable c]
    {a b : ParsedRule} (ha : f a = x) (hb : f b = x) : f (if c then a else b) = x := by
  split
  · exact ha
  · exact hb

/-! ## What can be converted -/

/-- A starter and the members chained to it can be converted: it is a request rule, every operator
is supported, every member has a supported target, and in a chain no member has a second one. -/
structure Convertible (starter : ParsedRule) (chained : List ParsedRule) : Prop where
  /-- The phase. -/
  phase : starter.phase < 3
  /-- Operators and targets. -/
  members : ∀ m ∈ starter :: chained,
    (∃ op, (mapOperator X m.opName m.opArg).1 = .ok op) ∧ targets m ≠ []
  /-- One target each. -/
  single : chained ≠ [] → ∀ m ∈ starter :: chained, (targets m).length = 1

/-- The targets of a member are those its variables are mapped to, without the excluded ones. -/
theorem mem_targets_iff {m : ParsedRule} {target : Str × Option Str} :
    target ∈ targets m ↔ ∃ v ∈ m.vars, v.exclude = false ∧ mapVar v = some target := by
  simp only [targets, List.mem_filterMap, List.mem_filter, Bool.not_eq_true', and_assoc]

/-- The condition says what the member says of one of its targets. -/
def ConditionOf (m : ParsedRule) (c : EmittedCond) : Prop :=
  ∃ op, (mapOperator X m.opName m.opArg).1 = .ok op ∧
    ∃ target ∈ targets m, c = emitCond m op target

variable {X}

/-- The conditions of a member are one for each of its targets, if its operator is mapped and it has
a target. -/
theorem mapMemberConditions_ok_iff {m : ParsedRule} {conds : List EmittedCond} :
    (mapMemberConditions X m).1 = .ok conds ↔
      ∃ op, (mapOperator X m.opName m.opArg).1 = .ok op ∧ targets m ≠ [] ∧
        conds = (targets m).map (emitCond m op) := by
  unfold mapMemberConditions
  rcases hop : mapOperator X m.opName m.opArg with ⟨_ | op, warnings⟩
  · exact iff_of_false (by rintro ⟨⟩) (by rintro ⟨op, ⟨⟩, -⟩)
  · dsimp only
    by_cases hempty : targets m = []
    · rw [if_pos (by simp [hempty])]
      exact iff_of_false (by rintro ⟨⟩) (by rintro ⟨_, -, hne, -⟩; exact hne hempty)
    · rw [if_neg (by simpa using hempty)]
      constructor
      · intro h
        exact ⟨op, rfl, hempty, (Except.ok.inj h).symm⟩
      · rintro ⟨op', hop', -, rfl⟩
        obtain rfl := Except.ok.inj hop'
        rfl

/-- The conditions of a list of members are those of each of them. -/
theorem memberConditions_ok_iff {members : List ParsedRule} {conds : List (List EmittedCond)} :
    (memberConditions X members).1 = .ok conds ↔
      List.Forall₂ (fun m c => (mapMemberConditions X m).1 = .ok c) members conds := by
  induction members generalizing conds with
  | nil =>
      constructor
      · intro h
        obtain rfl := Except.ok.inj h
        exact .nil
      · rintro ⟨⟩
        rfl
  | cons m members ih =>
      unfold memberConditions
      rcases hm : mapMemberConditions X m with ⟨_ | c, warnings⟩
      · refine iff_of_false (by rintro ⟨⟩) ?_
        intro h
        cases h with
        | cons hc _ => rw [hm] at hc; cases hc
      · dsimp only
        constructor
        · intro h
          obtain ⟨rest, hrest, rfl⟩ := map_ok_iff.mp h
          exact .cons (by rw [hm]) (ih.mp hrest)
        · intro h
          cases h with
          | cons hc hrest =>
              rw [hm] at hc
              obtain rfl := Except.ok.inj hc
              exact map_ok_iff.mpr ⟨_, ih.mpr hrest, rfl⟩

/-- Members that have one condition each. -/
theorem mapM_onlyCond_iff {memberConds : List (List EmittedCond)} {conds : List EmittedCond} :
    memberConds.mapM onlyCond = some conds ↔ memberConds = conds.map fun c => [c] := by
  induction memberConds generalizing conds with
  | nil =>
      rw [List.mapM_nil]
      constructor
      · intro h
        obtain rfl := Option.some.inj h
        rfl
      · intro h
        exact congrArg some (List.map_eq_nil_iff.mp h.symm).symm
  | cons c memberConds ih =>
      rw [List.mapM_cons]
      constructor
      · intro h
        obtain ⟨one, hone, h⟩ := Option.bind_eq_some_iff.mp h
        obtain ⟨rest, hrest, h⟩ := Option.bind_eq_some_iff.mp h
        obtain rfl := Option.some.inj h
        rw [List.map_cons, ih.mp hrest]
        unfold onlyCond at hone
        split at hone
        · obtain rfl := Option.some.inj hone
          rfl
        · cases hone
      · intro h
        cases conds with
        | nil => cases h
        | cons one conds =>
            obtain ⟨rfl, hrest⟩ := List.cons.inj h
            rw [ih.mpr hrest]
            rfl

/-- A member that can be converted has conditions. -/
theorem memberConditions_ok_of_all {members : List ParsedRule} (h : ∀ m ∈ members,
    (∃ op, (mapOperator X m.opName m.opArg).1 = .ok op) ∧ targets m ≠ []) :
    ∃ conds, (memberConditions X members).1 = .ok conds := by
  induction members with
  | nil => exact ⟨[], rfl⟩
  | cons m members ih =>
      obtain ⟨⟨op, hop⟩, hne⟩ := h m List.mem_cons_self
      obtain ⟨conds, hconds⟩ := ih fun m' hm' => h m' (List.mem_cons_of_mem m hm')
      exact ⟨_, memberConditions_ok_iff.mpr
        (.cons (mapMemberConditions_ok_iff.mpr ⟨op, hop, hne, rfl⟩)
          (memberConditions_ok_iff.mp hconds))⟩

/-- Rules are built where the phase is one of the request and the conditions can be assembled. -/
theorem buildRules_ok_iff {starter : ParsedRule} {chained : List ParsedRule}
    {rules : List EmittedRule} :
    (buildRules X starter chained).1 = .ok rules ↔ starter.phase < 3 ∧
      ∃ conds, (memberConditions X (starter :: chained)).1 = .ok conds ∧
        assembleRules starter conds = .ok rules := by
  unfold buildRules
  by_cases hphase : 3 ≤ starter.phase
  · rw [if_pos hphase]
    exact iff_of_false (by rintro ⟨⟩) fun h => absurd h.1 (Nat.not_lt.mpr hphase)
  · rw [if_neg hphase]
    rcases memberConditions X (starter :: chained) with ⟨_ | conds, warnings⟩
    · exact iff_of_false (by rintro ⟨⟩) (by rintro ⟨-, _, ⟨⟩, -⟩)
    · constructor
      · intro h
        exact ⟨Nat.not_le.mp hphase, conds, rfl, h⟩
      · rintro ⟨-, conds', hconds, h⟩
        obtain rfl := Except.ok.inj hconds
        exact h

/-- The conditions of a chain are more than those of one member. -/
theorem length_ne_one_of_chained {starter : ParsedRule} {chained : List ParsedRule}
    {conds : List (List EmittedCond)} (hchained : chained ≠ [])
    (h : (memberConditions X (starter :: chained)).1 = .ok conds) : conds.length ≠ 1 := by
  have hpos := List.length_pos_iff.mpr hchained
  have heq := (memberConditions_ok_iff.mp h).length_eq
  rw [List.length_cons] at heq
  omega

/-- Two members or more are assembled where each has one condition. -/
theorem assembleRules_chain_iff {starter : ParsedRule} {conds : List (List EmittedCond)}
    {rules : List EmittedRule} (hlen : conds.length ≠ 1) :
    assembleRules starter conds = .ok rules ↔
      ∃ when_, conds = when_.map (fun c => [c]) ∧
        rules = [emitRule starter (idBase starter) when_] := by
  unfold assembleRules
  split
  · exact absurd rfl hlen
  · constructor
    · intro h
      split at h
      · rename_i when_ hwhen
        exact ⟨when_, mapM_onlyCond_iff.mp hwhen, (Except.ok.inj h).symm⟩
      · cases h
    · rintro ⟨when_, hconds, rfl⟩
      rw [mapM_onlyCond_iff.mpr hconds]

/-- The rules that are assembled differ in label and conditions only. -/
theorem emitRule_of_assembleRules {starter : ParsedRule} {conds : List (List EmittedCond)}
    {rules : List EmittedRule} (h : assembleRules starter conds = .ok rules) :
    ∀ e ∈ rules, ∃ id, e = emitRule starter id e.when := by
  intro e he
  unfold assembleRules at h
  split at h
  · rw [← Except.ok.inj h] at he
    obtain ⟨⟨c, idx⟩, -, rfl⟩ := List.mem_map.mp he
    exact ⟨_, rfl⟩
  · split at h
    · rw [← Except.ok.inj h] at he
      obtain rfl := List.mem_singleton.mp he
      exact ⟨_, rfl⟩
    · cases h

/-- **A rule without chained members** becomes one rule a target. -/
theorem buildRules_single {starter : ParsedRule} {rules : List EmittedRule}
    (h : (buildRules X starter []).1 = .ok rules) :
    ∃ op, (mapOperator X starter.opName starter.opArg).1 = .ok op ∧ Convertible X starter [] ∧
      rules.map EmittedRule.when = (targets starter).map fun t => [emitCond starter op t] := by
  obtain ⟨hphase, conds, hconds, hrules⟩ := buildRules_ok_iff.mp h
  cases memberConditions_ok_iff.mp hconds with
  | cons hstarter hnone =>
      cases hnone
      obtain ⟨op, hop, hne, rfl⟩ := mapMemberConditions_ok_iff.mp hstarter
      refine ⟨op, hop, ⟨hphase, ?_, fun hcontra => absurd rfl hcontra⟩, ?_⟩
      · intro m hm
        obtain rfl := List.mem_singleton.mp hm
        exact ⟨⟨op, hop⟩, hne⟩
      · have hfst : ∀ l : List EmittedCond,
            l.zipIdx.map (fun p => [p.1]) = l.map fun c => [c] := by
          intro l
          rw [← List.zipIdx_map_fst 0 l, List.map_map, List.zipIdx_map_fst]
          rfl
        rw [← Except.ok.inj hrules, List.map_map]
        exact (hfst _).trans (List.map_map ..)

/-- **A chain** becomes one rule, with a condition a member. -/
theorem buildRules_chained {starter : ParsedRule} {chained : List ParsedRule}
    {rules : List EmittedRule} (hchained : chained ≠ [])
    (h : (buildRules X starter chained).1 = .ok rules) :
    Convertible X starter chained ∧
      ∃ rule, rules = [rule] ∧ List.Forall₂ (ConditionOf X) (starter :: chained) rule.when := by
  obtain ⟨hphase, conds, hconds, hrules⟩ := buildRules_ok_iff.mp h
  have hmembers := memberConditions_ok_iff.mp hconds
  obtain ⟨when_, rfl, rfl⟩ :=
    (assembleRules_chain_iff (length_ne_one_of_chained hchained hconds)).mp hrules
  -- What one condition says about its member.
  have hone : List.Forall₂ (fun m c => ((∃ op, (mapOperator X m.opName m.opArg).1 = .ok op) ∧
      (targets m).length = 1) ∧ ConditionOf X m c) (starter :: chained) when_ := by
    refine (List.forall₂_map_right_iff.mp hmembers).imp ?_
    intro m c hm
    obtain ⟨op, hop, -, htargets⟩ := mapMemberConditions_ok_iff.mp hm
    have hlength : (targets m).length = 1 := by
      rw [← List.length_map, ← htargets, List.length_singleton]
    obtain ⟨target, htarget⟩ := List.length_eq_one_iff.mp hlength
    rw [htarget] at htargets
    have hmem : target ∈ targets m := by rw [htarget]; exact List.mem_singleton_self _
    exact ⟨⟨⟨op, hop⟩, hlength⟩, op, hop, target, hmem, List.singleton_injective htargets⟩
  obtain ⟨hall, hconditions⟩ := (List.forall₂_and_left _ _).mp hone
  refine ⟨⟨hphase, ?_, fun _ m hm => (hall m hm).2⟩, _, rfl, hconditions⟩
  intro m hm
  exact ⟨(hall m hm).1, List.ne_nil_of_length_pos (by rw [(hall m hm).2]; exact Nat.one_pos)⟩

/-- A block that was converted to rules is convertible. -/
theorem convertible_of_ok {starter : ParsedRule} {chained : List ParsedRule}
    {rules : List EmittedRule} (h : (buildRules X starter chained).1 = .ok rules) :
    Convertible X starter chained := by
  by_cases hchained : chained = []
  · subst hchained
    obtain ⟨-, -, hconvertible, -⟩ := buildRules_single h
    exact hconvertible
  · exact (buildRules_chained hchained h).1

/-- Members with one target each have one condition each. -/
theorem exists_single_conds {members : List ParsedRule} {conds : List (List EmittedCond)}
    (h : List.Forall₂ (fun m c => (mapMemberConditions X m).1 = .ok c) members conds)
    (hsingle : ∀ m ∈ members, (targets m).length = 1) :
    ∃ when_ : List EmittedCond, conds = when_.map fun c => [c] := by
  induction h with
  | nil => exact ⟨[], rfl⟩
  | @cons m c members conds hm _ ih =>
      obtain ⟨when_, rfl⟩ := ih fun m' hm' => hsingle m' (List.mem_cons_of_mem m hm')
      obtain ⟨op, -, -, rfl⟩ := mapMemberConditions_ok_iff.mp hm
      obtain ⟨target, htarget⟩ := List.length_eq_one_iff.mp (hsingle m List.mem_cons_self)
      rw [htarget]
      exact ⟨emitCond m op target :: when_, rfl⟩

/-- A convertible block is converted to rules. -/
theorem Convertible.buildRules {starter : ParsedRule} {chained : List ParsedRule}
    (h : Convertible X starter chained) :
    ∃ rules, (Modsec.buildRules X starter chained).1 = .ok rules := by
  obtain ⟨conds, hconds⟩ := memberConditions_ok_of_all h.members
  have hmembers := memberConditions_ok_iff.mp hconds
  have hassembled : ∃ rules, assembleRules starter conds = .ok rules := by
    by_cases hchained : chained = []
    · subst hchained
      cases hmembers with
      | cons _ hnone =>
          cases hnone
          exact ⟨_, rfl⟩
    · obtain ⟨when_, hwhen⟩ := exists_single_conds hmembers (h.single hchained)
      have hlen := length_ne_one_of_chained hchained hconds
      exact ⟨_, (assembleRules_chain_iff hlen).mpr ⟨when_, hwhen, rfl⟩⟩
  obtain ⟨rules, hrules⟩ := hassembled
  exact ⟨rules, buildRules_ok_iff.mpr ⟨h.phase, conds, hconds, hrules⟩⟩

/-- What is converted becomes one rule at least. -/
theorem rules_ne_nil {starter : ParsedRule} {chained : List ParsedRule}
    {rules : List EmittedRule} (h : (buildRules X starter chained).1 = .ok rules) :
    rules ≠ [] := by
  by_cases hchained : chained = []
  · subst hchained
    obtain ⟨op, -, hconvertible, hwhen⟩ := buildRules_single h
    rintro rfl
    exact (hconvertible.members starter List.mem_cons_self).2 (List.map_eq_nil_iff.mp hwhen.symm)
  · obtain ⟨-, rule, rfl, -⟩ := buildRules_chained hchained h
    exact List.cons_ne_nil _ _

/-- The rules of a report are those that are built. -/
theorem mem_blockReport_iff {starter : ParsedRule} {chained : List ParsedRule}
    {rule : EmittedRule} : rule ∈ (blockReport X starter chained).rules ↔
      ∃ rules, (buildRules X starter chained).1 = .ok rules ∧ rule ∈ rules := by
  unfold blockReport
  rcases buildRules X starter chained with ⟨_ | rules, warnings⟩
  · exact iff_of_false List.not_mem_nil (by rintro ⟨_, ⟨⟩, -⟩)
  · constructor
    · intro h
      exact ⟨rules, rfl, h⟩
    · rintro ⟨rules', heq, h⟩
      obtain rfl := Except.ok.inj heq
      exact h

/-- The report on members that can not be converted. -/
theorem blockReport_of_error {starter : ParsedRule} {chained : List ParsedRule}
    (h : ¬ Convertible X starter chained) : (blockReport X starter chained).rules = [] ∧
      ∃ note ∈ (blockReport X starter chained).skipped, note.id = starter.id.getD "?" := by
  unfold blockReport
  cases hbuilt : buildRules X starter chained with
  | mk result warnings =>
      cases result with
      | error reason => exact ⟨rfl, _, List.mem_singleton_self _, rfl⟩
      | ok rules => exact absurd (convertible_of_ok (congrArg Prod.fst hbuilt)) h

/-! ## Chains of a text -/

variable (X)

/-- What a chain is to become: every rule emitted has a condition for each member, and a chain
that is not complete is skipped. -/
def ChainKept (starter : ParsedRule) (r : SourceRule) : Prop :=
  match sourceChain r.following with
  | some members =>
    ∀ rule ∈ (r.report X).rules, List.Forall₂ (ConditionOf X) (starter :: members) rule.when
  | none =>
    (r.report X).rules = [] ∧ ∃ note ∈ (r.report X).skipped, note.id = starter.id.getD "?"

/-- A chain is kept unless it breaks off and the members before can be converted. -/
theorem chainKept_iff {r : SourceRule} {starter : ParsedRule} (hparsed : r.parsed = .ok starter)
    (hchain : starter.chain = true) : ChainKept X starter r ↔
      (sourceChain r.following = none → ¬ Convertible X starter (nextRules r.following)) := by
  have hreport : r.report X = blockReport X starter (chainMembers r.following).1 := by
    unfold SourceRule.report SourceRule.chained
    rw [hparsed]
    exact congrArg (blockReport X starter) (if_pos hchain)
  unfold ChainKept
  rw [hreport]
  cases hcomplete : sourceChain r.following with
  | some members =>
      refine iff_of_true ?_ (by rintro ⟨⟩)
      obtain ⟨hne, hmembers⟩ := chainMembers_of_complete hcomplete
      rw [hmembers]
      intro rule hrule
      obtain ⟨rules, hbuilt, hmem⟩ := mem_blockReport_iff.mp hrule
      obtain ⟨-, only, rfl, hconditions⟩ := buildRules_chained hne hbuilt
      obtain rfl := List.mem_singleton.mp hmem
      exact hconditions
  | none =>
      rw [chainMembers_of_broken hcomplete]
      constructor
      · rintro ⟨hnone, -⟩ - hconvertible
        obtain ⟨rules, hbuilt⟩ := hconvertible.buildRules
        obtain ⟨rule, hrule⟩ := List.exists_mem_of_ne_nil _ (rules_ne_nil hbuilt)
        have hmem := mem_blockReport_iff.mpr ⟨rules, hbuilt, hrule⟩
        rw [hnone] at hmem
        cases hmem
      · intro hbroken
        exact blockReport_of_error (hbroken rfl)

/-- **Imported chains.** The report on a text is made of those on its rules. No chain of the text
is widened, if and only if none that breaks off has members that can be converted. -/
theorem chains_kept_iff (input : Str) :
    convert X input = joinReports ((sourceRules input).map (SourceRule.report X)) ∧
      ((∀ r ∈ sourceRules input, ∀ starter, r.parsed = .ok starter → starter.chain = true →
          ChainKept X starter r) ↔
        ∀ r ∈ sourceRules input, ∀ starter, r.parsed = .ok starter → starter.chain = true →
          sourceChain r.following = none →
            ¬ Convertible X starter (nextRules r.following)) := by
  refine ⟨convert_eq X input, ?_⟩
  constructor
  · intro h r hr starter hparsed hchain
    exact (chainKept_iff X hparsed hchain).mp (h r hr starter hparsed hchain)
  · intro h r hr starter hparsed hchain
    exact (chainKept_iff X hparsed hchain).mpr (h r hr starter hparsed hchain)

/-! ## A chain that breaks off -/

/-- A chain whose second rule has no operator. -/
def brokenChain : Str :=
  "SecRule REQUEST_URI \"@beginsWith /\" \"id:7,deny,chain\"\nSecRule REQUEST_METHOD"

/-- What the first rule of the broken chain reads as. -/
def brokenStarter : ParsedRule where
  vars := [⟨"REQUEST_URI", none, false, false⟩]
  opName := "beginsWith"
  opArg := ['/']
  negate := false
  id := some ['7']
  disrupt := true
  chain := true

/-- Its starter becomes a rule of its own, which blocks every request, and nothing is skipped. -/
theorem broken_chain_widened :
    (convert (.plain .none .none) brokenChain).rules =
        [⟨"crs-7", none, "block", some 403, [], 0,
          [⟨"uri", none, "starts_with", some ['/'], false, []⟩]⟩] ∧
      (convert (.plain .none .none) brokenChain).skipped = [] ∧
      ¬ ∀ r ∈ sourceRules brokenChain, ∀ starter, r.parsed = .ok starter →
        starter.chain = true → ChainKept (.plain .none .none) starter r := by
  have hsource : sourceRules brokenChain = [⟨.ok brokenStarter, ["SecRule REQUEST_METHOD"]⟩] := by
    decide +kernel
  have hemitted : (SourceRule.report (.plain .none .none)
      ⟨.ok brokenStarter, ["SecRule REQUEST_METHOD"]⟩).rules ≠ [] := by
    decide +kernel
  refine ⟨by decide +kernel, by decide +kernel, ?_⟩
  intro h
  have hkept := h _ (by rw [hsource]; exact List.mem_singleton_self _) brokenStarter rfl rfl
  exact hemitted hkept.1

end BuduWaf.Rules.Modsec
