import BuduWaf.Lib.Split
import BuduWaf.Rules.Chains

/-!
# `budu-rules`: the lines of an imported text

Which lines of a text belong to which rule.

* **`secRuleArgs`**: the `SecRule` lines of a text, and `RuleText.args`: those of one rule.
* **`secRuleArgs_eq_iff`**: they are the same lines exactly if no chain breaks off at one.
* **`sourceRules_eq`**: the rules that are read are those of the lines, and
  `isRead_of_mem_members`: so are their members.
* **`effectiveTransforms`**: the transforms a rule asks for, and `transforms_eq_effective`: those
  that are kept of them.

The import consumes lines: a rule takes up its own line and those of its members, and goes on behind
them. `secRuleArgs_drop` is the induction that follows it, over the lines with the number of lines
still to skip. Lines that a broken chain was looking for a member in are the ones where the two
views may part.
-/

namespace BuduWaf.Rules.Modsec

/-! ## The lines of a rule -/

/-- What follows `SecRule`, on each line that has it. -/
def secRuleArgs (lines : List Str) : List Str :=
  lines.filterMap fun l => directiveArg (Str.trim l) "SecRule"

/-- What follows `SecRule` for the members that are read of a chain. -/
def chainArgs : List Str → List Str
  | [] => []
  | l :: rest =>
    if isFiller (Str.trim l) then chainArgs rest
    else
      match directiveArg (Str.trim l) "SecRule" with
      | none => []
      | some arg =>
        match parseSecrule arg with
        | .error _ => []
        | .ok r => if r.chain then arg :: chainArgs rest else [arg]

/-- What follows `SecRule` on the line a chain breaks off at, if it is such a line. -/
def brokenArg : List Str → Option Str
  | [] => none
  | l :: rest =>
    if isFiller (Str.trim l) then brokenArg rest
    else
      match directiveArg (Str.trim l) "SecRule" with
      | none => none
      | some arg =>
        match parseSecrule arg with
        | .error _ => some arg
        | .ok r => if r.chain then brokenArg rest else none

/-- What follows the `SecRule` of a starter, and the lines behind it. -/
structure RuleText where
  /-- What follows `SecRule`. -/
  arg : Str
  /-- The lines behind it. -/
  following : List Str
deriving DecidableEq

namespace RuleText

/-- The rule that is read from its text, with what follows it. -/
def source (t : RuleText) : SourceRule := ⟨parseSecrule t.arg, t.following⟩

/-- The lines in which members are looked for. -/
def behind (t : RuleText) : List Str :=
  match parseSecrule t.arg with
  | .error _ => []
  | .ok starter => if starter.chain then t.following else []

/-- What follows the `SecRule`s of a rule: of its starter and of the members of its chain. -/
def args (t : RuleText) : List Str := t.arg :: chainArgs t.behind

end RuleText

/-- The rules in the lines from here on, of which `skip` are taken up already. -/
def ruleTextsFrom : (skip : Nat) → List Str → List RuleText
  | _, [] => []
  | skip + 1, _ :: rest => ruleTextsFrom skip rest
  | 0, l :: rest =>
    match directiveArg (Str.trim l) "SecRule" with
    | none => ruleTextsFrom 0 rest
    | some arg =>
      ⟨arg, rest⟩ :: ruleTextsFrom (chainMembers (RuleText.mk arg rest).behind).2 rest

/-- The rules of a text, once continued lines were joined. -/
def ruleTexts (input : Str) : List RuleText := ruleTextsFrom 0 (joinContinuations input)

/-! ## Lines -/

/-- Blank lines and comments are no directives. -/
theorem directiveArg_of_filler {l : Str} (h : isFiller l = true) :
    directiveArg l "SecRule" = none := by
  have hhead : ∀ rest : Str, l ≠ 'S' :: rest := by
    rintro rest rfl
    exact absurd h (by simp [isFiller])
  unfold directiveArg
  cases hstrip : Str.stripPrefix ("SecRule" : Str) l with
  | none => rfl
  | some rest =>
      rw [Str.stripPrefix_eq_some_iff] at hstrip
      exact absurd hstrip (hhead _)

/-- The rules of a text are those of its first line and of the others. -/
theorem secRuleArgs_cons (l : Str) (rest : List Str) :
    secRuleArgs (l :: rest) = (directiveArg (Str.trim l) "SecRule").toList ++ secRuleArgs rest := by
  unfold secRuleArgs
  rw [List.filterMap_cons]
  cases directiveArg (Str.trim l) "SecRule" with
  | none => rfl
  | some arg => rfl

/-- **The lines a chain takes up** have its members, and the line it breaks off at. -/
theorem secRuleArgs_chain (lines : List Str) :
    secRuleArgs lines = chainArgs lines ++ (brokenArg lines).toList ++
      secRuleArgs (lines.drop (chainMembers lines).2) := by
  induction lines with
  | nil => rfl
  | cons l rest ih =>
      rw [secRuleArgs_cons]
      cases lineKind l with
      | filler hfiller =>
          simp only [chainArgs, brokenArg, chainMembers, hfiller, if_true,
            directiveArg_of_filler hfiller]
          exact ih
      | other hfiller harg =>
          simp only [chainArgs, brokenArg, chainMembers, hfiller, harg, Bool.false_eq_true,
            if_false]
          rfl
      | malformed hfiller harg hparsed =>
          simp only [chainArgs, brokenArg, chainMembers, hfiller, harg, hparsed, Option.map_some,
            Bool.false_eq_true, if_false]
          rfl
      | @rule arg r hfiller harg hparsed =>
          simp only [chainArgs, brokenArg, chainMembers, hfiller, harg, hparsed, Option.map_some,
            Bool.false_eq_true, if_false]
          by_cases hchain : r.chain = true
          · simp only [hchain, if_true]
            exact congrArg (arg :: ·) ih
          · simp only [hchain]
            rfl

/-- The members of a chain are read from its lines. -/
theorem chainArgs_parsed (lines : List Str) :
    List.Forall₂ (fun arg m => parseSecrule arg = .ok m) (chainArgs lines)
      (chainMembers lines).1 := by
  induction lines with
  | nil => exact .nil
  | cons l rest ih =>
      cases lineKind l with
      | filler hfiller =>
          simp only [chainArgs, chainMembers, hfiller, if_true]
          exact ih
      | other hfiller harg =>
          simp only [chainArgs, chainMembers, hfiller, harg, Bool.false_eq_true, if_false]
          exact .nil
      | malformed hfiller harg hparsed =>
          simp only [chainArgs, chainMembers, hfiller, harg, hparsed, Option.map_some,
            Bool.false_eq_true, if_false]
          exact .nil
      | @rule arg r hfiller harg hparsed =>
          simp only [chainArgs, chainMembers, hfiller, harg, hparsed, Option.map_some,
            Bool.false_eq_true, if_false]
          by_cases hchain : r.chain = true
          · simp only [hchain, if_true]
            exact .cons hparsed ih
          · simp only [hchain]
            exact .cons hparsed .nil

/-- The lines from one on are those of its rules, with the lines chains break off at. -/
theorem secRuleArgs_drop (lines : List Str) (skip : Nat) :
    secRuleArgs (lines.drop skip) = (ruleTextsFrom skip lines).flatMap fun t =>
      t.args ++ (brokenArg t.behind).toList := by
  induction lines generalizing skip with
  | nil => cases skip <;> rfl
  | cons l rest ih =>
      cases skip with
      | succ skip => exact ih skip
      | zero =>
          rw [List.drop_zero, secRuleArgs_cons]
          unfold ruleTextsFrom
          cases hline : directiveArg (Str.trim l) "SecRule" with
          | none => exact ih 0
          | some arg =>
              rw [List.flatMap_cons, ← ih]
              have hrest : secRuleArgs rest =
                  chainArgs (RuleText.mk arg rest).behind ++
                    (brokenArg (RuleText.mk arg rest).behind).toList ++
                      secRuleArgs (rest.drop (chainMembers (RuleText.mk arg rest).behind).2) := by
                unfold RuleText.behind
                dsimp only
                cases parseSecrule arg with
                | error reason => rfl
                | ok starter =>
                    dsimp only
                    by_cases hchain : starter.chain = true
                    · rw [if_pos hchain]
                      exact secRuleArgs_chain rest
                    · rw [if_neg hchain]
                      rfl
              rw [hrest]
              unfold RuleText.args
              simp only [Option.toList_some, List.cons_append, List.nil_append, List.append_assoc]

/-- Two ways to put lists together agree exactly where nothing is added. -/
theorem flatMap_append_eq_iff {α β : Type} (l : List α) (f g : α → List β) :
    (l.flatMap fun a => f a ++ g a) = l.flatMap f ↔ ∀ a ∈ l, g a = [] := by
  have hlength : (l.flatMap fun a => f a ++ g a).length =
      (l.flatMap f).length + (l.flatMap g).length := by
    induction l with
    | nil => rfl
    | cons a l ih =>
        simp only [List.flatMap_cons, List.length_append] at ih ⊢
        omega
  constructor
  · intro h
    have hzero : (l.flatMap g).length = 0 := by
      rw [h] at hlength
      omega
    exact List.flatMap_eq_nil_iff.mp (List.length_eq_zero_iff.mp hzero)
  · intro h
    refine List.flatMap_congr fun a ha => ?_
    rw [h a ha, List.append_nil]

/-- **The lines of a text** are those of its rules exactly if no chain breaks off at a `SecRule`. -/
theorem secRuleArgs_eq_iff (input : Str) :
    secRuleArgs (joinContinuations input) = (ruleTexts input).flatMap RuleText.args ↔
      ∀ t ∈ ruleTexts input, brokenArg t.behind = none := by
  have hdrop := secRuleArgs_drop (joinContinuations input) 0
  rw [List.drop_zero] at hdrop
  rw [hdrop]
  refine (flatMap_append_eq_iff _ _ _).trans ?_
  simp only [Option.toList_eq_nil_iff]
  rfl

/-- The rules that are read of lines are those of the lines. -/
theorem sourceRulesFrom_eq (lines : List Str) (skip : Nat) :
    sourceRulesFrom skip lines = (ruleTextsFrom skip lines).map RuleText.source := by
  induction lines generalizing skip with
  | nil => cases skip <;> rfl
  | cons l rest ih =>
      cases skip with
      | succ skip => exact ih skip
      | zero =>
          cases lineKind l with
          | filler hfiller =>
              simp only [sourceRulesFrom, ruleTextsFrom, hfiller, if_true,
                directiveArg_of_filler hfiller]
              exact ih 0
          | other hfiller harg =>
              simp only [sourceRulesFrom, ruleTextsFrom, hfiller, harg, Option.map_none,
                Bool.false_eq_true, if_false]
              exact ih 0
          | malformed hfiller harg hparsed =>
              simp only [sourceRulesFrom, ruleTextsFrom, hfiller, harg, hparsed, Option.map_some,
                Bool.false_eq_true, if_false, List.map_cons, ← ih, RuleText.source,
                RuleText.behind]
              rfl
          | @rule _ r hfiller harg hparsed =>
              simp only [sourceRulesFrom, ruleTextsFrom, hfiller, harg, hparsed, Option.map_some,
                Bool.false_eq_true, if_false, List.map_cons, ← ih, RuleText.source,
                RuleText.behind]
              by_cases hchain : r.chain = true
              · simp only [hchain, if_true]
              · simp only [hchain]
                rfl

/-- The rules that are read are those of the text. -/
theorem sourceRules_eq (input : Str) :
    sourceRules input = (ruleTexts input).map RuleText.source :=
  sourceRulesFrom_eq (joinContinuations input) 0

/-! ## Members -/

namespace RuleText

variable {t : RuleText} {starter : ParsedRule}

/-- The lines behind a rule that parses have the members that the importer chains to it. -/
theorem behind_ok (h : parseSecrule t.arg = .ok starter) :
    (chainMembers t.behind).1 = SourceRule.chained starter t.following := by
  unfold behind SourceRule.chained
  rw [h]
  dsimp only
  by_cases hchain : starter.chain = true
  · rw [if_pos hchain, if_pos hchain]
  · rw [if_neg hchain, if_neg hchain]
    rfl

/-- The lines of a rule are read as its members. -/
theorem args_parsed (h : parseSecrule t.arg = .ok starter) :
    List.Forall₂ (fun arg m => parseSecrule arg = .ok m) t.args
      (starter :: SourceRule.chained starter t.following) := by
  rw [← behind_ok h]
  exact .cons h (chainArgs_parsed t.behind)

/-- A rule of the text that parses is among the members of its chain. -/
theorem mem_members_of_parsed (h : parseSecrule t.arg = .ok starter) {arg : Str}
    (harg : arg ∈ t.args) {m : ParsedRule} (hm : parseSecrule arg = .ok m) :
    m ∈ starter :: SourceRule.chained starter t.following := by
  obtain ⟨m', hm', hparsed⟩ := exists_right_of_forall₂ (args_parsed h) harg
  rwa [Except.ok.inj (hm.symm.trans hparsed)]

end RuleText

/-- A rule that was read from some line. -/
def ParsedRule.IsRead (m : ParsedRule) : Prop := ∃ rest, parseSecrule rest = .ok m

/-- The members of a source rule are read from lines. -/
theorem isRead_of_mem_members {input : Str} {r : SourceRule} (hr : r ∈ sourceRules input)
    {starter m : ParsedRule} (hparsed : r.parsed = .ok starter)
    (hm : m ∈ starter :: SourceRule.chained starter r.following) : m.IsRead := by
  rw [sourceRules_eq] at hr
  obtain ⟨t, -, rfl⟩ := List.mem_map.mp hr
  obtain ⟨arg, -, hread⟩ := exists_left_of_forall₂ (t.args_parsed hparsed) hm
  exact ⟨arg, hread⟩

/-! ## What a rule asks for -/

/-- The transforms of a list of actions. -/
def transformsIn (actions : List (Str × Option Str)) : List Str :=
  actions.filterMap fun a => if a.1 = ("t" : Str) then a.2 else none

/-- The transforms that are in force: those behind the last `none`. -/
def inForce (ts : List Str) : List Str :=
  (ts.reverse.takeWhile fun t => mapTransform t ≠ .none).reverse

/-- The transforms a rule asks for: those behind its last `t:none`. -/
def effectiveTransforms (arg : Str) : List Str :=
  inForce (transformsIn (splitActions (((tokenize arg).drop 2).head?.getD [])))

/-- The name a transform is kept under. -/
def ImportedTransform.kept : ImportedTransform → Option Str
  | .keep name => some name
  | .none => Option.none
  | .unsupported => Option.none

/-- An action other than `t` leaves the transforms. -/
theorem transforms_addAction {rule : ParsedRule} {key : Str} (h : key ≠ ("t" : Str))
    (val : Option Str) : (rule.addAction (key, val)).transforms = rule.transforms := by
  unfold ParsedRule.addAction
  dsimp only
  have hif := @field_ite _ ParsedRule.transforms rule.transforms
  refine hif rfl <| hif rfl <| hif rfl <| hif rfl <| hif rfl <| hif ?_ <| hif rfl ?_
  · cases val.bind fun v => Str.parseUInt 16 (Str.trim v) with
    | none => rfl
    | some status => rfl
  · rw [if_neg h]
    refine hif ?_ <| hif rfl rfl
    cases anomalyScore (val.getD []) with
    | none => rfl
    | some points => rfl

/-- The action `t` adds a transform to a rule. -/
theorem addAction_t (rule : ParsedRule) (val : Option Str) :
    rule.addAction (("t" : Str), val) = rule.addTransform val := by
  rfl

/-- The transforms that are kept, with one more: it is kept, it drops the others, or it is not
supported. -/
def pushTransform (kept : List Str) (t : Str) : List Str :=
  match mapTransform t with
  | .keep name => kept ++ [name]
  | .none => []
  | .unsupported => kept

/-- The transforms of a rule come from its `t` actions, one after another. -/
theorem transforms_foldl (actions : List (Str × Option Str)) (rule : ParsedRule) :
    (actions.foldl ParsedRule.addAction rule).transforms =
      (transformsIn actions).foldl pushTransform rule.transforms := by
  induction actions generalizing rule with
  | nil => rfl
  | cons action actions ih =>
      obtain ⟨key, val⟩ := action
      rw [List.foldl_cons, ih]
      unfold transformsIn
      rw [List.filterMap_cons]
      by_cases hkey : key = ("t" : Str)
      · subst hkey
        rw [addAction_t, if_pos rfl]
        cases val with
        | none => rfl
        | some t =>
            have hpush : (rule.addTransform (some t)).transforms =
                pushTransform rule.transforms t := by
              unfold ParsedRule.addTransform pushTransform
              dsimp only
              cases mapTransform t <;> rfl
            rw [hpush]
            rfl
      · rw [transforms_addAction hkey, if_neg hkey]

/-- Pushed one after another, of the transforms those in force are left, as far as they are kept. -/
theorem foldl_pushTransform (ts : List Str) :
    ts.foldl pushTransform [] = (inForce ts).filterMap fun t => (mapTransform t).kept := by
  unfold inForce
  rw [← List.foldr_reverse, List.filterMap_reverse]
  generalize ts.reverse = last
  induction last with
  | nil => rfl
  | cons t last ih =>
      rw [List.foldr_cons, ih]
      unfold pushTransform
      cases hmap : mapTransform t with
      | none => simp [hmap]
      | unsupported => simp [hmap, ImportedTransform.kept]
      | keep name => simp [hmap, ImportedTransform.kept]

/-- **The transforms of a rule** are those it asks for, as far as they are kept. -/
theorem transforms_eq_effective {arg : Str} {m : ParsedRule} (h : parseSecrule arg = .ok m) :
    m.transforms = (effectiveTransforms arg).filterMap fun t => (mapTransform t).kept := by
  unfold parseSecrule at h
  split at h
  · rename_i vars operator more htokens
    rw [← Except.ok.inj h, transforms_foldl]
    unfold effectiveTransforms
    rw [htokens]
    exact foldl_pushTransform _
  · cases h

end BuduWaf.Rules.Modsec
