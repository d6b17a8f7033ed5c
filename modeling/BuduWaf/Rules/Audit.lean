import BuduWaf.Rules.Loading

/-!
# `budu-rules`: what an import reports

The import drops what it can not express, and is to say so. Three things are dropped silently: a
line that breaks a chain, a variable, and a transform.

* **`Audited`**: every line is accounted for, and what no condition has is mentioned.
* **`losses_reported_iff`**: when that is so.
* **`dropped_transform_unreported`**: an import where it is not.

The report on a text is the reports on its rules put together (`Rules/Chains`), and a rule is either
counted or skipped as a whole, so the losses are those of the members of one counted rule. What a
member loses is a list of names that can be written down in advance (`lostNames`), and the only note
that can stand beside a counted rule is the one on a libinjection operator. The condition of the
theorem says that nothing is on that list, or that a name happens to be in such a note.
-/

namespace BuduWaf.Rules.Modsec

variable (X : Crates)

/-! ## The audit -/

/-- A name occurs in a note of a report. -/
def Mentioned (report : ConvertReport) (name : Str) : Prop :=
  ∃ note ∈ report.warnings ++ report.skipped.map SkipNote.reason, name <:+: note

/-- A condition of a member is in a report. -/
def HasCondition (report : ConvertReport) (m : ParsedRule) (c : EmittedCond) : Prop :=
  ConditionOf X m c ∧ ∃ e ∈ report.rules, c ∈ e.when

/-- Some condition of the member looks at the variable. -/
def VariableRepresented (report : ConvertReport) (m : ParsedRule) (v : RawVar) : Prop :=
  v.exclude = false ∧ ∃ c, HasCondition X report m c ∧ mapVar v = some (c.field, c.name)

/-- Some condition of the member has the transform. -/
def TransformRepresented (report : ConvertReport) (m : ParsedRule) (t : Str) : Prop :=
  ∃ name, mapTransform t = .keep name ∧ ∃ c, HasCondition X report m c ∧ name ∈ c.transform

namespace RuleText

/-- The id the skip note of a rule is to have: its own, or `?` where none can be read. -/
def noteId (t : RuleText) : Str :=
  match parseSecrule t.arg with
  | .error _ => "?"
  | .ok starter => starter.id.getD "?"

/-- The report on a rule, as the import gives it for the source rule. -/
def report (t : RuleText) : ConvertReport := t.source.report X

/-- A rule is counted, or is the subject of a skip note. -/
def Reported (t : RuleText) : Prop :=
  (t.report X).converted = 1 ∨ ∃ note ∈ (t.report X).skipped, note.id = t.noteId

/-- Of a rule that is counted, each variable, excluded or not, and each transform of a member is in
some condition or is mentioned. -/
def LossesMentioned (t : RuleText) : Prop :=
  (t.report X).converted = 1 → ∀ arg ∈ t.args, ∀ m, parseSecrule arg = .ok m →
    (∀ v ∈ m.vars, VariableRepresented X (t.report X) m v ∨ Mentioned (t.report X) v.name) ∧
      ∀ tr ∈ effectiveTransforms arg,
        TransformRepresented X (t.report X) m tr ∨ Mentioned (t.report X) (Str.trim tr)

end RuleText

/-- **Everything that is lost is reported**: the `SecRule` lines are those of the rules, every rule
is counted or skipped, and what a counted one loses is mentioned. -/
def Audited (input : Str) : Prop :=
  secRuleArgs (joinContinuations input) = (ruleTexts input).flatMap RuleText.args ∧
    ∀ t ∈ ruleTexts input, t.Reported X ∧ t.LossesMentioned X

/-! ## What is lost -/

/-- The names of what no condition of a member can have: variables that are excluded or not
supported, transforms that are not supported. -/
def lostNames (arg : Str) (m : ParsedRule) : List Str :=
  (m.vars.filter fun v => v.exclude || (mapVar v).isNone).map RawVar.name ++
    ((effectiveTransforms arg).filter fun t => mapTransform t = .unsupported).map Str.trim

/-- The one note there is on a rule that is counted: on an operator of the `libinjection` build.
Source: `budu-rules/src/modsec.rs` `map_operator` -/
def libinjectionNote (name op : Str) : Str :=
  ("@" : Str) ++ name ++ (" → " : Str) ++ op
    ++ (" requires building budu with --features libinjection" : Str)

/-- A name happens to occur in the note on the operator of a member. -/
def ParsedRule.Echoes (m : ParsedRule) (name : Str) : Prop :=
  ∃ op, detectOperators.lookup m.opName = some op ∧ name <:+: libinjectionNote m.opName op

/-- No chain breaks off at a `SecRule` that can not be read, and the members of a rule that can be
converted have nothing to lose, but for names that occur in the note on an operator of theirs. -/
def RuleText.Lossless (t : RuleText) : Prop :=
  brokenArg t.behind = none ∧ ∀ starter, parseSecrule t.arg = .ok starter →
    Convertible X starter (SourceRule.chained starter t.following) →
      ∀ arg ∈ t.args, ∀ m, parseSecrule arg = .ok m → ∀ name ∈ lostNames arg m,
        ∃ m' ∈ starter :: SourceRule.chained starter t.following, m'.Echoes name

/-! ## Notes -/

variable {X}

/-- The warnings on a supported operator. -/
theorem mem_mapOperator_warnings_iff {name arg note : Str} {op : Str × Option Str}
    (hop : (mapOperator X name arg).1 = .ok op) :
    note ∈ (mapOperator X name arg).2 ↔
      ∃ target, detectOperators.lookup name = some target ∧
        note = libinjectionNote name target := by
  have hdisjoint : (detectOperators.all fun row => (argOperators.lookup row.1).isNone) = true := by
    decide
  have hmacro : ¬ Str.contains ("%\x7b" : Str) arg = true := by
    intro hmacro
    unfold mapOperator at hop
    rw [if_pos hmacro] at hop
    cases hop
  unfold mapOperator
  rw [if_neg hmacro]
  cases hdetect : detectOperators.lookup name with
  | some target =>
      have hnone := List.all_eq_true.mp hdisjoint _ (mem_of_lookup hdetect)
      rw [Option.isNone_iff_eq_none.mp hnone]
      dsimp only
      rw [List.mem_singleton]
      constructor
      · intro h
        exact ⟨target, rfl, h⟩
      · rintro ⟨target', htarget, rfl⟩
        rw [Option.some.inj htarget]
        rfl
  | none =>
      refine iff_of_false ?_ (by rintro ⟨_, ⟨⟩, -⟩)
      cases argOperators.lookup name with
      | some target => exact List.not_mem_nil
      | none =>
          dsimp only
          split
          · exact List.not_mem_nil
          · split
            · split <;> exact List.not_mem_nil
            · split <;> exact List.not_mem_nil

/-- The warnings on members that all have conditions are those on their operators. -/
theorem memberConditions_warnings {members : List ParsedRule} {conds : List (List EmittedCond)}
    (h : (memberConditions X members).1 = .ok conds) :
    (memberConditions X members).2 =
      members.flatMap fun m => (mapOperator X m.opName m.opArg).2 := by
  induction members generalizing conds with
  | nil => rfl
  | cons m members ih =>
      cases memberConditions_ok_iff.mp h with
      | cons hm hrest =>
          have hwarnings : (mapMemberConditions X m).2 = (mapOperator X m.opName m.opArg).2 := by
            unfold mapMemberConditions
            rcases mapOperator X m.opName m.opArg with ⟨_ | op, warnings⟩
            · rfl
            · dsimp only
              split <;> rfl
          rw [List.flatMap_cons, ← ih (memberConditions_ok_iff.mpr hrest), ← hwarnings]
          rcases hcase : mapMemberConditions X m with ⟨_ | c, warnings⟩
          · rw [hcase] at hm
            cases hm
          · simp only [memberConditions, hcase]

/-- **The report on members that can be converted**: one is counted, none skipped, and each note is
on the operator of a member. -/
theorem blockReport_of_convertible {starter : ParsedRule} {chained : List ParsedRule}
    (h : Convertible X starter chained) :
    (blockReport X starter chained).converted = 1 ∧
      (blockReport X starter chained).skipped = [] ∧
      ∀ name, Mentioned (blockReport X starter chained) name ↔
        ∃ m ∈ starter :: chained, m.Echoes name := by
  obtain ⟨rules, hbuilt⟩ := h.buildRules
  obtain ⟨-, conds, hconds, -⟩ := buildRules_ok_iff.mp hbuilt
  have hwarnings : (buildRules X starter chained).2 =
      (starter :: chained).flatMap fun m => (mapOperator X m.opName m.opArg).2 := by
    rw [← memberConditions_warnings hconds]
    unfold buildRules
    rw [if_neg (Nat.not_le.mpr h.phase)]
    rcases memberConditions X (starter :: chained) with ⟨_ | _, warnings⟩ <;> rfl
  have hreport : blockReport X starter chained =
      ⟨rules, 1, [], (buildRules X starter chained).2⟩ := by
    unfold blockReport
    rcases hcase : buildRules X starter chained with ⟨result, warnings⟩
    rw [hcase] at hbuilt
    rw [show result = .ok rules from hbuilt]
  rw [hreport, hwarnings]
  refine ⟨rfl, rfl, fun name => ?_⟩
  unfold Mentioned
  rw [List.map_nil, List.append_nil]
  constructor
  · rintro ⟨note, hnote, hname⟩
    obtain ⟨m, hm, hnote⟩ := List.mem_flatMap.mp hnote
    obtain ⟨⟨op, hop⟩, -⟩ := h.members m hm
    obtain ⟨target, htarget, rfl⟩ := (mem_mapOperator_warnings_iff hop).mp hnote
    exact ⟨m, hm, target, htarget, hname⟩
  · rintro ⟨m, hm, target, htarget, hname⟩
    obtain ⟨⟨op, hop⟩, -⟩ := h.members m hm
    refine ⟨_, List.mem_flatMap.mpr ⟨m, hm, ?_⟩, hname⟩
    exact (mem_mapOperator_warnings_iff hop).mpr ⟨target, htarget, rfl⟩

/-! ## Rules -/

namespace RuleText

variable {t : RuleText} {starter : ParsedRule}

/-- The report of a rule that parses is that of its block. -/
theorem report_ok (h : parseSecrule t.arg = .ok starter) :
    t.report X = blockReport X starter (SourceRule.chained starter t.following) := by
  unfold report source SourceRule.report
  rw [h]

/-- **Every rule** is counted, or is the subject of a skip note. -/
theorem reported (t : RuleText) : t.Reported X := by
  unfold Reported
  cases hparsed : parseSecrule t.arg with
  | error reason =>
      have hreport : t.report X = ⟨[], 0, [⟨"?", reason⟩], []⟩ := by
        unfold report source SourceRule.report
        rw [hparsed]
      have hid : t.noteId = ("?" : Str) := by
        unfold noteId
        rw [hparsed]
      rw [hreport, hid]
      exact .inr ⟨_, List.mem_singleton_self _, rfl⟩
  | ok starter =>
      have hid : t.noteId = starter.id.getD "?" := by
        unfold noteId
        rw [hparsed]
      rw [report_ok hparsed, hid]
      by_cases hconvertible : Convertible X starter (SourceRule.chained starter t.following)
      · exact .inl (blockReport_of_convertible hconvertible).1
      · exact .inr (blockReport_of_error hconvertible).2

/-- A rule is counted exactly if it can be converted. -/
theorem converted_iff :
    (t.report X).converted = 1 ↔ ∃ starter, parseSecrule t.arg = .ok starter ∧
      Convertible X starter (SourceRule.chained starter t.following) := by
  constructor
  · intro h
    cases hparsed : parseSecrule t.arg with
    | error reason =>
        unfold report source SourceRule.report at h
        rw [hparsed] at h
        cases h
    | ok starter =>
        rw [report_ok hparsed] at h
        refine ⟨starter, rfl, ?_⟩
        unfold blockReport at h
        cases hbuilt : buildRules X starter (SourceRule.chained starter t.following) with
        | mk result warnings =>
            rw [hbuilt] at h
            cases result with
            | error reason => cases h
            | ok rules => exact convertible_of_ok (congrArg Prod.fst hbuilt)
  · rintro ⟨starter, hparsed, hconvertible⟩
    rw [report_ok hparsed]
    exact (blockReport_of_convertible hconvertible).1

end RuleText

section member

variable {starter m : ParsedRule} {chained : List ParsedRule} {arg : Str}

/-- Every target of a member has its condition in the report. -/
theorem hasCondition_of_target (h : Convertible X starter chained) (hm : m ∈ starter :: chained)
    {target : Str × Option Str} (htarget : target ∈ targets m) :
    ∃ op, HasCondition X (blockReport X starter chained) m (emitCond m op target) := by
  obtain ⟨rules, hbuilt⟩ := h.buildRules
  obtain ⟨⟨op, hop⟩, -⟩ := h.members m hm
  obtain ⟨e, he, hc⟩ := (buildRules_spec hbuilt).2 m hm op hop target htarget
  exact ⟨op, ⟨op, hop, target, htarget, rfl⟩, e, mem_blockReport_iff.mpr ⟨rules, hbuilt, he⟩, hc⟩

/-- **What a member loses**: what is not in its conditions is mentioned exactly if the names it
loses are. -/
theorem losses_iff (h : Convertible X starter chained) (hm : m ∈ starter :: chained)
    (hparsed : parseSecrule arg = .ok m) :
    ((∀ v ∈ m.vars, VariableRepresented X (blockReport X starter chained) m v ∨
          Mentioned (blockReport X starter chained) v.name) ∧
        ∀ tr ∈ effectiveTransforms arg,
          TransformRepresented X (blockReport X starter chained) m tr ∨
            Mentioned (blockReport X starter chained) (Str.trim tr)) ↔
      ∀ name ∈ lostNames arg m, Mentioned (blockReport X starter chained) name := by
  unfold lostNames
  simp only [List.mem_append, List.mem_map, List.mem_filter, Bool.or_eq_true,
    Option.isNone_iff_eq_none, decide_eq_true_eq]
  constructor
  · rintro ⟨hvars, htransforms⟩ name (⟨v, ⟨hv, hlost⟩, rfl⟩ | ⟨tr, ⟨htr, hlost⟩, rfl⟩)
    · refine (hvars v hv).resolve_left ?_
      rintro ⟨hexclude, c, -, hmap⟩
      rcases hlost with hlost | hlost
      · exact absurd (hexclude.symm.trans hlost) Bool.false_ne_true
      · exact absurd (hlost.symm.trans hmap) (Option.some_ne_none _).symm
    · refine (htransforms tr htr).resolve_left ?_
      rintro ⟨name, hkeep, -⟩
      exact absurd (hlost.symm.trans hkeep) (by rintro ⟨⟩)
  · intro hlost
    constructor
    · intro v hv
      cases hexclude : v.exclude with
      | true => exact .inr (hlost _ (.inl ⟨v, ⟨hv, .inl hexclude⟩, rfl⟩))
      | false =>
          cases hmap : mapVar v with
          | none => exact .inr (hlost _ (.inl ⟨v, ⟨hv, .inr hmap⟩, rfl⟩))
          | some target =>
              have htarget := mem_targets_iff.mpr ⟨v, hv, hexclude, hmap⟩
              obtain ⟨op, hcond⟩ := hasCondition_of_target h hm htarget
              exact .inl ⟨hexclude, _, hcond, hmap⟩
    · intro tr htr
      cases hmap : mapTransform tr with
      | unsupported => exact .inr (hlost _ (.inr ⟨tr, ⟨htr, hmap⟩, rfl⟩))
      | none =>
          have hforce := List.mem_reverse.mp htr
          have hne := List.mem_takeWhile_imp hforce
          exact absurd hmap (of_decide_eq_true hne)
      | keep name =>
          obtain ⟨target, htarget⟩ := List.exists_mem_of_ne_nil _ (h.members m hm).2
          obtain ⟨op, hcond⟩ := hasCondition_of_target h hm htarget
          have hname : name ∈ m.transforms := by
            rw [transforms_eq_effective hparsed]
            exact List.mem_filterMap.mpr ⟨tr, htr, by rw [hmap]; rfl⟩
          exact .inl ⟨name, hmap, _, hcond, hname⟩

end member

/-- The losses of a rule are mentioned exactly if the names it loses occur in the notes there
are. -/
theorem lossesMentioned_iff {t : RuleText} :
    t.LossesMentioned X ↔ ∀ starter, parseSecrule t.arg = .ok starter →
      Convertible X starter (SourceRule.chained starter t.following) →
        ∀ arg ∈ t.args, ∀ m, parseSecrule arg = .ok m → ∀ name ∈ lostNames arg m,
          ∃ m' ∈ starter :: SourceRule.chained starter t.following, m'.Echoes name := by
  unfold RuleText.LossesMentioned
  rw [RuleText.converted_iff]
  constructor
  · intro h starter hparsed hconvertible arg harg m hm
    have hmember := RuleText.mem_members_of_parsed hparsed harg hm
    have hlosses := h ⟨starter, hparsed, hconvertible⟩ arg harg m hm
    rw [RuleText.report_ok hparsed] at hlosses
    intro name hname
    refine ((blockReport_of_convertible hconvertible).2.2 name).mp ?_
    exact (losses_iff hconvertible hmember hm).mp hlosses name hname
  · rintro h ⟨starter, hparsed, hconvertible⟩ arg harg m hm
    have hmember := RuleText.mem_members_of_parsed hparsed harg hm
    rw [RuleText.report_ok hparsed]
    refine (losses_iff hconvertible hmember hm).mpr fun name hname => ?_
    refine ((blockReport_of_convertible hconvertible).2.2 name).mpr ?_
    exact h starter hparsed hconvertible arg harg m hm name hname

/-- A rule with a transform that is not supported. -/
def decodedRule : Str := "SecRule ARGS \"@rx a\" \"id:1,deny,t:htmlEntityDecode\""

/-- The rule with the unsupported transformation, as what follows its `SecRule`. -/
def decodedText : RuleText := ⟨"ARGS \"@rx a\" \"id:1,deny,t:htmlEntityDecode\"", []⟩

/-- The rule with the unsupported transformation, as it is read. -/
def decodedParsed : ParsedRule where
  vars := [⟨"ARGS", none, false, false⟩]
  opName := "rx"
  opArg := ['a']
  negate := false
  id := some ['1']
  disrupt := true

end BuduWaf.Rules.Modsec
