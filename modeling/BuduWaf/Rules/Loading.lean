import BuduWaf.Rules.Exact
import BuduWaf.Rules.Imported
import BuduWaf.Rules.SourceText

/-!
# `budu-rules`: which imports load

The import writes a rule file. One rule that does not compile makes the whole file useless, and
the import does not check all that the compiler does.

* **`tomlOf`**: the text of a report.
* **`SourceRule.Loadable`**: what a source rule needs beyond being converted.
* **`report_wellFormed_iff`**: the rules emitted for it are well formed exactly then.
* **`imported_rules_load_iff`**: when the imported file loads.
* **`forwarded_address_refused`**: an import that does not.

Both sides of the equivalence are conjunctions over conditions. `Rules/Exact` says when a file
compiles, condition by condition; here each condition of an emitted rule is traced back to the
member and the target it was written for (`wellFormed_emitCond_iff`), and its operator to the
operator of the file, one case for each form that operators are mapped to (`MappedTo`). What is left
over are the things the import does not check.

Writing and reading the file are third-party: `ReadsBack` says that what was written is read as it
was, and is a hypothesis.
-/

namespace BuduWaf.Rules.Modsec

variable (X : Crates)

/-! ## The written file -/

section written

variable (write : List EmittedRule → Except Str Str)

/-- The text of a report, for some writer; empty where nothing was emitted or writing failed.
Source: `budu-rules/src/modsec.rs` `convert` (`let toml`) -/
def tomlOf (report : ConvertReport) : Str :=
  if report.rules.isEmpty then [] else (write report.rules).toOption.getD []

/-- What is written is read back as the rules that were written. -/
def ReadsBack (rules : List EmittedRule) : Prop :=
  ∃ text, write rules = .ok text ∧ text ≠ [] ∧
    X.tomlRules text = .ok (rules.map EmittedRule.toDef)

/-- A text that is empty, or is a rule file that compiles. -/
def EmptyOrLoads (toml : Str) (scoring : ScoringConfig) (defaultTz : Int) (generation : Nat) :
    Prop :=
  toml = [] ∨ ∃ defs rs, X.tomlRules toml = .ok defs ∧
    compileWithTz X defs scoring defaultTz generation = .ok rs

end written

/-! ## What a source rule needs -/

/-- The networks of an `@ipMatch`.
Source: `budu-rules/src/modsec.rs` `map_operator` (`let nets`) -/
def ipMatchItems (arg : Str) : List Str :=
  ((arg.splitOn ',').map Str.trim).filter fun s => !s.isEmpty

/-- The operator and its argument are ones the compiler takes on a target. -/
structure ParsedRule.OperatorLoads (m : ParsedRule) (target : Str × Option Str) : Prop where
  /-- A numeric operator has a number. -/
  number : m.opName ∈ numericOpNames → ∃ n, Str.parseInt 64 (Str.trim m.opArg) = some n
  /-- The pattern of a phrase list is accepted. -/
  phrases : m.opName = ("pm" : Str) → ∃ re, X.regexNew (phrasesToRegex m.opArg) = .ok re
  /-- A network is compared to the client's address only. -/
  address : m.opName = ("ipMatch" : Str) → target.1 = ("ip" : Str)
  /-- What it is compared to is a network or an address. -/
  network : m.opName = ("ipMatch" : Str) → ∀ item, ipMatchItems m.opArg = [item] →
    ∃ net, (X.parseNet item).or ((X.parseIp item).map IpNet.ofAddr) = some net

/-- The compiler takes a member on a target: a selector is not blank. -/
def ParsedRule.LoadsOn (m : ParsedRule) (target : Str × Option Str) : Prop :=
  m.OperatorLoads X target ∧ ∀ name, target.2 = some name → Str.trim name ≠ []

/-- The compiler takes the action of a starter: it adds some points, or blocks with a status. -/
structure ParsedRule.ActionLoads (starter : ParsedRule) : Prop where
  /-- No rule adds nothing. -/
  points : starter.allow = false → starter.score ≠ some 0
  /-- The status is one. -/
  status : starter.allow = false → starter.score = none → starter.disrupt = true →
    ∀ status, starter.status = some status → IsStatus status

/-- What a rule of the text needs, if it can be converted, for its rules to compile. -/
def SourceRule.Loadable (r : SourceRule) : Prop :=
  ∀ starter, r.parsed = .ok starter →
    Convertible X starter (SourceRule.chained starter r.following) →
      starter.ActionLoads ∧ ∀ m ∈ starter :: SourceRule.chained starter r.following,
        ∀ target ∈ targets m, m.LoadsOn X target

variable {X}

/-! ## Fields -/

/-- The fields without a name that variables are mapped to. -/
def importedFields : List Str :=
  [("args" : Str), "arg_names", "args_count", "query", "uri", "path", "method", "body", "headers",
    "header_names", "cookies", "cookie_names", "ip"]

/-- The fields with a name that variables are mapped to. -/
def importedNamedFields : List Str := [("arg" : Str), "header", "cookie"]

/-- A field without a name has none, one with a name has one. -/
theorem mapVar_spec {v : RawVar} {target : Str × Option Str} (h : mapVar v = some target) :
    target.1 ∈ importedFields ∧ target.2 = none ∨
      target.1 ∈ importedNamedFields ∧ ∃ name, target.2 = some name := by
  have htable : (variableFields.all fun row => importedFields.contains row.2.1 &&
      row.2.2.all fun field => importedNamedFields.contains field) = true := by
    decide
  unfold mapVar at h
  dsimp only at h
  by_cases hcount : v.count = true
  · rw [if_pos hcount] at h
    split at h
    · obtain rfl := Option.some.inj h
      exact .inl ⟨by decide, rfl⟩
    · cases h
  rw [if_neg hcount] at h
  cases hrow : variableFields.lookup (Str.toAsciiUppercase v.name) with
  | none =>
      rw [hrow] at h
      cases h
  | some row =>
      obtain ⟨all, named⟩ := row
      obtain ⟨hall, hnamed⟩ := Bool.and_eq_true_iff.mp
        (List.all_eq_true.mp htable _ (mem_of_lookup hrow))
      rw [hrow] at h
      have hplain : all ∈ importedFields := List.contains_iff_mem.mp hall
      cases named with
      | none =>
          obtain rfl := Option.some.inj h
          exact .inl ⟨hplain, rfl⟩
      | some field =>
          have hfield : field ∈ importedNamedFields := List.contains_iff_mem.mp hnamed
          cases hselector : v.selector with
          | none =>
              rw [hselector] at h
              obtain rfl := Option.some.inj h
              exact .inl ⟨hplain, rfl⟩
          | some s =>
              rw [hselector] at h
              dsimp only at h
              split at h
              · cases h
              · obtain rfl := Option.some.inj h
                exact .inr ⟨hfield, s, rfl⟩

/-- The fields that variables are mapped to are no clocks, and requests have them. -/
theorem importedFields_spec {field : Str} (h : field ∈ importedFields ++ importedNamedFields) :
    field ∉ responseOnlyNames ∧ field ≠ ("time" : Str) ∧ field ≠ ("day" : Str) := by
  have hall : ((importedFields ++ importedNamedFields).all fun field =>
      decide (field ∉ responseOnlyNames ∧ field ≠ ("time" : Str) ∧ field ≠ ("day" : Str))) =
        true := by
    decide
  exact of_decide_eq_true (List.all_eq_true.mp hall field h)

/-! ## Operators -/

/-- The operators that compare texts, by their names in the rule file. -/
def textNames : List Str := [("contains" : Str), "beginsWith", "endsWith", "streq", "eq"]

/-- The operators of the `libinjection` build. -/
def detectNames : List Str := [("detectSQLi" : Str), "detectXSS"]

/-- What an operator of the file is mapped to. -/
inductive MappedTo (name arg : Str) : Str × Option Str → Prop where
  | regex : name = ("rx" : Str) → MappedTo name arg ("regex", some arg)
  | text {op : Str} : name ∈ textNames → op ∈ textOpNames → MappedTo name arg (op, some arg)
  | numeric : name ∈ numericOpNames → MappedTo name arg (name, some arg)
  | libinjection {op : Str} : name ∈ detectNames → op ∈ libinjectionOpNames →
      MappedTo name arg (op, none)
  | phrases : name = ("pm" : Str) → MappedTo name arg ("regex", some (phrasesToRegex arg))
  | network {item : Str} : name = ("ipMatch" : Str) → ipMatchItems arg = [item] →
      MappedTo name arg ("cidr", some item)

/-- An operator that is mapped is mapped to one of the forms. -/
theorem mappedTo_of_mapOperator {name arg : Str} {op : Str × Option Str}
    (h : (mapOperator X name arg).1 = .ok op) : MappedTo name arg op := by
  unfold mapOperator at h
  by_cases hmacro : Str.contains ("%\x7b" : Str) arg = true
  · rw [if_pos hmacro] at h
    cases h
  rw [if_neg hmacro] at h
  cases harg : argOperators.lookup name with
  | some target =>
      rw [harg] at h
      obtain rfl := Except.ok.inj h
      have htable : (argOperators.all fun row => decide (
          row.1 = ("rx" : Str) ∧ row.2 = ("regex" : Str) ∨
          row.1 ∈ textNames ∧ row.2 ∈ textOpNames ∨
          row.1 ∈ numericOpNames ∧ row.2 = row.1)) = true := by
        decide
      rcases of_decide_eq_true (List.all_eq_true.mp htable _ (mem_of_lookup harg)) with
        ⟨hname, hop⟩ | ⟨hname, hop⟩ | ⟨hname, hop⟩
      · obtain rfl : target = ("regex" : Str) := hop
        exact .regex hname
      · exact .text hname hop
      · obtain rfl : target = name := hop
        exact .numeric hname
  | none =>
      rw [harg] at h
      cases hdetect : detectOperators.lookup name with
      | some target =>
          rw [hdetect] at h
          obtain rfl := Except.ok.inj h
          have htable : (detectOperators.all fun row => decide (
              row.1 ∈ detectNames ∧ row.2 ∈ libinjectionOpNames)) = true := by
            decide
          obtain ⟨hname, hop⟩ :=
            of_decide_eq_true (List.all_eq_true.mp htable _ (mem_of_lookup hdetect))
          exact .libinjection hname hop
      | none =>
          rw [hdetect] at h
          dsimp only at h
          by_cases hpm : name = ("pm" : Str)
          · rw [if_pos hpm] at h
            obtain rfl := Except.ok.inj h
            exact .phrases hpm
          rw [if_neg hpm] at h
          by_cases hip : name = ("ipMatch" : Str)
          · rw [if_pos hip] at h
            have hitems : ((arg.splitOn ',').map Str.trim).filter (fun s => !s.isEmpty) =
                ipMatchItems arg := rfl
            rw [hitems] at h
            cases hone : ipMatchItems arg with
            | nil =>
                rw [hone] at h
                cases h
            | cons item items =>
                rw [hone] at h
                cases items with
                | nil =>
                    obtain rfl := Except.ok.inj h
                    exact .network hip hone
                | cons _ _ => cases h
          · rw [if_neg hip] at h
            split at h <;> cases h

section compiler

variable {tz : Str → Prop} {c : CondDef}

/-- An operator that compares numbers is of no other kind. -/
theorem notMem_of_numeric {name : Str} (h : name ∈ numericOpNames) :
    name ∉ textOpNames ++ libinjectionOpNames ++ clockOpNames ++
      [("regex" : Str), "cidr", "in"] := by
  have hall : (numericOpNames.all fun name => decide (name ∉ textOpNames ++
      libinjectionOpNames ++ clockOpNames ++ [("regex" : Str), "cidr", "in"])) = true := by
    decide
  exact of_decide_eq_true (List.all_eq_true.mp hall name h)

/-- A numeric operator is well formed iff its trimmed argument is an `i64`. -/
theorem opWellFormed_numeric_iff (hop : c.op ∈ numericOpNames) :
    c.OpWellFormed X tz ↔ ∃ n, Str.parseInt 64 (Str.trim c.value) = some n := by
  have hother := notMem_of_numeric hop
  simp only [List.mem_append, not_or] at hother
  constructor
  · intro h
    cases h with
    | numeric _ hvalue => exact hvalue
    | text hmem => exact absurd hmem hother.1.1.1
    | libinjection hmem => exact absurd hmem hother.1.1.2
    | regex hop' => exact absurd (by rw [hop']; decide) hother.2
    | cidr hop' => exact absurd (by rw [hop']; decide) hother.2
    | isIn hop' => exact absurd (by rw [hop']; decide) hother.2
    | timeBetween hop' => exact absurd (by rw [hop']; decide) hother.1.2
    | dayOfWeek hop' => exact absurd (by rw [hop']; decide) hother.1.2
  · exact .numeric hop

/-- `regex` is well formed iff its pattern compiles. -/
theorem opWellFormed_regex_iff (hop : c.op = ("regex" : Str)) :
    c.OpWellFormed X tz ↔ ∃ re, X.regexNew c.value = .ok re := by
  constructor
  · intro h
    cases h with
    | regex _ hvalue => exact hvalue
    | text hmem => exact absurd (hop ▸ hmem) (by decide)
    | numeric hmem => exact absurd (hop ▸ hmem) (by decide)
    | libinjection hmem => exact absurd (hop ▸ hmem) (by decide)
    | cidr hop' => exact absurd (hop.symm.trans hop') (by decide)
    | isIn hop' => exact absurd (hop.symm.trans hop') (by decide)
    | timeBetween hop' => exact absurd (hop.symm.trans hop') (by decide)
    | dayOfWeek hop' => exact absurd (hop.symm.trans hop') (by decide)
  · exact .regex hop

/-- `cidr` is well formed iff its field is `ip` and its argument a network or an address. -/
theorem opWellFormed_cidr_iff (hop : c.op = ("cidr" : Str)) :
    c.OpWellFormed X tz ↔ c.field = ("ip" : Str) ∧
      ∃ net, (X.parseNet c.value).or ((X.parseIp c.value).map IpNet.ofAddr) = some net := by
  constructor
  · intro h
    cases h with
    | cidr _ hfield hvalue => exact ⟨hfield, hvalue⟩
    | text hmem => exact absurd (hop ▸ hmem) (by decide)
    | numeric hmem => exact absurd (hop ▸ hmem) (by decide)
    | libinjection hmem => exact absurd (hop ▸ hmem) (by decide)
    | regex hop' => exact absurd (hop.symm.trans hop') (by decide)
    | isIn hop' => exact absurd (hop.symm.trans hop') (by decide)
    | timeBetween hop' => exact absurd (hop.symm.trans hop') (by decide)
    | dayOfWeek hop' => exact absurd (hop.symm.trans hop') (by decide)
  · rintro ⟨hfield, hvalue⟩
    exact .cidr hop hfield hvalue

end compiler

/-- The names of the operators that need nothing of `OperatorLoads`. -/
theorem freeNames_spec {name : Str} (h : name ∈ [("rx" : Str)] ++ textNames ++ detectNames) :
    name ∉ numericOpNames ∧ name ≠ ("pm" : Str) ∧ name ≠ ("ipMatch" : Str) := by
  have hall : (([("rx" : Str)] ++ textNames ++ detectNames).all fun name =>
      decide (name ∉ numericOpNames ∧ name ≠ ("pm" : Str) ∧ name ≠ ("ipMatch" : Str))) = true := by
    decide
  exact of_decide_eq_true (List.all_eq_true.mp hall name h)

/-- An operator with a free name needs nothing. -/
theorem operatorLoads_of_free {m : ParsedRule} {target : Str × Option Str}
    (h : m.opName ∉ numericOpNames ∧ m.opName ≠ ("pm" : Str) ∧ m.opName ≠ ("ipMatch" : Str)) :
    m.OperatorLoads X target :=
  ⟨fun hname => absurd hname h.1, fun hname => absurd hname h.2.1,
    fun hname => absurd hname h.2.2, fun hname => absurd hname h.2.2⟩

/-- **The operator of an emitted condition** compiles exactly if it loads. -/
theorem opWellFormed_emitCond_iff (hlib : X.features.libinjection = true) {tz : Str → Prop}
    {m : ParsedRule} {op target : Str × Option Str}
    (hrx : m.opName = ("rx" : Str) → ∃ re, X.regexNew m.opArg = .ok re)
    (hop : (mapOperator X m.opName m.opArg).1 = .ok op) :
    (emitCond m op target).toDef.OpWellFormed X tz ↔ m.OperatorLoads X target := by
  cases mappedTo_of_mapOperator hop with
  | regex hname =>
      have hfree := freeNames_spec (List.mem_append_left detectNames
        (List.mem_append_left textNames (List.mem_singleton.mpr hname)))
      exact iff_of_true ((opWellFormed_regex_iff rfl).mpr (hrx hname))
        (operatorLoads_of_free hfree)
  | text hname hmem =>
      have hfree := freeNames_spec (List.mem_append_left detectNames
        (List.mem_append_right [("rx" : Str)] hname))
      exact iff_of_true (.text hmem) (operatorLoads_of_free hfree)
  | numeric hname =>
      rw [opWellFormed_numeric_iff hname]
      constructor
      · intro hvalue
        have hother := notMem_of_numeric hname
        refine ⟨fun _ => hvalue, fun hpm => ?_, fun hip => ?_, fun hip => ?_⟩
        · rw [hpm] at hname
          exact absurd hname (by decide)
        · rw [hip] at hname
          exact absurd hname (by decide)
        · rw [hip] at hname
          exact absurd hname (by decide)
      · intro hloads
        exact hloads.number hname
  | libinjection hname hmem =>
      have hfree := freeNames_spec (List.mem_append_right ([("rx" : Str)] ++ textNames) hname)
      exact iff_of_true (.libinjection hmem hlib) (operatorLoads_of_free hfree)
  | phrases hname =>
      rw [opWellFormed_regex_iff rfl]
      constructor
      · intro hvalue
        refine ⟨fun hnumeric => ?_, fun _ => hvalue, fun hip => ?_, fun hip => ?_⟩
        · rw [hname] at hnumeric
          exact absurd hnumeric (by decide)
        · exact absurd (hname.symm.trans hip) (by decide)
        · exact absurd (hname.symm.trans hip) (by decide)
      · intro hloads
        exact hloads.phrases hname
  | @network item hname hitem =>
      rw [opWellFormed_cidr_iff rfl]
      constructor
      · rintro ⟨haddress, hnet⟩
        refine ⟨fun hnumeric => ?_, fun hpm => ?_, fun _ => haddress, ?_⟩
        · rw [hname] at hnumeric
          exact absurd hnumeric (by decide)
        · exact absurd (hname.symm.trans hpm) (by decide)
        · intro _ item' hitem'
          obtain rfl := List.singleton_injective (hitem.symm.trans hitem')
          exact hnet
      · intro hloads
        exact ⟨hloads.address hname, hloads.network hname item hitem⟩

/-! ## Conditions -/

/-- The transforms of a rule are known to the compiler. -/
def ParsedRule.KnownTransforms (m : ParsedRule) : Prop := ∀ t ∈ m.transforms, t ∈ transformTexts

/-- A transform is kept under a name the compiler knows. -/
theorem mem_transformTexts_of_kept {t name : Str} (h : (mapTransform t).kept = some name) :
    name ∈ transformTexts := by
  have htable : (keptTransforms.all fun row => transformTexts.contains row.2) = true := by
    decide
  unfold mapTransform at h
  dsimp only at h
  split at h
  · cases h
  · cases hrow : keptTransforms.lookup (Str.trim t) with
    | none =>
        rw [hrow] at h
        cases h
    | some kept =>
        rw [hrow] at h
        obtain rfl := Option.some.inj h
        exact List.contains_iff_mem.mp (List.all_eq_true.mp htable _ (mem_of_lookup hrow))

/-- Whatever is parsed has transforms the compiler knows. -/
theorem knownTransforms_of_parseSecrule {rest : Str} {m : ParsedRule}
    (h : parseSecrule rest = .ok m) : m.KnownTransforms := by
  intro name hname
  rw [transforms_eq_effective h] at hname
  obtain ⟨t, -, hkept⟩ := List.mem_filterMap.mp hname
  exact mem_transformTexts_of_kept hkept

/-- **An emitted condition** compiles exactly if its member loads on its target. -/
theorem wellFormed_emitCond_iff (hlib : X.features.libinjection = true) {tz : Str → Prop}
    {m : ParsedRule} {op target : Str × Option Str} (hknown : m.KnownTransforms)
    (hrx : m.opName = ("rx" : Str) → ∃ re, X.regexNew m.opArg = .ok re)
    (hop : (mapOperator X m.opName m.opArg).1 = .ok op) (htarget : target ∈ targets m) :
    (emitCond m op target).toDef.WellFormed X tz ↔ m.LoadsOn X target := by
  obtain ⟨v, -, -, hv⟩ := mem_targets_iff.mp htarget
  have hfields := mapVar_spec hv
  have hmem : target.1 ∈ importedFields ++ importedNamedFields := by
    rcases hfields with ⟨hplain, -⟩ | ⟨hnamed, -⟩
    · exact List.mem_append_left _ hplain
    · exact List.mem_append_right _ hnamed
  obtain ⟨-, htime, hday⟩ := importedFields_spec hmem
  have hname : (emitCond m op target).toDef.FieldWellFormed ↔
      ∀ name, target.2 = some name → Str.trim name ≠ [] := by
    have hplainTable : (importedFields.all fun f => plainFieldNames.contains f) = true := by decide
    have hnamedTable : (importedNamedFields.all fun f => namedFieldNames.contains f &&
        !plainFieldNames.contains f) = true := by decide
    unfold CondDef.FieldWellFormed
    show target.1 ∈ plainFieldNames ∨ target.1 ∈ namedFieldNames ∧
      Str.trim (target.2.getD []) ≠ [] ↔ _
    rcases hfields with ⟨hplain, hnone⟩ | ⟨hnamed, name, hsome⟩
    · have hf := List.contains_iff_mem.mp (List.all_eq_true.mp hplainTable _ hplain)
      refine iff_of_true (.inl hf) ?_
      rw [hnone]
      rintro name ⟨⟩
    · have hf := List.all_eq_true.mp hnamedTable _ hnamed
      simp only [Bool.and_eq_true, Bool.not_eq_true', List.contains_eq_mem, decide_eq_true_eq,
        decide_eq_false_iff_not] at hf
      rw [hsome]
      constructor
      · rintro (hplain | ⟨-, hne⟩) name' heq
        · exact absurd hplain hf.2
        · obtain rfl := Option.some.inj heq
          exact hne
      · intro hne
        exact .inr ⟨hf.1, hne name rfl⟩
  constructor
  · intro h
    exact ⟨(opWellFormed_emitCond_iff hlib hrx hop).mp h.op, hname.mp h.field⟩
  · rintro ⟨hloads, hne⟩
    exact ⟨hname.mpr hne, (opWellFormed_emitCond_iff hlib hrx hop).mpr hloads,
      fun heq => absurd heq htime, fun heq => absurd heq hday, hknown⟩

/-! ## Rules -/

/-- Each condition of the rules that are built is one of a member, and each member has one for
each of its targets. -/
theorem buildRules_spec {starter : ParsedRule} {chained : List ParsedRule}
    {rules : List EmittedRule} (h : (buildRules X starter chained).1 = .ok rules) :
    (∀ e ∈ rules, (∃ id, e = emitRule starter id e.when) ∧ e.when ≠ [] ∧
        ∀ c ∈ e.when, ∃ m ∈ starter :: chained, ConditionOf X m c) ∧
      ∀ m ∈ starter :: chained, ∀ op, (mapOperator X m.opName m.opArg).1 = .ok op →
        ∀ target ∈ targets m, ∃ e ∈ rules, emitCond m op target ∈ e.when := by
  obtain ⟨-, conds, -, hassembled⟩ := buildRules_ok_iff.mp h
  have hemit := emitRule_of_assembleRules hassembled
  by_cases hchained : chained = []
  · subst hchained
    obtain ⟨op, hop, -, hwhen⟩ := buildRules_single h
    constructor
    · intro e he
      have hmem := List.mem_map_of_mem (f := EmittedRule.when) he
      rw [hwhen] at hmem
      obtain ⟨target, htarget, heq⟩ := List.mem_map.mp hmem
      rw [← heq]
      refine ⟨heq ▸ hemit e he, List.cons_ne_nil _ _, fun c hc => ?_⟩
      obtain rfl := List.mem_singleton.mp hc
      exact ⟨starter, List.mem_cons_self, op, hop, target, htarget, rfl⟩
    · intro m hm op' hop' target htarget
      obtain rfl := List.mem_singleton.mp hm
      obtain rfl := Except.ok.inj (hop.symm.trans hop')
      have hmem := List.mem_map_of_mem (f := fun t => [emitCond m op t]) htarget
      rw [← hwhen] at hmem
      obtain ⟨e, he, heq⟩ := List.mem_map.mp hmem
      exact ⟨e, he, by rw [heq]; exact List.mem_singleton_self _⟩
  · obtain ⟨hconvertible, rule, rfl, hconditions⟩ := buildRules_chained hchained h
    constructor
    · intro e he
      obtain rfl := List.mem_singleton.mp he
      refine ⟨hemit e he, ?_, fun c hc => ?_⟩
      · intro hnil
        rw [hnil] at hconditions
        cases hconditions
      · obtain ⟨m, hm, hcondition⟩ := exists_left_of_forall₂ hconditions hc
        exact ⟨m, hm, hcondition⟩
    · intro m hm op hop target htarget
      refine ⟨rule, List.mem_singleton_self _, ?_⟩
      obtain ⟨c, hc, op', hop', target', htarget', rfl⟩ := exists_right_of_forall₂ hconditions hm
      obtain rfl := Except.ok.inj (hop.symm.trans hop')
      obtain ⟨only, honly⟩ := List.length_eq_one_iff.mp (hconvertible.single hchained m hm)
      rw [honly, List.mem_singleton] at htarget htarget'
      rw [htarget, ← htarget']
      exact hc

/-- The action of an emitted rule compiles exactly if it loads. -/
theorem actionWellFormed_emitRule_iff (starter : ParsedRule) (id : Str)
    (when_ : List EmittedCond) :
    (emitRule starter id when_).toDef.ActionWellFormed ↔ starter.ActionLoads := by
  unfold RuleDef.ActionWellFormed EmittedRule.toDef emitRule
  cases hallow : starter.allow with
  | true =>
      have haction : actionOf starter = (("allow" : Str), none, 0) := by
        unfold actionOf
        rw [hallow, if_pos rfl]
      rw [haction]
      refine iff_of_true trivial ⟨fun hno => ?_, fun hno => ?_⟩
      · exact absurd (hallow.symm.trans hno) (by decide)
      · exact absurd (hallow.symm.trans hno) (by decide)
  | false =>
      cases hscore : starter.score with
      | some points =>
          have haction : actionOf starter = (("score" : Str), none, points) := by
            unfold actionOf
            rw [hallow, if_neg Bool.false_ne_true, hscore]
          rw [haction]
          show points ≠ 0 ↔ _
          constructor
          · intro hne
            refine ⟨fun _ heq => ?_, fun _ hnone => ?_⟩
            · exact hne (Option.some.inj (hscore.symm.trans heq))
            · exact absurd (hscore.symm.trans hnone) (Option.some_ne_none _)
          · rintro ⟨hpoints, -⟩ rfl
            exact hpoints hallow hscore
      | none =>
          cases hdisrupt : starter.disrupt with
          | true =>
              have haction : actionOf starter =
                  (("block" : Str), some (starter.status.getD 403), 0) := by
                unfold actionOf
                rw [hallow, if_neg Bool.false_ne_true, hscore]
                dsimp only
                rw [hdisrupt, if_pos rfl]
              rw [haction]
              show IsStatus (starter.status.getD 403) ↔ _
              constructor
              · intro hstatus
                refine ⟨fun _ heq => ?_, fun _ _ _ status heq => ?_⟩
                · exact absurd (hscore.symm.trans heq) (Option.some_ne_none _).symm
                · rw [heq] at hstatus
                  exact hstatus
              · rintro ⟨-, hstatus⟩
                cases hsource : starter.status with
                | none => exact ⟨by decide, by decide⟩
                | some status => exact hstatus hallow hscore hdisrupt status hsource
          | false =>
              have haction : actionOf starter = (("log" : Str), none, 0) := by
                unfold actionOf
                rw [hallow, if_neg Bool.false_ne_true, hscore]
                dsimp only
                rw [hdisrupt, if_neg Bool.false_ne_true]
              rw [haction]
              refine iff_of_true trivial ⟨fun _ heq => ?_, fun _ _ hyes => ?_⟩
              · exact absurd (hscore.symm.trans heq) (Option.some_ne_none _).symm
              · exact absurd (hdisrupt.symm.trans hyes) (by decide)

/-! ## Files -/

variable (X) in
/-- The `@rx` arguments that are read are patterns the regex crate accepts. -/
def AcceptsPatterns (input : Str) : Prop :=
  ∀ r ∈ sourceRules input, ∀ starter, r.parsed = .ok starter →
    ∀ m ∈ starter :: SourceRule.chained starter r.following, m.opName = ("rx" : Str) →
      ∃ re, X.regexNew m.opArg = .ok re

/-- The rules that are built of members that can be converted are well formed exactly if the action
and the members load. -/
theorem blockReport_wellFormed_iff (hlib : X.features.libinjection = true) {tz : Str → Prop}
    {starter : ParsedRule} {chained : List ParsedRule}
    (hread : ∀ m ∈ starter :: chained,
      m.KnownTransforms ∧ (m.opName = ("rx" : Str) → ∃ re, X.regexNew m.opArg = .ok re))
    (hconvertible : Convertible X starter chained) :
    (∀ e ∈ (blockReport X starter chained).rules, e.toDef.WellFormed X tz) ↔
      starter.ActionLoads ∧ ∀ m ∈ starter :: chained, ∀ target ∈ targets m, m.LoadsOn X target := by
  obtain ⟨rules, hbuilt⟩ := hconvertible.buildRules
  obtain ⟨hrules, htargets⟩ := buildRules_spec hbuilt
  have hmem : ∀ e, e ∈ (blockReport X starter chained).rules ↔ e ∈ rules := by
    intro e
    rw [mem_blockReport_iff, hbuilt]
    exact ⟨fun ⟨_, heq, he⟩ => Except.ok.inj heq ▸ he, fun he => ⟨rules, rfl, he⟩⟩
  constructor
  · intro hwell
    constructor
    · obtain ⟨e, he⟩ := List.exists_mem_of_ne_nil _ (rules_ne_nil hbuilt)
      obtain ⟨⟨id, hid⟩, -⟩ := hrules e he
      have haction := (hwell e ((hmem e).mpr he)).action
      rw [hid] at haction
      exact (actionWellFormed_emitRule_iff _ _ _).mp haction
    · intro m hm target htarget
      obtain ⟨⟨op, hop⟩, -⟩ := hconvertible.members m hm
      obtain ⟨e, he, hc⟩ := htargets m hm op hop target htarget
      have hcond := (hwell e ((hmem e).mpr he)).conds _ (List.mem_map_of_mem hc)
      exact (wellFormed_emitCond_iff hlib (hread m hm).1 (hread m hm).2 hop htarget).mp hcond
  · rintro ⟨haction, hmembers⟩ e he
    obtain ⟨⟨id, hid⟩, hne, hconds⟩ := hrules e ((hmem e).mp he)
    have hcond : ∀ c ∈ e.toDef.when, c.WellFormed X tz ∧ c.field ∉ responseOnlyNames := by
      intro c hc
      obtain ⟨emitted, hemitted, rfl⟩ := List.mem_map.mp hc
      obtain ⟨m, hm, op, hop, target, htarget, rfl⟩ := hconds emitted hemitted
      obtain ⟨v, -, -, hv⟩ := mem_targets_iff.mp htarget
      refine ⟨(wellFormed_emitCond_iff hlib (hread m hm).1 (hread m hm).2 hop htarget).mpr
        (hmembers m hm target htarget), ?_⟩
      rcases mapVar_spec hv with ⟨hplain, -⟩ | ⟨hnamed, -⟩
      · exact (importedFields_spec (List.mem_append_left _ hplain)).1
      · exact (importedFields_spec (List.mem_append_right _ hnamed)).1
    have hphase : e.toDef.phase = .request := by
      rw [hid]
      rfl
    refine ⟨?_, fun c hc => (hcond c hc).1, ?_, ?_, ?_⟩
    · exact fun hnil => hne (List.map_eq_nil_iff.mp hnil)
    · rw [hphase]
      exact fun c hc => (hcond c hc).2
    · intro hresponse
      exact absurd (hphase.symm.trans hresponse) (by decide)
    · rw [hid]
      exact (actionWellFormed_emitRule_iff _ _ _).mpr haction

/-- **The rules emitted for a source rule** are well formed exactly if it is loadable. -/
theorem report_wellFormed_iff (hlib : X.features.libinjection = true) {tz : Str → Prop}
    {input : Str} (hrx : AcceptsPatterns X input) {r : SourceRule} (hr : r ∈ sourceRules input) :
    (∀ e ∈ (r.report X).rules, e.toDef.WellFormed X tz) ↔ r.Loadable X := by
  unfold SourceRule.Loadable
  cases hparsed : r.parsed with
  | error reason =>
      have hnone : (r.report X).rules = [] := by
        unfold SourceRule.report
        rw [hparsed]
      rw [hnone]
      exact iff_of_true (fun e he => absurd he List.not_mem_nil) (by rintro _ ⟨⟩)
  | ok starter =>
      have hreport : r.report X =
          blockReport X starter (SourceRule.chained starter r.following) := by
        unfold SourceRule.report
        rw [hparsed]
      have hread : ∀ m ∈ starter :: SourceRule.chained starter r.following,
          m.KnownTransforms ∧ (m.opName = ("rx" : Str) → ∃ re, X.regexNew m.opArg = .ok re) := by
        intro m hm
        obtain ⟨rest, hrest⟩ := isRead_of_mem_members hr hparsed hm
        exact ⟨knownTransforms_of_parseSecrule hrest, hrx r hr starter hparsed m hm⟩
      rw [hreport]
      by_cases hconvertible : Convertible X starter (SourceRule.chained starter r.following)
      · rw [blockReport_wellFormed_iff hlib hread hconvertible]
        constructor
        · intro hloads starter' heq _
          obtain rfl := Except.ok.inj heq
          exact hloads
        · intro hloads
          exact hloads starter rfl hconvertible
      · rw [(blockReport_of_error hconvertible).1]
        refine iff_of_true (fun e he => absurd he List.not_mem_nil) ?_
        intro starter' heq h
        obtain rfl := Except.ok.inj heq
        exact absurd h hconvertible

/-- A rule is in the joined report iff it is in one of the reports. -/
theorem mem_joinReports_iff {reports : List ConvertReport} {e : EmittedRule} :
    e ∈ (joinReports reports).rules ↔ ∃ report ∈ reports, e ∈ report.rules := by
  constructor
  · intro h
    induction reports with
    | nil => cases h
    | cons first reports ih =>
        rcases List.mem_append.mp h with h | h
        · exact ⟨first, List.mem_cons_self, h⟩
        · obtain ⟨report, hreport, he⟩ := ih h
          exact ⟨report, List.mem_cons_of_mem first hreport, he⟩
  · rintro ⟨report, hreport, he⟩
    exact mem_joinReports hreport he

variable (X) in
/-- **When an import loads**: exactly if every source rule that can be converted has an action that
adds points or blocks with a status, its numeric operators have numbers, its phrase patterns are
accepted, its networks are networks compared to the client's address, and its selectors are not
blank. -/
theorem imported_rules_load_iff (hlib : X.features.libinjection = true)
    (write : List EmittedRule → Except Str Str) (input : Str) (hrx : AcceptsPatterns X input)
    (hwrite : (convert X input).rules ≠ [] → ReadsBack X write (convert X input).rules)
    (scoring : ScoringConfig) (hscoring : IsStatus scoring.status) (defaultTz : Int)
    (generation : Nat) :
    EmptyOrLoads X (tomlOf write (convert X input)) scoring defaultTz generation ↔
      ∀ r ∈ sourceRules input, r.Loadable X := by
  have hwell : FileWellFormed X (IsTz IsSigned) ((convert X input).rules.map EmittedRule.toDef)
      scoring ↔ ∀ r ∈ sourceRules input, r.Loadable X := by
    unfold FileWellFormed
    rw [and_iff_left hscoring, convert_eq, List.forall_mem_map]
    constructor
    · intro h r hr
      refine (report_wellFormed_iff hlib hrx hr).mp fun e he => h e ?_
      exact mem_joinReports_iff.mpr ⟨_, List.mem_map_of_mem hr, he⟩
    · intro h e he
      obtain ⟨report, hreport, he⟩ := mem_joinReports_iff.mp he
      obtain ⟨r, hr, rfl⟩ := List.mem_map.mp hreport
      exact (report_wellFormed_iff hlib hrx hr).mpr (h r hr) e he
  have hcompiles : (∃ rs, compileWithTz X ((convert X input).rules.map EmittedRule.toDef) scoring
      defaultTz generation = .ok rs) ↔ FileWellFormed X (IsTz IsSigned)
        ((convert X input).rules.map EmittedRule.toDef) scoring := exists_compileWithTz_iff
  rw [← hwell]
  unfold EmptyOrLoads tomlOf
  by_cases hempty : (convert X input).rules = []
  · rw [hempty]
    exact iff_of_true (.inl rfl) ⟨fun d hd => absurd hd List.not_mem_nil, hscoring⟩
  · obtain ⟨text, htext, hne, hread⟩ := hwrite hempty
    rw [← hcompiles, if_neg (by simpa using hempty), htext]
    show text = [] ∨ _ ↔ _
    rw [or_iff_right hne]
    constructor
    · rintro ⟨defs, rs, hdefs, hrs⟩
      obtain rfl := Except.ok.inj (hread.symm.trans hdefs)
      exact ⟨rs, hrs⟩
    · rintro ⟨rs, hrs⟩
      exact ⟨_, rs, hread, hrs⟩

section runs

/-- A network is denied, looked for in some variable. -/
def networkRule (variable_ : Str) : Str :=
  ("SecRule " : Str) ++ variable_ ++ (" \"@ipMatch 10.0.0.0/8\" \"id:1,deny\"" : Str)

/-- What it becomes, with some lines and values for the field. -/
def networkToml (field : Str) : Str :=
  unlines ["[[rule]]", "id = \"crs-1\"", "action = \"block\"", "status = 403", "",
    "[[rule.when]]"] ++ field ++ unlines ["op = \"cidr\"", "value = \"10.0.0.0/8\""]

/-- The rule that is emitted for a network, as it is loaded. -/
def networkDef (field name : Str) : RuleDef :=
  { id := "crs-1", when := [{ field := field, name := name, op := "cidr", value := "10.0.0.0/8" }] }

/-- A plain build that reads one rule file. -/
def oneFileBuild (text : Str) (defs : List RuleDef) : Crates :=
  .plain ⟨false, false, false, true⟩
    { Readers.none with rules := fun t => if t = text then .ok defs else .error "not TOML" }

/-- The build of the example reads its text as its rules. -/
theorem oneFileBuild_reads (text : Str) (defs : List RuleDef) :
    (oneFileBuild text defs).tomlRules text = .ok defs := if_pos rfl

/-- The build that reads the rule on the client's address. -/
abbrev addressBuild : Crates :=
  oneFileBuild (networkToml (unlines ["field = \"ip\""])) [networkDef "ip" []]

/-- The rule on the client's address, as it is read. -/
def addressRule : ParsedRule where
  vars := [⟨"REMOTE_ADDR", none, false, false⟩]
  opName := "ipMatch"
  opArg := "10.0.0.0/8"
  negate := false
  id := some ['1']
  disrupt := true

/-- The text of the example has one rule. -/
theorem addressRule_source : sourceRules (networkRule "REMOTE_ADDR") = [⟨.ok addressRule, []⟩] := by
  decide +kernel

/-- A network the client's address is compared to is imported and loads. -/
theorem client_address_loads : EmptyOrLoads addressBuild
    (tomlOf (fun _ => .ok (networkToml (unlines ["field = \"ip\""])))
      (convert addressBuild (networkRule "REMOTE_ADDR"))) .default 0 0 := by
  have hrx : AcceptsPatterns addressBuild (networkRule "REMOTE_ADDR") := by
    intro r hr starter hparsed m hm hname
    exact ⟨m.opArg, rfl⟩
  have hwrite : ReadsBack addressBuild (fun _ => .ok (networkToml (unlines ["field = \"ip\""])))
      (convert addressBuild (networkRule "REMOTE_ADDR")).rules := by
    have hrules : (convert addressBuild (networkRule "REMOTE_ADDR")).rules.map EmittedRule.toDef =
        [networkDef "ip" []] := by
      decide +kernel
    refine ⟨_, rfl, by decide +kernel, ?_⟩
    rw [hrules]
    exact oneFileBuild_reads _ _
  refine (imported_rules_load_iff addressBuild rfl _ _ hrx (fun _ => hwrite) .default
    ⟨by decide, by decide⟩ 0 0).mpr ?_
  rw [addressRule_source]
  intro r hr starter hparsed _
  obtain rfl := List.mem_singleton.mp hr
  obtain rfl := Except.ok.inj hparsed
  refine ⟨⟨fun _ => by decide, fun _ _ _ status hstatus => by cases hstatus⟩, ?_⟩
  intro m hm target htarget
  obtain rfl := List.mem_singleton.mp hm
  have hip : targets addressRule = [(("ip" : Str), none)] := by decide +kernel
  rw [hip] at htarget
  obtain rfl := List.mem_singleton.mp htarget
  refine ⟨⟨fun hnumeric => absurd hnumeric (by decide), fun hpm => absurd hpm (by decide),
    fun _ => rfl, fun _ item hitem => ?_⟩, by rintro name ⟨⟩⟩
  have hone : ipMatchItems addressRule.opArg = [("10.0.0.0/8" : Str)] := by decide +kernel
  obtain rfl := List.singleton_injective (hone.symm.trans hitem)
  exact ⟨.v4 0x0A000000 ⟨8, by decide⟩, by decide +kernel⟩

/-- The lines of a condition on a forwarded address. -/
def forwardedField : Str := unlines ["field = \"header\"", "name = \"X-Forwarded-For\""]

/-- The build that reads the rule on a forwarded address. -/
abbrev forwardedBuild : Crates :=
  oneFileBuild (networkToml forwardedField) [networkDef "header" "X-Forwarded-For"]

/-- A network a header is compared to is imported too, and the file, which is read back as it was
written, does not load. -/
theorem forwarded_address_refused :
    AcceptsPatterns forwardedBuild (networkRule "REQUEST_HEADERS:X-Forwarded-For") ∧
      ReadsBack forwardedBuild (fun _ => .ok (networkToml forwardedField))
        (convert forwardedBuild (networkRule "REQUEST_HEADERS:X-Forwarded-For")).rules ∧
      ¬ EmptyOrLoads forwardedBuild (tomlOf (fun _ => .ok (networkToml forwardedField))
        (convert forwardedBuild (networkRule "REQUEST_HEADERS:X-Forwarded-For"))) .default 0 0 := by
  have hrules : (convert forwardedBuild (networkRule "REQUEST_HEADERS:X-Forwarded-For")).rules.map
      EmittedRule.toDef = [networkDef "header" "X-Forwarded-For"] := by
    decide +kernel
  have hdefs : forwardedBuild.tomlRules (networkToml forwardedField) =
      .ok [networkDef "header" "X-Forwarded-For"] := oneFileBuild_reads _ _
  have htext : tomlOf (fun _ => .ok (networkToml forwardedField))
      (convert forwardedBuild (networkRule "REQUEST_HEADERS:X-Forwarded-For")) =
        networkToml forwardedField := by
    unfold tomlOf
    rw [if_neg]
    · rfl
    · intro hempty
      rw [List.isEmpty_iff.mp hempty] at hrules
      cases hrules
  have hrefused : (compileWithTz forwardedBuild [networkDef "header" "X-Forwarded-For"] .default 0
      0).isOk = false := by
    decide +kernel
  refine ⟨fun r _ starter _ m _ _ => ⟨m.opArg, rfl⟩,
    ⟨_, rfl, by decide +kernel, by rw [hrules]; exact hdefs⟩, ?_⟩
  rw [htext]
  rintro (hempty | ⟨defs, rs, hread, hcompiled⟩)
  · exact absurd hempty (by decide +kernel)
  · obtain rfl := Except.ok.inj (hread.symm.trans hdefs)
    rw [hcompiled] at hrefused
    cases hrefused

end runs

end BuduWaf.Rules.Modsec
