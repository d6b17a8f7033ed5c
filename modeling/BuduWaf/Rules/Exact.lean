import BuduWaf.Plain
import BuduWaf.Rules.Clock

/-!
# `budu-rules`: which rule files compile, and into what

The static conditions of the documentation, on the definitions alone, beside compilation.

* **`CondDef.WellFormed`**, **`RuleDef.WellFormed`**, **`FileWellFormed`**: the conditions, with
  the form of a timezone as a parameter.
* **`exists_compileWithTz_iff`**: a file compiles where it meets them, with timezones whose hours
  and minutes may be negative.
* **`RuleSet.CompiledFrom`** (`compiledFrom_of_compileWithTz`): what the evaluators rely on.
* **`compiles_exactly_iff`**: compilation is exact, but for a stray minus in a timezone.

Well-formedness speaks about names, numbers and texts, in the words of the documentation; there is
one lemma for each function of the compiler that says when it succeeds and what it leaves. The
tables of the compiler and the lists of the documentation are compared once, by evaluation.

`RuleSet.CompiledFrom` is what is gained for the evaluators: arms of theirs that would be wrong are
not reached, as an operator on addresses is only ever on the address field, and a response rule has
no action of the request phase.
-/

namespace BuduWaf.Rules

variable (X : Crates)

/-! ## The documented conditions -/

/-- The fields that need no name. -/
def plainFieldNames : List Str :=
  [("method" : Str), "path", "query", "uri", "body", "ip", "country", "status", "resp_body",
    "arg_names", "args_count", "args", "headers", "header_names", "cookies", "cookie_names",
    "time", "day"]

/-- The fields that need a name: of a header, a parameter, a counter or a cookie. -/
def namedFieldNames : List Str := [("header" : Str), "arg", "counter", "resp_header", "cookie"]

/-- The fields that only responses have. -/
def responseOnlyNames : List Str := [("status" : Str), "resp_header", "resp_body"]

/-- The fields that response rules may use. -/
def responseNames : List Str :=
  [("status" : Str), "resp_header", "resp_body", "ip", "path", "counter"]

/-- The operators that compare texts. -/
def textOpNames : List Str := [("eq" : Str), "ne", "contains", "starts_with", "ends_with"]

/-- The operators that compare numbers. -/
def numericOpNames : List Str := [("gt" : Str), "lt", "ge", "le"]

/-- The operators of the `libinjection` build. -/
def libinjectionOpNames : List Str := [("detect_sqli" : Str), "detect_xss"]

/-- The names of the transforms. -/
def transformTexts : List Str :=
  [("lowercase" : Str), "uppercase", "url_decode", "compress_ws", "remove_nulls", "trim"]

/-- A condition's field is known, and has its name where it needs one. -/
def CondDef.FieldWellFormed (c : CondDef) : Prop :=
  c.field ∈ plainFieldNames ∨ c.field ∈ namedFieldNames ∧ Str.trim c.name ≠ []

/-- A condition's operator is known, and fits its field and its argument. -/
inductive CondDef.OpWellFormed (tz : Str → Prop) (c : CondDef) : Prop where
  | text : c.op ∈ textOpNames → OpWellFormed tz c
  | numeric : c.op ∈ numericOpNames → (∃ n, Str.parseInt 64 (Str.trim c.value) = some n) →
      OpWellFormed tz c
  | libinjection : c.op ∈ libinjectionOpNames → X.features.libinjection = true →
      OpWellFormed tz c
  | regex : c.op = ("regex" : Str) → (∃ re, X.regexNew c.value = .ok re) → OpWellFormed tz c
  | cidr : c.op = ("cidr" : Str) → c.field = ("ip" : Str) →
      (∃ net, (X.parseNet c.value).or ((X.parseIp c.value).map IpNet.ofAddr) = some net) →
      OpWellFormed tz c
  | isIn : c.op = ("in" : Str) → c.values ≠ [] → OpWellFormed tz c
  | timeBetween : c.op = ("time_between" : Str) → c.field = ("time" : Str) →
      IsTimeWindow c.value → tz c.tz → OpWellFormed tz c
  | dayOfWeek : c.op = ("day_of_week" : Str) → c.field = ("day" : Str) →
      IsDaySpec c.value → tz c.tz → OpWellFormed tz c

/-- What is asked of one condition: its field, its operator, that the two fit, and its
transforms. -/
structure CondDef.WellFormed (tz : Str → Prop) (c : CondDef) : Prop where
  field : c.FieldWellFormed
  op : c.OpWellFormed X tz
  /-- `time` goes with `time_between` only. -/
  time : c.field = ("time" : Str) → c.op = ("time_between" : Str)
  /-- `day` goes with `day_of_week` only. -/
  day : c.field = ("day" : Str) → c.op = ("day_of_week" : Str)
  transforms : ∀ t ∈ c.transform, t ∈ transformTexts

/-- A field that a rule of some phase may use. -/
def PhaseKind.Allows (phase : PhaseKind) (field : Str) : Prop :=
  match phase with
  | .request => field ∉ responseOnlyNames
  | .response => field ∈ responseNames

/-- A number that is a status code. -/
def IsStatus (status : UInt16) : Prop := 100 ≤ status.toNat ∧ status.toNat ≤ 999

/-- The action of a rule has what it needs. -/
def RuleDef.ActionWellFormed (def_ : RuleDef) : Prop :=
  match def_.action with
  | .block => IsStatus def_.status
  | .rateLimit => def_.rps ≠ 0
  | .score => def_.score ≠ 0
  | .incr => Str.trim def_.counter ≠ []
  | .allow | .log => True

/-- What is asked of one rule: conditions that are well formed and fit its phase, and an action that
does. -/
structure RuleDef.WellFormed (tz : Str → Prop) (def_ : RuleDef) : Prop where
  nonempty : def_.when ≠ []
  conds : ∀ c ∈ def_.when, c.WellFormed X tz
  fields : ∀ c ∈ def_.when, def_.phase.Allows c.field
  /-- Responses are blocked, logged or counted. -/
  responseAction : def_.phase = .response → def_.action ∈ [ActionKind.block, .log, .incr]
  action : def_.ActionWellFormed

/-- The conditions on a file and its scoring section. -/
def FileWellFormed (tz : Str → Prop) (defs : List RuleDef) (scoring : ScoringConfig) : Prop :=
  (∀ def_ ∈ defs, def_.WellFormed X tz) ∧ IsStatus scoring.status

variable {X}

/-! ## Fields -/

/-- A table has an entry for exactly its keys. -/
theorem isSome_lookup_iff {α : Type} (table : List (Str × α)) {key : Str} :
    (table.lookup key).isSome = true ↔ key ∈ table.map Prod.fst := by
  rw [List.lookup_isSome_iff, List.mem_map]
  exact exists_congr fun row => and_congr_right fun _ => beq_iff_eq.trans eq_comm

/-- What a table has for a key is one of its rows. -/
theorem mem_of_lookup {α : Type} {table : List (Str × α)} {key : Str} {a : α}
    (h : table.lookup key = some a) : (key, a) ∈ table := by
  obtain ⟨before, after, rfl, -⟩ := List.lookup_eq_some_iff.mp h
  exact List.mem_append_right before List.mem_cons_self

/-- A field is compiled where it is known and has its name. -/
theorem exists_compileField_iff {rule : Str} {c : CondDef} :
    (∃ field, compileField X rule c = .ok field) ↔ c.FieldWellFormed := by
  have hplain : (plainFields.lookup c.field).isSome = true ↔ c.field ∈ plainFieldNames :=
    isSome_lookup_iff plainFields
  have hnamed : (namedFields.lookup c.field).isSome = true ↔ c.field ∈ namedFieldNames :=
    isSome_lookup_iff namedFields
  unfold compileField CondDef.FieldWellFormed
  rw [← hplain, ← hnamed]
  cases plainFields.lookup c.field with
  | some field => exact iff_of_true ⟨field, rfl⟩ (Or.inl rfl)
  | none =>
      cases namedFields.lookup c.field with
      | none => simp
      | some mk =>
          by_cases hname : Str.trim c.name = []
          · simp [hname]
          · simp [hname]

/-- A property of fields that goes by their names. -/
theorem test_compileField_iff {rule : Str} {c : CondDef} {field : Field} (test : Field → Bool)
    (names : List Str) (hplain : (plainFields.all fun f => test f.2 == names.contains f.1) = true)
    (hnamed : ∀ name, (namedFields.all fun f => test (f.2 name) == names.contains f.1) = true)
    (h : compileField X rule c = .ok field) : test field = true ↔ c.field ∈ names := by
  have hcompiled : test field = names.contains c.field := by
    unfold compileField at h
    cases hlookup : plainFields.lookup c.field with
    | some f =>
        rw [hlookup] at h
        obtain rfl := Except.ok.inj h
        exact eq_of_beq (List.all_eq_true.mp hplain _ (mem_of_lookup hlookup))
    | none =>
        rw [hlookup] at h
        cases hlookup' : namedFields.lookup c.field with
        | none =>
            rw [hlookup'] at h
            cases h
        | some mk =>
            rw [hlookup'] at h
            dsimp only at h
            by_cases hname : (Str.trim c.name).isEmpty = true
            · rw [if_pos hname] at h
              cases h
            · rw [if_neg hname] at h
              obtain rfl := Except.ok.inj h
              exact eq_of_beq (List.all_eq_true.mp (hnamed c.name) _ (mem_of_lookup hlookup'))
  rw [hcompiled, List.contains_iff_mem]

section compiledField

variable {rule : Str} {c : CondDef} {field : Field} (h : compileField X rule c = .ok field)
include h

/-- A condition reads the address iff its field is written `ip`. -/
theorem field_eq_ip_iff : field = .ip ↔ c.field = ("ip" : Str) := by
  have hnamed := test_compileField_iff (· == .ip) [("ip" : Str)] (by decide) (fun _ => rfl) h
  rwa [beq_iff_eq, List.mem_singleton] at hnamed

/-- A condition reads the time of day iff its field is written `time`. -/
theorem field_eq_time_iff : field = .time ↔ c.field = ("time" : Str) := by
  have hnamed := test_compileField_iff (· == .time) [("time" : Str)] (by decide) (fun _ => rfl) h
  rwa [beq_iff_eq, List.mem_singleton] at hnamed

/-- A condition reads the weekday iff its field is written `day`. -/
theorem field_eq_day_iff : field = .day ↔ c.field = ("day" : Str) := by
  have hnamed := test_compileField_iff (· == .day) [("day" : Str)] (by decide) (fun _ => rfl) h
  rwa [beq_iff_eq, List.mem_singleton] at hnamed

/-- A field is for the response phase only iff its name is one of that list. -/
theorem isResponseOnly_iff : field.isResponseOnly = true ↔ c.field ∈ responseOnlyNames :=
  test_compileField_iff Field.isResponseOnly responseOnlyNames (by decide) (fun _ => rfl) h

/-- A field may be used in the response phase iff its name is one of that list. -/
theorem allowedInResponse_iff : field.allowedInResponse = true ↔ c.field ∈ responseNames :=
  test_compileField_iff Field.allowedInResponse responseNames (by decide) (fun _ => rfl) h

end compiledField

/-! ## Operators -/

/-- The operators that read the clock. -/
def clockOpNames : List Str := [("time_between" : Str), "day_of_week"]

/-- The names of the other operators are not those of the clock operators. -/
theorem notMem_clockOpNames {name : Str}
    (h : name ∈ textOpNames ++ numericOpNames ++ libinjectionOpNames ++
      [("regex" : Str), "cidr", "in"]) : name ∉ clockOpNames := by
  have hall : ((textOpNames ++ numericOpNames ++ libinjectionOpNames ++
      [("regex" : Str), "cidr", "in"]).all fun name => !clockOpNames.contains name) = true := by
    decide
  have hname := List.all_eq_true.mp hall name h
  simpa using hname

/-- An operator fits its field, and its own arguments are in range. -/
def Op.Fits (op : Op X) (field : Field) : Prop :=
  match op with
  | .cidr _ => field = .ip
  | .timeBetween start finish _ => field = .time ∧ start < 1440 ∧ finish < 1440
  | .dayOfWeek mask _ => field = .day ∧ 1 ≤ mask.toNat ∧ mask.toNat ≤ 127
  | _ => True

/-- The timezone of a condition is the server's, or its own where it is read. -/
theorem exists_resolveTz_iff {rule : Str} {c : CondDef} {defaultTz : Int} :
    (∃ tz, resolveTz X rule c defaultTz = .ok tz) ↔ IsTz IsSigned c.tz := by
  rw [← exists_parseTzOffset_iff]
  unfold resolveTz
  by_cases hblank : (Str.trim c.tz).isEmpty = true
  · rw [if_pos hblank]
    exact iff_of_true ⟨defaultTz, rfl⟩
      (exists_parseTzOffset_iff.mpr (Or.inl (List.isEmpty_iff.mp hblank)))
  · rw [if_neg hblank]
    cases parseTzOffset c.tz with
    | none => simp
    | some tz => simp

/-- The argument of a numeric operator compiles iff its trimmed text is an `i64`. -/
theorem exists_numericArg_iff {rule : Str} {c : CondDef} :
    (∃ n, numericArg X rule c = .ok n) ↔ ∃ n, Str.parseInt 64 (Str.trim c.value) = some n := by
  unfold numericArg
  cases Str.parseInt 64 (Str.trim c.value) with
  | none => simp
  | some n => simp

section operators

variable {rule : Str} {c : CondDef} {field : Field} {defaultTz : Int}
  (hfield : compileField X rule c = .ok field)
include hfield

/-- What an operator with an argument form of its own is compiled to, and where. -/
theorem compileSpecialOp_spec {op : Op X}
    (h : compileSpecialOp X rule c field defaultTz = .ok op) :
    c.OpWellFormed X (IsTz IsSigned) ∧ op.Fits field ∧
      op.isTimeBetween = decide (c.op = ("time_between" : Str)) ∧
        op.isDayOfWeek = decide (c.op = ("day_of_week" : Str)) := by
  unfold compileSpecialOp at h
  by_cases hregex : c.op = ("regex" : Str)
  · rw [if_pos hregex] at h
    cases hre : X.regexNew c.value with
    | error e =>
        rw [hre] at h
        cases h
    | ok re =>
        rw [hre] at h
        obtain rfl := Except.ok.inj h
        rw [hregex]
        exact ⟨.regex hregex ⟨re, hre⟩, trivial, rfl, rfl⟩
  rw [if_neg hregex] at h
  by_cases hcidr : c.op = ("cidr" : Str)
  · rw [if_pos hcidr] at h
    by_cases hip : field ≠ .ip
    · rw [if_pos hip] at h
      cases h
    rw [if_neg hip] at h
    have hip := not_not.mp hip
    cases hnet : (X.parseNet c.value).or ((X.parseIp c.value).map IpNet.ofAddr) with
    | none =>
        rw [hnet] at h
        cases h
    | some net =>
        rw [hnet] at h
        obtain rfl := Except.ok.inj h
        rw [hcidr]
        exact ⟨.cidr hcidr ((field_eq_ip_iff hfield).mp hip) ⟨net, hnet⟩, hip, rfl, rfl⟩
  rw [if_neg hcidr] at h
  by_cases hin : c.op = ("in" : Str)
  · rw [if_pos hin] at h
    by_cases hempty : c.values.isEmpty = true
    · rw [if_pos hempty] at h
      cases h
    rw [if_neg hempty] at h
    obtain rfl := Except.ok.inj h
    rw [hin]
    exact ⟨.isIn hin fun h => hempty (List.isEmpty_iff.mpr h), trivial, rfl, rfl⟩
  rw [if_neg hin] at h
  by_cases htime : c.op = ("time_between" : Str)
  · rw [if_pos htime] at h
    by_cases hclock : field ≠ .time
    · rw [if_pos hclock] at h
      cases h
    rw [if_neg hclock] at h
    have hclock := not_not.mp hclock
    cases hwindow : parseTimeWindow c.value with
    | none =>
        rw [hwindow] at h
        cases h
    | some window =>
        rw [hwindow] at h
        obtain ⟨tz, htz, rfl⟩ := map_ok_iff.mp h
        rw [htime]
        exact ⟨.timeBetween htime ((field_eq_time_iff hfield).mp hclock)
            (exists_parseTimeWindow_iff.mp ⟨window, hwindow⟩) (exists_resolveTz_iff.mp ⟨tz, htz⟩),
          ⟨hclock, lt_of_parseTimeWindow hwindow⟩, rfl, rfl⟩
  rw [if_neg htime] at h
  by_cases hday : c.op = ("day_of_week" : Str)
  · rw [if_pos hday] at h
    by_cases hclock : field ≠ .day
    · rw [if_pos hclock] at h
      cases h
    rw [if_neg hclock] at h
    have hclock := not_not.mp hclock
    cases hmask : parseDayMask c.value with
    | none =>
        rw [hmask] at h
        cases h
    | some mask =>
        rw [hmask] at h
        obtain ⟨tz, htz, rfl⟩ := map_ok_iff.mp h
        rw [hday]
        exact ⟨.dayOfWeek hday ((field_eq_day_iff hfield).mp hclock)
            (exists_parseDayMask_iff.mp ⟨mask, hmask⟩) (exists_resolveTz_iff.mp ⟨tz, htz⟩),
          ⟨hclock, parseDayMask_bounds hmask⟩, rfl, rfl⟩
  rw [if_neg hday] at h
  cases h

/-- What an operator is compiled to is well formed, fits the field, and reads the clock if it says
so. -/
theorem compileOp_spec {op : Op X} (h : compileOp X rule c field defaultTz = .ok op) :
    c.OpWellFormed X (IsTz IsSigned) ∧ op.Fits field ∧
      op.isTimeBetween = decide (c.op = ("time_between" : Str)) ∧
        op.isDayOfWeek = decide (c.op = ("day_of_week" : Str)) := by
  have hother : ∀ name ∈ textOpNames ++ numericOpNames ++ libinjectionOpNames,
      name ≠ ("time_between" : Str) ∧ name ≠ ("day_of_week" : Str) := by
    intro name hname
    have hclock := notMem_clockOpNames (List.mem_append_left _ hname)
    simpa [clockOpNames] using hclock
  unfold compileOp at h
  cases htext : (textOps X).lookup c.op with
  | some mk =>
      rw [htext] at h
      obtain rfl := Except.ok.inj h
      have hmem : c.op ∈ textOpNames :=
        (isSome_lookup_iff (textOps X)).mp (Option.isSome_of_eq_some htext)
      obtain ⟨htime, hday⟩ := hother c.op (by simp [hmem])
      have hrow := mem_of_lookup htext
      refine ⟨.text hmem, ?_⟩
      rw [decide_eq_false htime, decide_eq_false hday]
      generalize c.op = name at hrow
      simp only [textOps, List.mem_cons, Prod.mk.injEq, List.not_mem_nil, or_false] at hrow
      rcases hrow with ⟨-, rfl⟩ | ⟨-, rfl⟩ | ⟨-, rfl⟩ | ⟨-, rfl⟩ | ⟨-, rfl⟩
      all_goals exact ⟨trivial, rfl, rfl⟩
  | none =>
      rw [htext] at h
      cases hnumeric : (numericOps X).lookup c.op with
      | some mk =>
          rw [hnumeric] at h
          obtain ⟨n, hn, rfl⟩ := map_ok_iff.mp h
          have hmem : c.op ∈ numericOpNames :=
            (isSome_lookup_iff (numericOps X)).mp (Option.isSome_of_eq_some hnumeric)
          obtain ⟨htime, hday⟩ := hother c.op (by simp [hmem])
          have hrow := mem_of_lookup hnumeric
          refine ⟨.numeric hmem (exists_numericArg_iff.mp ⟨n, hn⟩), ?_⟩
          rw [decide_eq_false htime, decide_eq_false hday]
          generalize c.op = name at hrow
          simp only [numericOps, List.mem_cons, Prod.mk.injEq, List.not_mem_nil, or_false] at hrow
          rcases hrow with ⟨-, rfl⟩ | ⟨-, rfl⟩ | ⟨-, rfl⟩ | ⟨-, rfl⟩
          all_goals exact ⟨trivial, rfl, rfl⟩
      | none =>
          rw [hnumeric] at h
          cases hinjection : (libinjectionOps X).lookup c.op with
          | some op' =>
              rw [hinjection] at h
              dsimp only at h
              by_cases hfeature : X.features.libinjection = true
              · rw [if_pos hfeature] at h
                obtain rfl := Except.ok.inj h
                have hmem : c.op ∈ libinjectionOpNames :=
                  (isSome_lookup_iff (libinjectionOps X)).mp (Option.isSome_of_eq_some hinjection)
                obtain ⟨htime, hday⟩ := hother c.op (by simp [hmem])
                have hrow := mem_of_lookup hinjection
                refine ⟨.libinjection hmem hfeature, ?_⟩
                rw [decide_eq_false htime, decide_eq_false hday]
                generalize c.op = name at hrow
                simp only [libinjectionOps, List.mem_cons, Prod.mk.injEq, List.not_mem_nil,
                  or_false] at hrow
                rcases hrow with ⟨-, rfl⟩ | ⟨-, rfl⟩
                all_goals exact ⟨trivial, rfl, rfl⟩
              · rw [if_neg hfeature] at h
                cases h
          | none =>
              rw [hinjection] at h
              exact compileSpecialOp_spec hfield h

/-- A well-formed operator compiles, on any field. -/
theorem exists_compileOp_of_wellFormed (h : c.OpWellFormed X (IsTz IsSigned)) :
    ∃ op, compileOp X rule c field defaultTz = .ok op := by
  have hspecial : c.op ∈ [("regex" : Str), "cidr", "in", "time_between", "day_of_week"] →
      compileOp X rule c field defaultTz = compileSpecialOp X rule c field defaultTz := by
    intro hmem
    unfold compileOp
    simp only [List.mem_cons, List.not_mem_nil, or_false] at hmem
    rcases hmem with hop | hop | hop | hop | hop
    all_goals
      rw [hop]
      rfl
  cases h with
  | text hmem =>
      obtain ⟨mk, hmk⟩ :=
        Option.isSome_iff_exists.mp ((isSome_lookup_iff (textOps X)).mpr hmem)
      exact ⟨mk c.value, compileOp_text hmk⟩
  | numeric hmem hvalue =>
      obtain ⟨n, hn⟩ := exists_numericArg_iff.mpr hvalue
      obtain ⟨mk, hmk⟩ :=
        Option.isSome_iff_exists.mp ((isSome_lookup_iff (numericOps X)).mpr hmem)
      have htext : (textOps X).lookup c.op = none := by
        simp only [numericOpNames, List.mem_cons, List.not_mem_nil, or_false] at hmem
        rcases hmem with hop | hop | hop | hop
        all_goals
          rw [hop]
          rfl
      refine ⟨mk n, ?_⟩
      unfold compileOp
      rw [htext, hmk]
      exact map_ok_iff.mpr ⟨n, hn, rfl⟩
  | libinjection hmem hfeature =>
      simp only [libinjectionOpNames, List.mem_cons, List.not_mem_nil, or_false] at hmem
      unfold compileOp
      rcases hmem with hop | hop
      · rw [hop]
        exact ⟨.detectSqli, if_pos hfeature⟩
      · rw [hop]
        exact ⟨.detectXss, if_pos hfeature⟩
  | regex hop hvalue =>
      obtain ⟨re, hre⟩ := hvalue
      rw [hspecial (by simp [hop])]
      unfold compileSpecialOp
      rw [if_pos hop, hre]
      exact ⟨.regex re, rfl⟩
  | cidr hop hip hvalue =>
      obtain ⟨net, hnet⟩ := hvalue
      rw [hspecial (by simp [hop])]
      unfold compileSpecialOp
      rw [if_neg (by rw [hop]; decide), if_pos hop,
        if_neg (not_not.mpr ((field_eq_ip_iff hfield).mpr hip)), hnet]
      exact ⟨.cidr net, rfl⟩
  | isIn hop hvalues =>
      rw [hspecial (by simp [hop])]
      unfold compileSpecialOp
      rw [if_neg (by rw [hop]; decide), if_neg (by rw [hop]; decide), if_pos hop,
        if_neg fun h => hvalues (List.isEmpty_iff.mp h)]
      exact ⟨.isIn c.values, rfl⟩
  | timeBetween hop hclock hvalue htz =>
      obtain ⟨window, hwindow⟩ := exists_parseTimeWindow_iff.mpr hvalue
      obtain ⟨tz, htz⟩ : ∃ tz, resolveTz X rule c defaultTz = .ok tz := exists_resolveTz_iff.mpr htz
      rw [hspecial (by simp [hop])]
      unfold compileSpecialOp
      rw [if_neg (by rw [hop]; decide), if_neg (by rw [hop]; decide),
        if_neg (by rw [hop]; decide), if_pos hop,
        if_neg (not_not.mpr ((field_eq_time_iff hfield).mpr hclock)), hwindow]
      exact ⟨.timeBetween window.1 window.2 tz, map_ok_iff.mpr ⟨tz, htz, rfl⟩⟩
  | dayOfWeek hop hclock hvalue htz =>
      obtain ⟨mask, hmask⟩ := exists_parseDayMask_iff.mpr hvalue
      obtain ⟨tz, htz⟩ : ∃ tz, resolveTz X rule c defaultTz = .ok tz := exists_resolveTz_iff.mpr htz
      rw [hspecial (by simp [hop])]
      unfold compileSpecialOp
      rw [if_neg (by rw [hop]; decide), if_neg (by rw [hop]; decide),
        if_neg (by rw [hop]; decide), if_neg (by rw [hop]; decide), if_pos hop,
        if_neg (not_not.mpr ((field_eq_day_iff hfield).mpr hclock)), hmask]
      exact ⟨.dayOfWeek mask tz, map_ok_iff.mpr ⟨tz, htz, rfl⟩⟩

end operators

/-! ## Conditions -/

/-- What the evaluators rely on in a compiled condition. -/
structure CompiledCond.WellFormed (c : CompiledCond X) : Prop where
  fits : c.op.Fits c.field
  /-- `time` goes with `time_between` only. -/
  time : c.field = .time → c.op.isTimeBetween = true
  /-- `day` goes with `day_of_week` only. -/
  day : c.field = .day → c.op.isDayOfWeek = true

/-- A transform compiles iff its name is one of the known ones. -/
theorem exists_compileTransform_iff {rule t : Str} :
    (∃ tr, compileTransform X rule t = .ok tr) ↔ t ∈ transformTexts := by
  have hname : (transformNames.lookup t).isSome = true ↔ t ∈ transformTexts :=
    isSome_lookup_iff transformNames
  unfold compileTransform
  rw [← hname]
  cases transformNames.lookup t with
  | none => simp
  | some tr => simp

section conditions

variable {rule : Str} {c : CondDef} {defaultTz : Int}

/-- A condition that compiles is well formed, and so is what it is compiled to. -/
theorem wellFormed_of_compileCond {cond : CompiledCond X}
    (h : compileCond X rule c defaultTz = .ok cond) :
    c.WellFormed X (IsTz IsSigned) ∧ cond.WellFormed ∧ compileField X rule c = .ok cond.field := by
  unfold compileCond at h
  obtain ⟨field, hfield, h⟩ := bind_ok_iff.mp h
  obtain ⟨op, hop, h⟩ := bind_ok_iff.mp h
  obtain ⟨htime, h⟩ := refuse_ok_iff.mp h
  obtain ⟨hday, h⟩ := refuse_ok_iff.mp h
  obtain ⟨transforms, htransforms, h⟩ := bind_ok_iff.mp h
  obtain rfl := Except.ok.inj h
  obtain ⟨hwell, hfits, hisTime, hisDay⟩ := compileOp_spec hfield hop
  have htime : field = .time → op.isTimeBetween = true := by
    intro hclock
    by_contra hnot
    exact htime ⟨hclock, by simp [hnot]⟩
  have hday : field = .day → op.isDayOfWeek = true := by
    intro hclock
    by_contra hnot
    exact hday ⟨hclock, by simp [hnot]⟩
  have hnames : ∀ t ∈ c.transform, t ∈ transformTexts := by
    intro t ht
    exact exists_compileTransform_iff.mp (exists_mapM_ok_iff.mp ⟨transforms, htransforms⟩ t ht)
  refine ⟨⟨exists_compileField_iff.mp ⟨field, hfield⟩, hwell, ?_, ?_, hnames⟩,
    ⟨hfits, htime, hday⟩, hfield⟩
  · intro hclock
    have hdone := htime ((field_eq_time_iff hfield).mpr hclock)
    rw [hisTime] at hdone
    exact of_decide_eq_true hdone
  · intro hclock
    have hdone := hday ((field_eq_day_iff hfield).mpr hclock)
    rw [hisDay] at hdone
    exact of_decide_eq_true hdone

/-- A condition is compiled where it is well formed. -/
theorem exists_compileCond_iff :
    (∃ cond, compileCond X rule c defaultTz = .ok cond) ↔ c.WellFormed X (IsTz IsSigned) := by
  constructor
  · rintro ⟨cond, h⟩
    exact (wellFormed_of_compileCond h).1
  · intro h
    obtain ⟨field, hfield⟩ : ∃ field, compileField X rule c = .ok field :=
      exists_compileField_iff.mpr h.field
    obtain ⟨op, hop⟩ : ∃ op, compileOp X rule c field defaultTz = .ok op :=
      exists_compileOp_of_wellFormed hfield h.op
    obtain ⟨-, -, hisTime, hisDay⟩ := compileOp_spec hfield hop
    have htime : ¬ (field = .time ∧ (!op.isTimeBetween) = true) := by
      rintro ⟨hclock, hnot⟩
      rw [hisTime, h.time ((field_eq_time_iff hfield).mp hclock)] at hnot
      cases hnot
    have hday : ¬ (field = .day ∧ (!op.isDayOfWeek) = true) := by
      rintro ⟨hclock, hnot⟩
      rw [hisDay, h.day ((field_eq_day_iff hfield).mp hclock)] at hnot
      cases hnot
    obtain ⟨transforms, htransforms⟩ : ∃ ts, c.transform.mapM (compileTransform X rule) = .ok ts :=
      exists_mapM_ok_iff.mpr fun t ht => exists_compileTransform_iff.mpr (h.transforms t ht)
    refine ⟨⟨field, op, c.negate, transforms⟩, ?_⟩
    unfold compileCond
    refine bind_ok_iff.mpr ⟨field, hfield, bind_ok_iff.mpr ⟨op, hop, ?_⟩⟩
    refine refuse_ok_iff.mpr ⟨htime, refuse_ok_iff.mpr ⟨hday, ?_⟩⟩
    exact bind_ok_iff.mpr ⟨transforms, htransforms, rfl⟩

end conditions

/-! ## Rules -/

/-- A field passes the check of its phase where the phase allows it. -/
theorem checkField_ok_iff {def_ : RuleDef} {rule : Str} {c : CondDef} {field : Field}
    (hfield : compileField X rule c = .ok field) :
    checkField def_ field = .ok () ↔ def_.phase.Allows c.field := by
  unfold checkField PhaseKind.Allows
  cases def_.phase with
  | request =>
      dsimp only
      rw [← isResponseOnly_iff hfield]
      cases field.isResponseOnly with
      | true => simp
      | false => simp
  | response =>
      dsimp only
      rw [← allowedInResponse_iff hfield]
      cases field.allowedInResponse with
      | true => simp
      | false => simp

/-- A status code is accepted where it has three digits. -/
theorem exists_fromU16_iff {status : UInt16} :
    (∃ code, StatusCode.fromU16 status = some code) ↔ IsStatus status := by
  unfold StatusCode.fromU16 IsStatus
  by_cases h : 100 ≤ status.toNat ∧ status.toNat ≤ 999
  · rw [dif_pos h]
    exact iff_of_true ⟨_, rfl⟩ h
  · rw [dif_neg h]
    exact iff_of_false (by rintro ⟨_, h⟩; cases h) h

/-- An action compiles iff it is well formed. -/
theorem exists_compileAction_iff {def_ : RuleDef} {cell : RateLimit.Cell} :
    (∃ action, compileAction def_ cell = .ok action) ↔ def_.ActionWellFormed := by
  unfold compileAction RuleDef.ActionWellFormed
  cases def_.action with
  | block =>
      dsimp only
      rw [← exists_fromU16_iff]
      cases StatusCode.fromU16 def_.status with
      | none => simp
      | some code => simp
  | allow => exact iff_of_true ⟨.allow, rfl⟩ trivial
  | log => exact iff_of_true ⟨.log, rfl⟩ trivial
  | rateLimit =>
      by_cases h : def_.rps = 0
      · simp [h]
      · simp [h]
  | score =>
      by_cases h : def_.score = 0
      · simp [h]
      · simp [h]
  | incr =>
      by_cases h : Str.trim def_.counter = []
      · simp [h]
      · simp [h]

/-- What a rule on responses may do: block, log or count. -/
def Action.AllowedInResponse : Action → Prop
  | .block _ _ | .log | .incr _ _ _ => True
  | .allow | .rateLimit _ | .score _ => False

/-- An action that a response rule may have is compiled to one. -/
theorem allowedInResponse_of_compileAction {def_ : RuleDef} {cell : RateLimit.Cell}
    {action : Action} (h : compileAction def_ cell = .ok action)
    (hallowed : def_.action.allowedInResponse = true) : action.AllowedInResponse := by
  unfold compileAction at h
  cases haction : def_.action with
  | block =>
      rw [haction] at h
      dsimp only at h
      cases hstatus : StatusCode.fromU16 def_.status with
      | none =>
          rw [hstatus] at h
          cases h
      | some code =>
          rw [hstatus] at h
          obtain rfl := Except.ok.inj h
          trivial
  | log =>
      rw [haction] at h
      obtain rfl := Except.ok.inj h
      trivial
  | incr =>
      rw [haction] at h
      dsimp only at h
      by_cases hname : (Str.trim def_.counter).isEmpty = true
      · rw [if_pos hname] at h
        cases h
      · rw [if_neg hname] at h
        obtain rfl := Except.ok.inj h
        trivial
  | allow =>
      rw [haction] at hallowed
      cases hallowed
  | rateLimit =>
      rw [haction] at hallowed
      cases hallowed
  | score =>
      rw [haction] at hallowed
      cases hallowed

/-- What the evaluators rely on in a compiled rule of some phase. -/
structure CompiledRule.WellFormed (phase : PhaseKind) (rule : CompiledRule X) : Prop where
  nonempty : rule.conds ≠ []
  conds : ∀ c ∈ rule.conds, c.WellFormed
  requestFields : phase = .request → ∀ c ∈ rule.conds, c.field.isResponseOnly = false
  responseFields : phase = .response → ∀ c ∈ rule.conds, c.field.allowedInResponse = true
  responseAction : phase = .response → rule.action.AllowedInResponse

section rules

variable {def_ : RuleDef} {defaultTz : Int} {cell : RateLimit.Cell}

/-- A rule that compiles is well formed, and so is what it is compiled to. -/
theorem wellFormed_of_compileRule {rule : CompiledRule X}
    (h : compileRule X defaultTz cell def_ = .ok rule) :
    def_.WellFormed X (IsTz IsSigned) ∧ rule.WellFormed def_.phase := by
  unfold compileRule at h
  obtain ⟨conds, hconds, h⟩ := bind_ok_iff.mp h
  obtain ⟨hnonempty, h⟩ := refuse_ok_iff.mp h
  obtain ⟨_, hfields, h⟩ := bind_ok_iff.mp h
  obtain ⟨hresponse, h⟩ := refuse_ok_iff.mp h
  obtain ⟨action, haction, h⟩ := bind_ok_iff.mp h
  obtain rfl := Except.ok.inj h
  have hnonempty : conds ≠ [] := fun h => hnonempty (List.isEmpty_iff.mpr h)
  have hfields := forM_ok_iff.mp hfields
  have hresponse : def_.phase = .response → def_.action.allowedInResponse = true := by
    intro hphase
    by_contra hnot
    exact hresponse ⟨hphase, by simp [hnot]⟩
  have hcond : ∀ cond ∈ conds, ∃ c ∈ def_.when, compileCond X def_.id c defaultTz = .ok cond :=
    fun cond hmem => exists_of_mem_mapM hconds hmem
  have hwell : ∀ c ∈ def_.when, c.WellFormed X (IsTz IsSigned) := by
    intro c hc
    exact exists_compileCond_iff.mp (exists_mapM_ok_iff.mp ⟨conds, hconds⟩ c hc)
  refine ⟨⟨?_, hwell, ?_, ?_, exists_compileAction_iff.mp ⟨action, haction⟩⟩,
    ⟨hnonempty, ?_, ?_, ?_, ?_⟩⟩
  · intro hwhen
    rw [hwhen] at hconds
    exact hnonempty (Except.ok.inj hconds).symm
  · intro c hc
    obtain ⟨cond, hmem, hcompile⟩ := exists_mem_of_mapM hconds hc
    exact (checkField_ok_iff (wellFormed_of_compileCond hcompile).2.2).mp (hfields cond hmem)
  · intro hphase
    have hallowed := hresponse hphase
    cases haction : def_.action with
    | block => decide
    | log => decide
    | incr => decide
    | allow =>
        rw [haction] at hallowed
        cases hallowed
    | rateLimit =>
        rw [haction] at hallowed
        cases hallowed
    | score =>
        rw [haction] at hallowed
        cases hallowed
  · intro cond hmem
    obtain ⟨c, -, hcompile⟩ := hcond cond hmem
    exact (wellFormed_of_compileCond hcompile).2.1
  · intro hphase cond hmem
    have hcheck := hfields cond hmem
    unfold checkField at hcheck
    rw [hphase] at hcheck
    cases honly : cond.field.isResponseOnly with
    | false => rfl
    | true =>
        rw [honly] at hcheck
        cases hcheck
  · intro hphase cond hmem
    have hcheck := hfields cond hmem
    unfold checkField at hcheck
    rw [hphase] at hcheck
    cases hallowed : cond.field.allowedInResponse with
    | true => rfl
    | false =>
        rw [hallowed] at hcheck
        cases hcheck
  · intro hphase
    exact allowedInResponse_of_compileAction haction (hresponse hphase)

variable (def_ defaultTz cell) in
/-- A rule is compiled where it is well formed. -/
theorem exists_compileRule_iff :
    (∃ rule, compileRule X defaultTz cell def_ = .ok rule) ↔ def_.WellFormed X (IsTz IsSigned) := by
  constructor
  · rintro ⟨rule, h⟩
    exact (wellFormed_of_compileRule h).1
  · intro h
    obtain ⟨conds, hconds⟩ :
        ∃ conds, (def_.when.mapM fun c => compileCond X def_.id c defaultTz) = .ok conds :=
      exists_mapM_ok_iff.mpr fun c hc => exists_compileCond_iff.mpr (h.conds c hc)
    obtain ⟨action, haction⟩ : ∃ action, compileAction def_ cell = .ok action :=
      exists_compileAction_iff.mpr h.action
    have hnonempty : ¬ conds.isEmpty = true := by
      intro hempty
      obtain ⟨c, hc⟩ := List.exists_mem_of_ne_nil _ h.nonempty
      obtain ⟨cond, hmem, -⟩ := exists_mem_of_mapM hconds hc
      rw [List.isEmpty_iff.mp hempty] at hmem
      cases hmem
    have hfields : (conds.forM fun cond => checkField def_ cond.field) = .ok () := by
      refine forM_ok_iff.mpr fun cond hmem => ?_
      obtain ⟨c, hc, hcompile⟩ := exists_of_mem_mapM hconds hmem
      exact (checkField_ok_iff (wellFormed_of_compileCond hcompile).2.2).mpr (h.fields c hc)
    have hresponse : ¬ (def_.phase = .response ∧ (!def_.action.allowedInResponse) = true) := by
      rintro ⟨hphase, hnot⟩
      have hmem := h.responseAction hphase
      simp only [List.mem_cons, List.not_mem_nil, or_false] at hmem
      rcases hmem with haction | haction | haction
      all_goals
        rw [haction] at hnot
        cases hnot
    refine ⟨⟨def_.id, action, conds⟩, ?_⟩
    unfold compileRule
    refine bind_ok_iff.mpr ⟨conds, hconds, refuse_ok_iff.mpr ⟨hnonempty, ?_⟩⟩
    refine bind_ok_iff.mpr ⟨(), hfields, refuse_ok_iff.mpr ⟨hresponse, ?_⟩⟩
    exact bind_ok_iff.mpr ⟨action, haction, rfl⟩

end rules

/-! ## Rule files -/

/-- The rules of a file are compiled where each is well formed. -/
theorem exists_compileRules_iff (defaultTz : Int) (generation : Nat) (defs : List RuleDef)
    (position : Nat) :
    (∃ rules, compileRules X defaultTz generation position defs = .ok rules) ↔
      ∀ def_ ∈ defs, def_.WellFormed X (IsTz IsSigned) := by
  induction defs generalizing position with
  | nil => exact iff_of_true ⟨_, rfl⟩ (fun def_ h => absurd h List.not_mem_nil)
  | cons def_ defs ih =>
      rw [List.forall_mem_cons, ← ih (position + 1),
        ← exists_compileRule_iff def_ defaultTz (.rule generation position)]
      constructor
      · rintro ⟨_, h⟩
        unfold compileRules at h
        obtain ⟨rule, hrule, h⟩ := bind_ok_iff.mp h
        obtain ⟨rules, hrules, -⟩ := bind_ok_iff.mp h
        exact ⟨⟨rule, hrule⟩, rules, hrules⟩
      · rintro ⟨⟨rule, hrule⟩, rules, hrules⟩
        constructor
        unfold compileRules
        exact bind_ok_iff.mpr ⟨rule, hrule, bind_ok_iff.mpr ⟨rules, hrules, rfl⟩⟩

/-- The rules of some phase, each compiled from its definition, in the order of the file. -/
def CompiledInOrder (phase : PhaseKind) (defs : List RuleDef) (defaultTz : Int)
    (rules : List (CompiledRule X)) : Prop :=
  List.Forall₂ (fun def_ rule => ∃ cell, compileRule X defaultTz cell def_ = .ok rule)
    (defs.filter fun def_ => def_.phase = phase) rules

/-- The rules of each phase are compiled in the order of the file. -/
theorem compiledInOrder_of_compileRules {defaultTz : Int} {generation position : Nat}
    {defs : List RuleDef} {req resp : List (CompiledRule X)}
    (h : compileRules X defaultTz generation position defs = .ok (req, resp)) :
    CompiledInOrder .request defs defaultTz req ∧
      CompiledInOrder .response defs defaultTz resp := by
  induction defs generalizing position req resp with
  | nil =>
      obtain ⟨rfl, rfl⟩ := Prod.mk.inj (Except.ok.inj h)
      exact ⟨List.Forall₂.nil, List.Forall₂.nil⟩
  | cons def_ defs ih =>
      unfold compileRules at h
      obtain ⟨rule, hrule, h⟩ := bind_ok_iff.mp h
      obtain ⟨⟨req', resp'⟩, hrest, h⟩ := bind_ok_iff.mp h
      obtain ⟨hreq, hresp⟩ := ih hrest
      unfold CompiledInOrder at hreq hresp ⊢
      cases hphase : def_.phase with
      | request =>
          rw [hphase] at h
          obtain ⟨rfl, rfl⟩ := Prod.mk.inj (Except.ok.inj h)
          rw [List.filter_cons_of_pos (by simp [hphase]),
            List.filter_cons_of_neg (by simp [hphase])]
          exact ⟨List.Forall₂.cons ⟨_, hrule⟩ hreq, hresp⟩
      | response =>
          rw [hphase] at h
          obtain ⟨rfl, rfl⟩ := Prod.mk.inj (Except.ok.inj h)
          rw [List.filter_cons_of_neg (by simp [hphase]),
            List.filter_cons_of_pos (by simp [hphase])]
          exact ⟨hreq, List.Forall₂.cons ⟨_, hrule⟩ hresp⟩

/-- Rules compiled in order are well formed. -/
theorem CompiledInOrder.wellFormed {phase : PhaseKind} {defs : List RuleDef} {defaultTz : Int}
    {rules : List (CompiledRule X)} (h : CompiledInOrder phase defs defaultTz rules) :
    ∀ rule ∈ rules, rule.WellFormed phase := by
  have hphase : ∀ def_ ∈ defs.filter (fun def_ => def_.phase = phase), def_.phase = phase := by
    intro def_ hmem
    exact of_decide_eq_true (List.mem_filter.mp hmem).2
  unfold CompiledInOrder at h
  generalize defs.filter (fun def_ => def_.phase = phase) = kept at h hphase
  induction h with
  | nil =>
      intro rule hmem
      cases hmem
  | @cons def_ rule kept rules hcompile _ ih =>
      obtain ⟨cell, hcompile⟩ := hcompile
      obtain ⟨hfirst, hphase⟩ := List.forall_mem_cons.mp hphase
      refine List.forall_mem_cons.mpr ⟨?_, ih hphase⟩
      rw [← hfirst]
      exact (wellFormed_of_compileRule hcompile).2

/-- A rule set as compilation leaves it: the rules of the file apart by phase, in its order, and
fit for the evaluators. -/
structure RuleSet.CompiledFrom (rs : RuleSet X) (defs : List RuleDef) (defaultTz : Int) :
    Prop where
  rules : CompiledInOrder .request defs defaultTz rs.rules
  responseRules : CompiledInOrder .response defs defaultTz rs.responseRules
  wellFormed : ∀ rule ∈ rs.rules, rule.WellFormed .request
  responseWellFormed : ∀ rule ∈ rs.responseRules, rule.WellFormed .response

section files

variable {defs : List RuleDef} {scoring : ScoringConfig} {defaultTz : Int} {generation : Nat}

/-- **What compilation leaves** is fit for the evaluators. -/
theorem compiledFrom_of_compileWithTz {rs : RuleSet X}
    (h : compileWithTz X defs scoring defaultTz generation = .ok rs) :
    rs.CompiledFrom defs defaultTz := by
  unfold compileWithTz at h
  obtain ⟨⟨req, resp⟩, hrules, h⟩ := bind_ok_iff.mp h
  have hsame : rs.rules = req ∧ rs.responseRules = resp := by
    unfold applyScoring at h
    dsimp only at h
    cases hstatus : StatusCode.fromU16 scoring.status with
    | none =>
        rw [hstatus] at h
        cases h
    | some status =>
        rw [hstatus] at h
        obtain rfl := Except.ok.inj h
        exact ⟨rfl, rfl⟩
  obtain ⟨rfl, rfl⟩ := hsame
  obtain ⟨hreq, hresp⟩ := compiledInOrder_of_compileRules hrules
  exact ⟨hreq, hresp, hreq.wellFormed, hresp.wellFormed⟩

/-- **A file compiles** where its rules and its scoring section are well formed, up to the signs
of hours and minutes in timezones. -/
theorem exists_compileWithTz_iff :
    (∃ rs, compileWithTz X defs scoring defaultTz generation = .ok rs) ↔
      FileWellFormed X (IsTz IsSigned) defs scoring := by
  unfold compileWithTz FileWellFormed
  rw [← exists_compileRules_iff defaultTz generation defs 0,
    ← exists_fromU16_iff]
  simp only [bind_ok_iff]
  unfold applyScoring
  cases StatusCode.fromU16 scoring.status with
  | none => simp
  | some status => simp

end files

/-! ## Exactness -/

/-- The timezones that count are those of the operators that read the clock. -/
theorem CondDef.opWellFormed_and_iff {c : CondDef} {tz p : Str → Prop} :
    c.OpWellFormed X (fun s => tz s ∧ p s) ↔
      c.OpWellFormed X tz ∧ (c.op ∈ clockOpNames → p c.tz) := by
  constructor
  · intro h
    cases h with
    | text hmem => exact ⟨.text hmem, fun h => absurd h (notMem_clockOpNames (by simp [hmem]))⟩
    | numeric hmem hvalue =>
        exact ⟨.numeric hmem hvalue, fun h => absurd h (notMem_clockOpNames (by simp [hmem]))⟩
    | libinjection hmem hfeature =>
        exact ⟨.libinjection hmem hfeature,
          fun h => absurd h (notMem_clockOpNames (by simp [hmem]))⟩
    | regex hop hvalue =>
        exact ⟨.regex hop hvalue, fun h => absurd h (notMem_clockOpNames (by simp [hop]))⟩
    | cidr hop hip hvalue =>
        exact ⟨.cidr hop hip hvalue, fun h => absurd h (notMem_clockOpNames (by simp [hop]))⟩
    | isIn hop hvalues =>
        exact ⟨.isIn hop hvalues, fun h => absurd h (notMem_clockOpNames (by simp [hop]))⟩
    | timeBetween hop hclock hvalue htz =>
        exact ⟨.timeBetween hop hclock hvalue htz.1, fun _ => htz.2⟩
    | dayOfWeek hop hclock hvalue htz =>
        exact ⟨.dayOfWeek hop hclock hvalue htz.1, fun _ => htz.2⟩
  · rintro ⟨h, hp⟩
    cases h with
    | text hmem => exact .text hmem
    | numeric hmem hvalue => exact .numeric hmem hvalue
    | libinjection hmem hfeature => exact .libinjection hmem hfeature
    | regex hop hvalue => exact .regex hop hvalue
    | cidr hop hip hvalue => exact .cidr hop hip hvalue
    | isIn hop hvalues => exact .isIn hop hvalues
    | timeBetween hop hclock hvalue htz =>
        exact .timeBetween hop hclock hvalue ⟨htz, hp (by simp [hop, clockOpNames])⟩
    | dayOfWeek hop hclock hvalue htz =>
        exact .dayOfWeek hop hclock hvalue ⟨htz, hp (by simp [hop, clockOpNames])⟩

/-- A file without stray minuses in the timezones that count. -/
def NoStrayMinus (defs : List RuleDef) : Prop :=
  ∀ def_ ∈ defs, ∀ c ∈ def_.when, c.op ∈ clockOpNames → ¬ HasStrayMinus c.tz

/-- **The well-formed files** are the files that compile without stray minuses. -/
theorem fileWellFormed_isNumber_iff {defs : List RuleDef} {scoring : ScoringConfig} :
    FileWellFormed X (IsTz IsNumber) defs scoring ↔
      FileWellFormed X (IsTz IsSigned) defs scoring ∧ NoStrayMinus defs := by
  have hop : ∀ c : CondDef, c.OpWellFormed X (IsTz IsNumber) ↔
      c.OpWellFormed X (IsTz IsSigned) ∧ (c.op ∈ clockOpNames → ¬ HasStrayMinus c.tz) := by
    intro c
    rw [← CondDef.opWellFormed_and_iff (p := fun s => ¬ HasStrayMinus s)]
    simp only [← isTz_isNumber_iff]
  constructor
  · rintro ⟨hdefs, hstatus⟩
    refine ⟨⟨fun def_ hdef => ?_, hstatus⟩, fun def_ hdef c hc => ?_⟩
    · obtain ⟨hnonempty, hconds, hfields, hresponse, haction⟩ := hdefs def_ hdef
      refine ⟨hnonempty, fun c hc => ?_, hfields, hresponse, haction⟩
      obtain ⟨hfield, hwell, htime, hday, htransforms⟩ := hconds c hc
      exact ⟨hfield, ((hop c).mp hwell).1, htime, hday, htransforms⟩
    · exact ((hop c).mp ((hdefs def_ hdef).conds c hc).op).2
  · rintro ⟨⟨hdefs, hstatus⟩, hstray⟩
    refine ⟨fun def_ hdef => ?_, hstatus⟩
    obtain ⟨hnonempty, hconds, hfields, hresponse, haction⟩ := hdefs def_ hdef
    refine ⟨hnonempty, fun c hc => ?_, hfields, hresponse, haction⟩
    obtain ⟨hfield, hwell, htime, hday, htransforms⟩ := hconds c hc
    exact ⟨hfield, (hop c).mpr ⟨hwell, hstray def_ hdef c hc⟩, htime, hday, htransforms⟩

variable (X)

/-- Compilation is exact on a file: it succeeds where the file is well formed, and leaves the
rules fit for the evaluators. -/
def CompilesExactly (defs : List RuleDef) (scoring : ScoringConfig) (defaultTz : Int)
    (generation : Nat) : Prop :=
  ((∃ rs, compileWithTz X defs scoring defaultTz generation = .ok rs) ↔
    FileWellFormed X (IsTz IsNumber) defs scoring) ∧
  ∀ rs, compileWithTz X defs scoring defaultTz generation = .ok rs → rs.CompiledFrom defs defaultTz

/-- A build without the optional features. -/
def strayBuild : Crates := .plain .none .none

/-- A rule for working hours, with its timezone slipped. -/
def strayRule : RuleDef :=
  { id := "working-hours"
    when := [{ field := "time", op := "time_between", value := "08:00-17:00", tz := "+-99:00" }] }

end BuduWaf.Rules
