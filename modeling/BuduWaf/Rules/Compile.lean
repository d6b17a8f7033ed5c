import BuduWaf.Lib.Except
import BuduWaf.RateLimit

/-!
# `budu-rules`: the compiled form and its compilation

* **The compiled form**: `Field`, `Op`, `CompiledCond`, `Action`, `CompiledRule`, `RuleSet`.
* **`compileCond`**: one condition. Names without a parameter are looked up in tables, in place
  of the arms of the source's `match`; every error keeps the source's text.
* **`compileWithTz`**: a rule file. Rules are split by phase, each keeping its file order. A
  `rate_limit` rule gets a limiter of its own, in the cell of its rule set's generation and its
  position in the file, so no two loads share a bucket.

The time and offset readers compute in `u16` and `i16`; the release profile has no overflow
checks, so their arithmetic wraps.

The order in which errors are raised is the source's: field, operator, whether the two fit, then
the transforms. So a condition with several mistakes is refused with the text the source gives.
What a compiled condition is, in terms of its definition, is said by one lemma for each function
(`compileCond_spec`, `compileRule_spec`), which the other modules use in place of the definitions.
-/

namespace BuduWaf.Rules

open RateLimit

variable (X : Crates)

/-! ## Compiled form -/

/-- What a condition reads.
Source: `budu-rules/src/ruleset.rs` `Field` -/
inductive Field where
  | method | path | query | uri
  | header (name : Str)
  | body | ip | country | status
  | respHeader (name : Str)
  | respBody
  | counter (name : Str)
  | arg (name : Str)
  | argNames | argsCount
  | cookie (name : Str)
  | cookieNames | args | headers | headerNames | cookies | time | day
deriving DecidableEq

/-- How a condition tests what it reads.
Source: `budu-rules/src/ruleset.rs` `Op` -/
inductive Op where
  | eq (value : Str)
  | ne (value : Str)
  | contains (value : Str)
  | startsWith (value : Str)
  | endsWith (value : Str)
  | regex (re : X.Regex)
  | cidr (net : IpNet)
  | isIn (values : List Str)
  | gt (n : Int)
  | lt (n : Int)
  | ge (n : Int)
  | le (n : Int)
  | detectSqli
  | detectXss
  | timeBetween (start finish : Nat) (offsetMin : Int)
  | dayOfWeek (mask : UInt8) (offsetMin : Int)

/-- A value transform.
Source: `budu-rules/src/ruleset.rs` `Transform` -/
inductive Transform where
  | lowercase | uppercase | urlDecode | compressWs | removeNulls | trim
deriving DecidableEq

/-- A compiled condition.
Source: `budu-rules/src/ruleset.rs` `CompiledCond` -/
structure CompiledCond where
  /-- What it reads. -/
  field : Field
  /-- How it tests. -/
  op : Op X
  /-- Whether the result is inverted. -/
  negate : Bool
  /-- Transforms applied first, in order. -/
  transforms : List Transform

/-- What a matching rule does.
Source: `budu-rules/src/ruleset.rs` `Action` -/
inductive Action where
  | block (status : StatusCode) (msg : Str)
  | allow
  | log
  | rateLimit (limiter : IpRateLimiter)
  | score (points : UInt32)
  | incr (counter : Str) (amount windowSecs : UInt64)

/-- A compiled rule.
Source: `budu-rules/src/ruleset.rs` `CompiledRule` -/
structure CompiledRule where
  /-- The rule's label. -/
  id : Str
  /-- What it does. -/
  action : Action
  /-- The conditions, all of which have to match. -/
  conds : List (CompiledCond X)

/-- A compiled rule set.
Source: `budu-rules/src/ruleset.rs` `RuleSet` -/
structure RuleSet where
  /-- Request-phase rules. -/
  rules : List (CompiledRule X)
  /-- Response-phase rules. -/
  responseRules : List (CompiledRule X)
  /-- Points that block; `0` disables scoring. -/
  threshold : UInt32
  /-- Status of an anomaly block. -/
  anomalyStatus : StatusCode
  /-- Reason of an anomaly block. -/
  anomalyMsg : Str

/-- Why a rule file is refused.
Source: `budu-rules/src/ruleset.rs` `RuleError` -/
inductive RuleError where
  | read (msg : Str)
  | parse (msg : Str)
  | invalid (rule msg : Str)
deriving DecidableEq

/-! ## Time, days and offsets -/

/-- The value of an `i16` computation that wraps. -/
def wrap16 (n : Int) : Int := n.bmod 65536

/-- Minutes since midnight.
Source: `budu-rules/src/ruleset.rs` `parse_hhmm` -/
def parseHhmm (s : Str) : Option Nat := do
  let s := Str.trim s
  let (h, m) ← (Str.splitOnce ':' s).or (Str.splitOnce '.' s)
  let h ← Str.parseUInt 16 (Str.trim h)
  let m ← Str.parseUInt 16 (Str.trim m)
  if h ≤ 23 ∧ m ≤ 59 then some ((h * 60 + m) % 65536) else none

/-- Start and end of a time window, in minutes since midnight.
Source: `budu-rules/src/ruleset.rs` `parse_time_window` -/
def parseTimeWindow (s : Str) : Option (Nat × Nat) := do
  let (a, b) ← Str.splitOnce '-' s
  let start ← parseHhmm a
  let finish ← parseHhmm b
  return (start, finish)

/-- A timezone offset in minutes.
Source: `budu-rules/src/ruleset.rs` `parse_tz_offset` -/
def parseTzOffset (s : Str) : Option Int :=
  let s := Str.trim s
  if s.isEmpty then some 0
  else
    let s := Str.trim
      (((Str.stripPrefix ("UTC" : Str) s).or (Str.stripPrefix ("utc" : Str) s)).getD s)
    if s.isEmpty then some 0
    else do
      let (sign, rest) := match s with
        | '-' :: r => ((-1 : Int), r)
        | '+' :: r => (1, r)
        | _ => (1, s)
      let (h, m) := (Str.splitOnce ':' rest).getD (rest, "0")
      let h ← Str.parseInt 16 (Str.trim h)
      let m ← Str.parseInt 16 (Str.trim m)
      if h ≤ 14 ∧ m ≤ 59 then some (wrap16 (sign * wrap16 (h * 60 + m))) else none

/-- The bit of a weekday name, Sunday first.
Source: `budu-rules/src/ruleset.rs` `parse_day_name` -/
def parseDayName (s : Str) : Option Nat :=
  [[("sun" : Str), "sunday"], ["mon", "monday"], ["tue", "tues", "tuesday"],
    ["wed", "weds", "wednesday"], ["thu", "thur", "thurs", "thursday"], ["fri", "friday"],
    ["sat", "saturday"]].findIdx? fun names => names.contains (Str.toAsciiLowercase (Str.trim s))

/-- The bit of one day in a mask of weekdays. -/
def dayBit (d : Nat) : UInt8 := 1 <<< UInt8.ofNat d

/-- The mask with the days from `d` on, cyclically, until `b` is set; `steps` bounds the walk,
and seven steps pass every day.
Source: `budu-rules/src/ruleset.rs` `parse_day_mask` (the inner loop) -/
def dayRange (b : Nat) : (steps : Nat) → (d : Nat) → UInt8 → UInt8
  | 0, _, mask => mask
  | steps + 1, d, mask =>
    if d = b then mask ||| dayBit d else dayRange b steps ((d + 1) % 7) (mask ||| dayBit d)

/-- The mask with one token's days added.
Source: `budu-rules/src/ruleset.rs` `parse_day_mask` (the outer loop body) -/
def dayToken (mask : UInt8) (tok : Str) : Option UInt8 :=
  let tok := Str.trim tok
  if tok.isEmpty then some mask
  else
    match Str.splitOnce '-' tok with
    | some (a, b) => do
      let a ← parseDayName a
      let b ← parseDayName b
      return dayRange b 7 a mask
    | none => (parseDayName tok).map fun d => mask ||| dayBit d

/-- The mask of a day specification.
Source: `budu-rules/src/ruleset.rs` `parse_day_mask` -/
def parseDayMask (s : Str) : Option UInt8 :=
  ((s.splitOn ',').foldlM dayToken 0).filter (· ≠ 0)

/-! ## Conditions -/

/-- The fields without a name.
Source: `budu-rules/src/ruleset.rs` `compile_cond` -/
def plainFields : List (Str × Field) :=
  [("method", .method), ("path", .path), ("query", .query), ("uri", .uri), ("body", .body),
    ("ip", .ip), ("country", .country), ("status", .status), ("resp_body", .respBody),
    ("arg_names", .argNames), ("args_count", .argsCount), ("args", .args),
    ("headers", .headers), ("header_names", .headerNames), ("cookies", .cookies),
    ("cookie_names", .cookieNames), ("time", .time), ("day", .day)]

/-- The fields with a name; header names are stored in lower case.
Source: `budu-rules/src/ruleset.rs` `compile_cond` -/
def namedFields : List (Str × (Str → Field)) :=
  [("header", fun n => .header (Str.toAsciiLowercase n)), ("arg", .arg), ("counter", .counter),
    ("resp_header", fun n => .respHeader (Str.toAsciiLowercase n)), ("cookie", .cookie)]

/-- The field of a condition.
Source: `budu-rules/src/ruleset.rs` `compile_cond` (`let field`) -/
def compileField (rule : Str) (c : CondDef) : Except RuleError Field :=
  match plainFields.lookup c.field, namedFields.lookup c.field with
  | some f, _ => .ok f
  | none, some mk =>
    if (Str.trim c.name).isEmpty then
      .error (.invalid rule (("field = \"" : Str) ++ c.field ++ ("\" requires `name`" : Str)))
    else .ok (mk c.name)
  | none, none =>
    .error (.invalid rule (("unknown field " : Str) ++ X.debugText c.field))

/-- The operators on texts.
Source: `budu-rules/src/ruleset.rs` `compile_cond` -/
def textOps : List (Str × (Str → Op X)) :=
  [("eq", .eq), ("ne", .ne), ("contains", .contains), ("starts_with", .startsWith),
    ("ends_with", .endsWith)]

/-- The numeric operators.
Source: `budu-rules/src/ruleset.rs` `compile_cond` -/
def numericOps : List (Str × (Int → Op X)) :=
  [("gt", .gt), ("lt", .lt), ("ge", .ge), ("le", .le)]

/-- The libinjection operators.
Source: `budu-rules/src/ruleset.rs` `compile_cond` -/
def libinjectionOps : List (Str × Op X) :=
  [("detect_sqli", .detectSqli), ("detect_xss", .detectXss)]

/-- The timezone of a condition: its own, or the server's.
Source: `budu-rules/src/ruleset.rs` `compile_cond` (`resolve_tz`) -/
def resolveTz (rule : Str) (c : CondDef) (defaultTz : Int) : Except RuleError Int :=
  if (Str.trim c.tz).isEmpty then .ok defaultTz
  else
    match parseTzOffset c.tz with
    | some tz => .ok tz
    | none =>
      .error (.invalid rule
        (("bad tz " : Str) ++ X.debugText c.tz ++ ("; expected e.g. \"+08:00\"" : Str)))

/-- The argument of a numeric operator.
Source: `budu-rules/src/ruleset.rs` `compile_cond` (`num`) -/
def numericArg (rule : Str) (c : CondDef) : Except RuleError Int :=
  match Str.parseInt 64 (Str.trim c.value) with
  | some n => .ok n
  | none =>
    .error (.invalid rule (("op " : Str) ++ X.debugText c.op
      ++ (" needs a numeric value, got " : Str) ++ X.debugText c.value))

/-- The operators with an argument form of their own.
Source: `budu-rules/src/ruleset.rs` `compile_cond` (`let op`) -/
def compileSpecialOp (rule : Str) (c : CondDef) (field : Field) (defaultTz : Int) :
    Except RuleError (Op X) :=
  if c.op = ("regex" : Str) then
    match X.regexNew c.value with
    | .ok re => .ok (.regex re)
    | .error e => .error (.invalid rule (("bad regex: " : Str) ++ e))
  else if c.op = ("cidr" : Str) then
    if field ≠ .ip then
      .error (.invalid rule "op = \"cidr\" only applies to field = \"ip\"")
    else
      match (X.parseNet c.value).or ((X.parseIp c.value).map IpNet.ofAddr) with
      | some net => .ok (.cidr net)
      | none => .error (.invalid rule (("bad CIDR " : Str) ++ X.debugText c.value))
  else if c.op = ("in" : Str) then
    if c.values.isEmpty then
      .error (.invalid rule "op = \"in\" requires a non-empty `values`")
    else .ok (.isIn c.values)
  else if c.op = ("time_between" : Str) then
    if field ≠ .time then
      .error (.invalid rule "op = \"time_between\" only applies to field = \"time\"")
    else
      match parseTimeWindow c.value with
      | some (start, finish) => (resolveTz X rule c defaultTz).map (.timeBetween start finish)
      | none =>
        .error (.invalid rule (("bad time window " : Str) ++ X.debugText c.value
          ++ ("; expected \"HH:MM-HH:MM\"" : Str)))
  else if c.op = ("day_of_week" : Str) then
    if field ≠ .day then
      .error (.invalid rule "op = \"day_of_week\" only applies to field = \"day\"")
    else
      match parseDayMask c.value with
      | some mask => (resolveTz X rule c defaultTz).map (.dayOfWeek mask)
      | none =>
        .error (.invalid rule (("bad day spec " : Str) ++ X.debugText c.value
          ++ ("; expected e.g. \"Mon-Fri\" or \"Sat,Sun\"" : Str)))
  else .error (.invalid rule (("unknown op " : Str) ++ X.debugText c.op))

/-- The operator of a condition.
Source: `budu-rules/src/ruleset.rs` `compile_cond` (`let op`) -/
def compileOp (rule : Str) (c : CondDef) (field : Field) (defaultTz : Int) :
    Except RuleError (Op X) :=
  match (textOps X).lookup c.op, (numericOps X).lookup c.op, (libinjectionOps X).lookup c.op with
  | some mk, _, _ => .ok (mk c.value)
  | none, some mk, _ => (numericArg X rule c).map mk
  | none, none, some op =>
    if X.features.libinjection then .ok op
    else .error (.invalid rule (("op " : Str) ++ X.debugText c.op
      ++ (" requires the `libinjection` build feature" : Str)))
  | none, none, none => compileSpecialOp X rule c field defaultTz

/-- Whether the operator is `time_between`. -/
def Op.isTimeBetween {X : Crates} : Op X → Bool
  | .timeBetween _ _ _ => true
  | _ => false

/-- Whether the operator is `day_of_week`. -/
def Op.isDayOfWeek {X : Crates} : Op X → Bool
  | .dayOfWeek _ _ => true
  | _ => false

/-- The transforms by name.
Source: `budu-rules/src/ruleset.rs` `compile_transform` -/
def transformNames : List (Str × Transform) :=
  [("lowercase", .lowercase), ("uppercase", .uppercase), ("url_decode", .urlDecode),
    ("compress_ws", .compressWs), ("remove_nulls", .removeNulls), ("trim", .trim)]

/-- One transform.
Source: `budu-rules/src/ruleset.rs` `compile_transform` -/
def compileTransform (rule t : Str) : Except RuleError Transform :=
  match transformNames.lookup t with
  | some tr => .ok tr
  | none => .error (.invalid rule (("unknown transform " : Str) ++ X.debugText t))

/-- One condition.
Source: `budu-rules/src/ruleset.rs` `compile_cond` -/
def compileCond (rule : Str) (c : CondDef) (defaultTz : Int) :
    Except RuleError (CompiledCond X) := do
  let field ← compileField X rule c
  let op ← compileOp X rule c field defaultTz
  if field = .time ∧ !op.isTimeBetween then
    throw (.invalid rule "field = \"time\" only supports op = \"time_between\"")
  if field = .day ∧ !op.isDayOfWeek then
    throw (.invalid rule "field = \"day\" only supports op = \"day_of_week\"")
  let transforms ← c.transform.mapM (compileTransform X rule)
  return ⟨field, op, c.negate, transforms⟩

/-! ## Rules and rule sets -/

/-- The fields that only a response has. -/
def Field.isResponseOnly : Field → Bool
  | .status | .respHeader _ | .respBody => true
  | _ => false

/-- The fields a response rule may use. -/
def Field.allowedInResponse : Field → Bool
  | .status | .respHeader _ | .respBody | .ip | .path | .counter _ => true
  | _ => false

/-- The actions a response rule may have. -/
def ActionKind.allowedInResponse : ActionKind → Bool
  | .block | .log | .incr => true
  | _ => false

/-- Whether a field fits the phase of its rule.
Source: `budu-rules/src/ruleset.rs` `RuleSet::compile_with_tz` (phase and field) -/
def checkField (def_ : RuleDef) (field : Field) : Except RuleError Unit :=
  match def_.phase with
  | .request =>
    if field.isResponseOnly then
      .error (.invalid def_.id
        "status/resp_header/resp_body are only valid in phase = \"response\"")
    else .ok ()
  | .response =>
    if field.allowedInResponse then .ok ()
    else .error (.invalid def_.id (("phase = \"response\" rules may only use " : Str)
      ++ ("status/resp_header/resp_body/ip/path/counter" : Str)))

/-- The action of a rule; a `rate_limit` gets the limiter in `cell`.
Source: `budu-rules/src/ruleset.rs` `RuleSet::compile_with_tz` (`let action`) -/
def compileAction (def_ : RuleDef) (cell : Cell) : Except RuleError Action :=
  match def_.action with
  | .block =>
    match StatusCode.fromU16 def_.status with
    | some status => .ok (.block status (if def_.msg.isEmpty then def_.id else def_.msg))
    | none =>
      .error (.invalid def_.id (("bad status " : Str) ++ Str.ofNat def_.status.toNat))
  | .allow => .ok .allow
  | .log => .ok .log
  | .rateLimit =>
    if def_.rps = 0 then
      .error (.invalid def_.id "action = \"rate_limit\" requires rps > 0")
    else .ok (.rateLimit (IpRateLimiter.new cell def_.rps def_.burst def_.ttlSecs))
  | .score =>
    if def_.score = 0 then
      .error (.invalid def_.id "action = \"score\" requires score > 0")
    else .ok (.score def_.score)
  | .incr =>
    if (Str.trim def_.counter).isEmpty then
      .error (.invalid def_.id "action = \"incr\" requires a `counter` name")
    else .ok (.incr def_.counter def_.incr def_.ttlSecs)

/-- One rule.
Source: `budu-rules/src/ruleset.rs` `RuleSet::compile_with_tz` (the loop body) -/
def compileRule (defaultTz : Int) (cell : Cell) (def_ : RuleDef) :
    Except RuleError (CompiledRule X) := do
  let conds ← def_.when.mapM fun c => compileCond X def_.id c defaultTz
  if conds.isEmpty then
    throw (.invalid def_.id "needs at least one `when` condition")
  conds.forM fun cond => checkField def_ cond.field
  if def_.phase = .response ∧ !def_.action.allowedInResponse then
    throw (.invalid def_.id "phase = \"response\" supports only block/log/incr actions")
  let action ← compileAction def_ cell
  return ⟨def_.id, action, conds⟩

/-- The rules of a file from some position on, request and response rules apart.
Source: `budu-rules/src/ruleset.rs` `RuleSet::compile_with_tz` (the loop) -/
def compileRules (defaultTz : Int) (generation : Nat) :
    (position : Nat) → List RuleDef →
      Except RuleError (List (CompiledRule X) × List (CompiledRule X))
  | _, [] => .ok ([], [])
  | position, def_ :: rest => do
    let rule ← compileRule X defaultTz (.rule generation position) def_
    let (req, resp) ← compileRules defaultTz generation (position + 1) rest
    return match def_.phase with
      | .request => (rule :: req, resp)
      | .response => (req, rule :: resp)

/-- The rule set with the scoring section applied.
Source: `budu-rules/src/ruleset.rs` `RuleSet::apply_scoring` -/
def applyScoring (rules responseRules : List (CompiledRule X)) (scoring : ScoringConfig) :
    Except RuleError (RuleSet X) :=
  match StatusCode.fromU16 scoring.status with
  | some status => .ok ⟨rules, responseRules, scoring.threshold, status, scoring.msg⟩
  | none =>
    .error (.invalid "[scoring]" (("bad status " : Str) ++ Str.ofNat scoring.status.toNat))

/-- Compile a rule file.
Source: `budu-rules/src/ruleset.rs` `RuleSet::compile_with_tz` -/
def compileWithTz (defs : List RuleDef) (scoring : ScoringConfig) (defaultTz : Int)
    (generation : Nat) : Except RuleError (RuleSet X) := do
  let (req, resp) ← compileRules X defaultTz generation 0 defs
  applyScoring X req resp scoring

/-- Load a rule file; no path means no rules.
Source: `budu-rules/src/ruleset.rs` `RuleSet::load`, `RuleSet::empty` -/
def RuleSet.load (fs : FileSystem) (path : Str) (scoring : ScoringConfig) (defaultTz : Int)
    (generation : Nat) : Except RuleError (RuleSet X) :=
  if (Str.trim path).isEmpty then applyScoring X [] [] scoring
  else do
    let text ← (fs.readToString path).mapError fun e => .read (path ++ (": " : Str) ++ e)
    let defs ← (X.tomlRules text).mapError .parse
    compileWithTz X defs scoring defaultTz generation

variable {X}

/-- What a rule is compiled to: its label, its action, and its conditions in order. -/
theorem compileRule_spec {defaultTz : Int} {cell : Cell} {def_ : RuleDef} {rule : CompiledRule X}
    (h : compileRule X defaultTz cell def_ = .ok rule) :
    rule.id = def_.id ∧ compileAction def_ cell = .ok rule.action ∧
      (def_.when.mapM fun c => compileCond X def_.id c defaultTz) = .ok rule.conds := by
  unfold compileRule at h
  obtain ⟨conds, hconds, h⟩ := bind_ok_iff.mp h
  obtain ⟨-, h⟩ := refuse_ok_iff.mp h
  obtain ⟨_, -, h⟩ := bind_ok_iff.mp h
  obtain ⟨-, h⟩ := refuse_ok_iff.mp h
  obtain ⟨action, haction, h⟩ := bind_ok_iff.mp h
  obtain rfl := Except.ok.inj h
  exact ⟨rfl, haction, hconds⟩

/-- What one condition is compiled to: its field, its operator, its sign and its transforms. -/
theorem compileCond_spec {rule : Str} {c : CondDef} {defaultTz : Int} {cond : CompiledCond X}
    (h : compileCond X rule c defaultTz = .ok cond) :
    compileField X rule c = .ok cond.field ∧
      compileOp X rule c cond.field defaultTz = .ok cond.op ∧ cond.negate = c.negate ∧
        c.transform.mapM (compileTransform X rule) = .ok cond.transforms := by
  unfold compileCond at h
  obtain ⟨field, hfield, h⟩ := bind_ok_iff.mp h
  obtain ⟨op, hop, h⟩ := bind_ok_iff.mp h
  obtain ⟨-, h⟩ := refuse_ok_iff.mp h
  obtain ⟨-, h⟩ := refuse_ok_iff.mp h
  obtain ⟨transforms, htransforms, h⟩ := bind_ok_iff.mp h
  obtain rfl := Except.ok.inj h
  exact ⟨hfield, hop, rfl, htransforms⟩

section lookups

variable {rule : Str} {c : CondDef} {field : Field} {op : Op X} {defaultTz : Int}

/-- A field that takes no name compiles to itself. -/
theorem compileField_plain (hplain : plainFields.lookup c.field = some field) :
    compileField X rule c = .ok field := by
  unfold compileField
  rw [hplain]

/-- A field that takes a name compiles to the field of that name. -/
theorem compileField_named {mk : Str → Field} (hplain : plainFields.lookup c.field = none)
    (hnamed : namedFields.lookup c.field = some mk) (h : compileField X rule c = .ok field) :
    field = mk c.name := by
  unfold compileField at h
  rw [hplain, hnamed] at h
  dsimp only at h
  split at h
  · cases h
  · exact (Except.ok.inj h).symm

/-- An operator whose argument is a text compiles with the text as it is. -/
theorem compileOp_text {mk : Str → Op X} (htext : (textOps X).lookup c.op = some mk) :
    compileOp X rule c field defaultTz = .ok (mk c.value) := by
  unfold compileOp
  rw [htext]

/-- A numeric operator compiles with the number its trimmed argument is. -/
theorem compileOp_numeric {mk : Int → Op X} (htext : (textOps X).lookup c.op = none)
    (hnumeric : (numericOps X).lookup c.op = some mk)
    (h : compileOp X rule c field defaultTz = .ok op) :
    ∃ n, Str.parseInt 64 (Str.trim c.value) = some n ∧ op = mk n := by
  unfold compileOp at h
  rw [htext, hnumeric] at h
  obtain ⟨n, hn, rfl⟩ := map_ok_iff.mp h
  unfold numericArg at hn
  split at hn
  · rename_i m hm
    obtain rfl := Except.ok.inj hn
    exact ⟨m, hm, rfl⟩
  · cases hn

end lookups

/-- The scoring section leaves the rules alone. -/
theorem rules_of_applyScoring {rules responseRules : List (CompiledRule X)}
    {scoring : ScoringConfig} {rs : RuleSet X}
    (h : applyScoring X rules responseRules scoring = .ok rs) : rs.rules = rules := by
  unfold applyScoring at h
  split at h
  · obtain rfl := Except.ok.inj h
    rfl
  · cases h

/-- Whether a response rule reads the response body.
Source: `budu-rules/src/ruleset.rs` `RuleSet::needs_response_body` -/
def RuleSet.needsResponseBody (rs : RuleSet X) : Bool :=
  rs.responseRules.any fun r => r.conds.any fun c => c.field == .respBody

end BuduWaf.Rules
