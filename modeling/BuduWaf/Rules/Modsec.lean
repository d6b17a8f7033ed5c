import BuduWaf.Rules.Compile

/-!
# `budu-rules`: the import of ModSecurity rules

* **Tokenizers**: lines joined at a backslash, words and quoted spans, variables, the operator,
  the actions.
* **`parseSecrule`**: one `SecRule`, not yet mapped.
* **`buildRules`**: a rule and its chained members as rules of this repository. What is warned
  about on the way is handed back beside the result, as both survive a failure.
* **`convert`**: a whole text. The report has the emitted rules themselves; the source writes
  them with `toml::to_string`.

The suffix of a rule's id is computed in `u8`, which wraps in a release build.

The code returns early in several places, and warns on the way: a function that may fail after it
has warned gives its warnings and its result as a pair. Loops over lines are recursions over the
list of lines with a number of lines to skip, since the members of a chain are consumed by the rule
they belong to.

The names of ModSecurity's variables, operators and transformations stand in tables, with what each
is mapped to beside it, in the order of the source's `match`.
-/

namespace BuduWaf.Rules.Modsec

variable (X : Crates)

/-! ## Emitted rules -/

/-- One emitted condition.
Source: `budu-rules/src/modsec.rs` `EmittedCond` -/
structure EmittedCond where
  /-- The field. -/
  field : Str
  /-- Its name. -/
  name : Option Str
  /-- The operator. -/
  op : Str
  /-- The operator's argument. -/
  value : Option Str
  /-- Whether the result is inverted. -/
  negate : Bool
  /-- The transforms, in order. -/
  transform : List Str
deriving DecidableEq

/-- One emitted rule.
Source: `budu-rules/src/modsec.rs` `EmittedRule` -/
structure EmittedRule where
  /-- The label. -/
  id : Str
  /-- The phase; left out for requests. -/
  phase : Option Str
  /-- The action. -/
  action : Str
  /-- Status of a `block`. -/
  status : Option UInt16
  /-- Reason of a `block`. -/
  msg : Str
  /-- Points of a `score`. -/
  score : UInt32
  /-- The conditions. -/
  when : List EmittedCond
deriving DecidableEq

/-- A rule that was skipped.
Source: `budu-rules/src/modsec.rs` `SkipNote` -/
structure SkipNote where
  /-- Its id. -/
  id : Str
  /-- Why. -/
  reason : Str
deriving DecidableEq

/-- The outcome of a conversion.
Source: `budu-rules/src/modsec.rs` `ConvertReport` -/
structure ConvertReport where
  /-- The emitted rules. -/
  rules : List EmittedRule
  /-- How many source rules were converted. -/
  converted : Nat
  /-- The source rules that were skipped. -/
  skipped : List SkipNote
  /-- What was lost in a rule that was emitted. -/
  warnings : List Str
deriving DecidableEq

namespace ConvertReport

/-- The report of nothing: no rule, no note. -/
def empty : ConvertReport := ⟨[], 0, [], []⟩

/-- One report after another, with their counts added. -/
def append (r s : ConvertReport) : ConvertReport :=
  ⟨r.rules ++ s.rules, r.converted + s.converted, r.skipped ++ s.skipped,
    r.warnings ++ s.warnings⟩

end ConvertReport

/-! ## Lines and words -/

/-- Lines that end with a backslash joined to the next one, with `cur` read of the current line.
Source: `budu-rules/src/modsec.rs` `join_continuations` (the loop) -/
def joinContinuationsFrom (cur : Str) : List Str → List Str
  | [] => if cur.isEmpty then [] else [cur]
  | raw :: rest =>
    let line := (Str.stripSuffix ['\r'] raw).getD raw
    match Str.stripSuffix ['\\'] line with
    | some pre => joinContinuationsFrom (cur ++ pre ++ [' ']) rest
    | none => (cur ++ line) :: joinContinuationsFrom [] rest

/-- The logical lines of a text.
Source: `budu-rules/src/modsec.rs` `join_continuations` -/
def joinContinuations (input : Str) : List Str := joinContinuationsFrom [] (Str.lines input)

/-- The argument of a directive.
Source: `budu-rules/src/modsec.rs` `directive_arg` -/
def directiveArg (line name : Str) : Option Str :=
  (Str.stripPrefix name line).bind fun rest =>
    let trimmed := Str.trimStart rest
    if Str.byteLen rest = Str.byteLen trimmed then none else some trimmed

/-- Where the tokenizer is: between words, in a word, or between quotes. -/
inductive TokenState where
  | between
  | word (cur : Str)
  | quoted (quote : Char) (cur : Str)

/-- Words and quoted spans; the current token is held in reverse. Inside a span a backslash goes
with the next character, and is dropped before the span's quote.
Source: `budu-rules/src/modsec.rs` `tokenize` (the loop) -/
def tokenizeFrom : TokenState → Str → List Str
  | .between, [] => []
  | .between, c :: rest =>
    if Str.isWhitespace c then tokenizeFrom .between rest
    else if c = '"' ∨ c = '\'' then tokenizeFrom (.quoted c []) rest
    else tokenizeFrom (.word [c]) rest
  | .word cur, [] => [cur.reverse]
  | .word cur, c :: rest =>
    if Str.isWhitespace c then cur.reverse :: tokenizeFrom .between rest
    else tokenizeFrom (.word (c :: cur)) rest
  | .quoted _ cur, [] => [cur.reverse]
  | .quoted _ cur, ['\\'] => [('\\' :: cur).reverse]
  | .quoted quote cur, '\\' :: next :: rest =>
    if next = quote then tokenizeFrom (.quoted quote (next :: cur)) rest
    else tokenizeFrom (.quoted quote (next :: '\\' :: cur)) rest
  | .quoted quote cur, c :: rest =>
    if c = quote then cur.reverse :: tokenizeFrom .between rest
    else tokenizeFrom (.quoted quote (c :: cur)) rest

/-- The tokens of a `SecRule`.
Source: `budu-rules/src/modsec.rs` `tokenize` -/
def tokenize (s : Str) : List Str := tokenizeFrom .between s

/-! ## Variables, operator, actions -/

/-- A variable as it is written.
Source: `budu-rules/src/modsec.rs` `RawVar` -/
structure RawVar where
  /-- The name. -/
  name : Str
  /-- What stands behind the colon. -/
  selector : Option Str
  /-- Written with `&`. -/
  count : Bool
  /-- Written with `!`. -/
  exclude : Bool
deriving DecidableEq

/-- One variable.
Source: `budu-rules/src/modsec.rs` `parse_vars` (the closure) -/
def parseVar (part : Str) : RawVar :=
  let p := Str.trim part
  let (count, exclude, p) :=
    match Str.stripPrefix ['&'] p, Str.stripPrefix ['!'] p with
    | some r, _ => (true, false, r)
    | none, some r => (false, true, r)
    | none, none => (false, false, p)
  match Str.splitOnce ':' p with
  | some (n, sel) => ⟨n, some (Str.trimMatches '\'' sel), count, exclude⟩
  | none => ⟨p, none, count, exclude⟩

/-- The variables.
Source: `budu-rules/src/modsec.rs` `parse_vars` -/
def parseVars (s : Str) : List RawVar :=
  ((s.splitOn '|').filter fun p => !(Str.trim p).isEmpty).map parseVar

/-- Operator, argument, and whether it is negated; without `@` it is `rx`.
Source: `budu-rules/src/modsec.rs` `parse_operator` -/
def parseOperator (s : Str) : Str × Str × Bool :=
  let s := Str.trim s
  let (negate, s) :=
    match Str.stripPrefix ['!'] s with
    | some r => (true, Str.trimStart r)
    | none => (false, s)
  match Str.stripPrefix ['@'] s with
  | some at_ =>
    match at_.span fun c => !Str.isWhitespace c with
    | (n, _ :: a) => (n, Str.trim a, negate)
    | (_, []) => (at_, [], negate)
  | none => ("rx", s, negate)

/-- A key and its value, from one action.
Source: `budu-rules/src/modsec.rs` `push_action` -/
def pushAction (raw : Str) : List (Str × Option Str) :=
  let a := Str.trim raw
  if a.isEmpty then []
  else
    match Str.splitOnce ':' a with
    | some (k, v) => [(Str.trim k, some (Str.trimMatches '\'' (Str.trim v)))]
    | none => [(a, none)]

/-- The actions from here on, with `buf` read of the current one, in reverse. A comma between
single quotes does not end an action; the quotes are dropped.
Source: `budu-rules/src/modsec.rs` `split_actions` (the loop) -/
def splitActionsFrom (inQuote : Bool) (buf : Str) : Str → List (Str × Option Str)
  | [] => pushAction buf.reverse
  | c :: rest =>
    if c = '\'' then splitActionsFrom (!inQuote) buf rest
    else if c = ',' ∧ inQuote = false then
      pushAction buf.reverse ++ splitActionsFrom inQuote [] rest
    else splitActionsFrom inQuote (c :: buf) rest

/-- The actions.
Source: `budu-rules/src/modsec.rs` `split_actions` -/
def splitActions (s : Str) : List (Str × Option Str) := splitActionsFrom false [] s

/-- What becomes of a transform.
Source: `budu-rules/src/modsec.rs` `Transform` -/
inductive ImportedTransform where
  | keep (name : Str)
  | none
  | unsupported
deriving DecidableEq

/-- The transforms that are kept, and their names here.
Source: `budu-rules/src/modsec.rs` `map_transform` -/
def keptTransforms : List (Str × Str) :=
  [("lowercase", "lowercase"), ("uppercase", "uppercase"), ("urlDecode", "url_decode"),
    ("urlDecodeUni", "url_decode"), ("compressWhitespace", "compress_ws"),
    ("removeNulls", "remove_nulls"), ("trim", "trim"), ("trimLeft", "trim"),
    ("trimRight", "trim")]

/-- One transform.
Source: `budu-rules/src/modsec.rs` `map_transform` -/
def mapTransform (t : Str) : ImportedTransform :=
  let t := Str.trim t
  if t = ("none" : Str) then .none
  else
    match keptTransforms.lookup t with
    | some name => .keep name
    | none => .unsupported

/-- The severities of an anomaly score.
Source: `budu-rules/src/modsec.rs` `anomaly_score` -/
def severities : List (Str × UInt32) :=
  [("critical_anomaly_score", 5), ("error_anomaly_score", 4), ("warning_anomaly_score", 3),
    ("notice_anomaly_score", 2)]

/-- The anomaly points of a `setvar`.
Source: `budu-rules/src/modsec.rs` `anomaly_score` -/
def anomalyScore (setvar : Str) : Option UInt32 :=
  let lower := Str.toAsciiLowercase setvar
  if !Str.contains ("anomaly_score" : Str) lower then none
  else
    match severities.find? fun s => Str.contains s.1 lower with
    | some (_, points) => some points
    | none =>
      if List.elem '+' setvar then
        let behind := (setvar.reverse.takeWhile (· != '+')).reverse
        some ((((Str.parseUInt 32 (behind.filter Char.isDigit)).map UInt32.ofNat)).getD 5)
      else some 5

/-! ## One `SecRule` -/

/-- A parsed rule.
Source: `budu-rules/src/modsec.rs` `ParsedRule` -/
structure ParsedRule where
  /-- The variables. -/
  vars : List RawVar
  /-- The operator. -/
  opName : Str
  /-- Its argument. -/
  opArg : Str
  /-- Whether the operator is negated. -/
  negate : Bool
  /-- The transforms that are kept. -/
  transforms : List Str := []
  /-- The id. -/
  id : Option Str := none
  /-- The phase. -/
  phase : Nat := 2
  /-- `block`, `deny` or `drop` seen. -/
  disrupt : Bool := false
  /-- `allow` seen. -/
  allow : Bool := false
  /-- `pass` seen. -/
  pass : Bool := false
  /-- The status. -/
  status : Option UInt16 := none
  /-- The message. -/
  msg : Str := []
  /-- Anomaly points. -/
  score : Option UInt32 := none
  /-- `chain` seen. -/
  chain : Bool := false
deriving DecidableEq

namespace ParsedRule

/-- The phase an action names.
Source: `budu-rules/src/modsec.rs` `parse_secrule` (the arm of `phase`) -/
def phaseOf : Option Str → Nat
  | none => 2
  | some n =>
    if n = ("request" : Str) then 2
    else if n = ("response" : Str) then 4
    else (Str.parseUInt 8 (Str.trim n)).getD 2

/-- A rule with one more transform.
Source: `budu-rules/src/modsec.rs` `parse_secrule` (the arm of `t`) -/
def addTransform (rule : ParsedRule) : Option Str → ParsedRule
  | none => rule
  | some t =>
    match mapTransform t with
    | .keep name => { rule with transforms := rule.transforms ++ [name] }
    | .none => { rule with transforms := [] }
    | .unsupported => rule

/-- A rule with one more action.
Source: `budu-rules/src/modsec.rs` `parse_secrule` (the loop body) -/
def addAction (rule : ParsedRule) (action : Str × Option Str) : ParsedRule :=
  let (key, val) := action
  if key = ("id" : Str) then { rule with id := val.map Str.trim }
  else if key = ("phase" : Str) then { rule with phase := phaseOf val }
  else if [("deny" : Str), "block", "drop"].contains key then { rule with disrupt := true }
  else if key = ("allow" : Str) then { rule with allow := true }
  else if key = ("pass" : Str) then { rule with pass := true }
  else if key = ("status" : Str) then
    match val.bind fun v => Str.parseUInt 16 (Str.trim v) with
    | some s => { rule with status := some (UInt16.ofNat s) }
    | none => rule
  else if key = ("msg" : Str) then { rule with msg := val.getD [] }
  else if key = ("t" : Str) then rule.addTransform val
  else if key = ("setvar" : Str) then
    match anomalyScore (val.getD []) with
    | some points => { rule with score := some points }
    | none => rule
  else if key = ("chain" : Str) then { rule with chain := true }
  else rule

end ParsedRule

/-- Parse what follows `SecRule`.
Source: `budu-rules/src/modsec.rs` `parse_secrule` -/
def parseSecrule (rest : Str) : Except Str ParsedRule :=
  match tokenize rest with
  | vars :: operator :: more =>
    let (opName, opArg, negate) := parseOperator operator
    .ok ((splitActions (more.head?.getD [])).foldl ParsedRule.addAction
      { vars := parseVars vars, opName := opName, opArg := opArg, negate := negate })
  | _ => .error "malformed SecRule (need variables + operator)"

/-! ## Mapping -/

/-- The variables that are supported: the field of all values, and the field of one name.
Source: `budu-rules/src/modsec.rs` `map_var` -/
def variableFields : List (Str × (Str × Option Str)) :=
  [("ARGS", ("args", some "arg")), ("ARGS_GET", ("args", some "arg")),
    ("ARGS_POST", ("args", some "arg")), ("ARGS_COMBINED", ("args", some "arg")),
    ("ARGS_NAMES", ("arg_names", none)), ("ARGS_GET_NAMES", ("arg_names", none)),
    ("ARGS_POST_NAMES", ("arg_names", none)), ("QUERY_STRING", ("query", none)),
    ("REQUEST_URI", ("uri", none)), ("REQUEST_URI_RAW", ("uri", none)),
    ("REQUEST_FILENAME", ("path", none)), ("REQUEST_BASENAME", ("path", none)),
    ("PATH_INFO", ("path", none)), ("REQUEST_METHOD", ("method", none)),
    ("REQUEST_BODY", ("body", none)), ("REQUEST_HEADERS", ("headers", some "header")),
    ("REQUEST_HEADERS_NAMES", ("header_names", none)),
    ("REQUEST_COOKIES", ("cookies", some "cookie")),
    ("REQUEST_COOKIES_NAMES", ("cookie_names", none)), ("REMOTE_ADDR", ("ip", none))]

/-- Field and name of a variable.
Source: `budu-rules/src/modsec.rs` `map_var` -/
def mapVar (v : RawVar) : Option (Str × Option Str) :=
  let upper := Str.toAsciiUppercase v.name
  if v.count then
    if [("ARGS" : Str), "ARGS_GET", "ARGS_POST"].contains upper then some ("args_count", none)
    else none
  else
    match variableFields.lookup upper with
    | none => none
    | some (all, named) =>
      match named, v.selector with
      | some field, some s =>
        if (['/'] : Str).isPrefixOf s then none else some (field, some s)
      | _, _ => some (all, none)

/-- A text with its metacharacters escaped.
Source: `budu-rules/src/modsec.rs` `regex_escape` -/
def regexEscape (s : Str) : Str :=
  s.flatMap fun c => if List.elem c ("\\.+*?()|[]\x7b\x7d^$" : Str) then ['\\', c] else [c]

/-- The pattern of a phrase list.
Source: `budu-rules/src/modsec.rs` `phrases_to_regex` -/
def phrasesToRegex (arg : Str) : Str :=
  let alts := ((Str.splitWhitespace arg).map regexEscape).filter fun s => !s.isEmpty
  ("(?i)(" : Str) ++ Str.join "|" alts ++ (")" : Str)

/-- The operators that keep their argument.
Source: `budu-rules/src/modsec.rs` `map_operator` -/
def argOperators : List (Str × Str) :=
  [("rx", "regex"), ("contains", "contains"), ("beginsWith", "starts_with"),
    ("endsWith", "ends_with"), ("streq", "eq"), ("eq", "eq"), ("gt", "gt"), ("lt", "lt"),
    ("ge", "ge"), ("le", "le")]

/-- The operators of `libinjection`.
Source: `budu-rules/src/modsec.rs` `map_operator` -/
def detectOperators : List (Str × Str) :=
  [("detectSQLi", "detect_sqli"), ("detectXSS", "detect_xss")]

/-- Operator and value, and the warnings.
Source: `budu-rules/src/modsec.rs` `map_operator` -/
def mapOperator (name arg : Str) : Except Str (Str × Option Str) × List Str :=
  if Str.contains ("%\x7b" : Str) arg then
    (.error (("operator argument uses a macro (" : Str) ++ X.debugText arg ++ (")" : Str)), [])
  else
    match argOperators.lookup name, detectOperators.lookup name with
    | some op, _ => (.ok (op, some arg), [])
    | none, some op =>
      (.ok (op, none), [("@" : Str) ++ name ++ (" → " : Str) ++ op
        ++ (" requires building budu with --features libinjection" : Str)])
    | none, none =>
      if name = ("pm" : Str) then (.ok ("regex", some (phrasesToRegex arg)), [])
      else if name = ("ipMatch" : Str) then
        match ((arg.splitOn ',').map Str.trim).filter fun s => !s.isEmpty with
        | [one] => (.ok ("cidr", some one), [])
        | _ => (.error "@ipMatch with multiple CIDRs not supported", [])
      else if [("pmf" : Str), "pmFromFile", "ipMatchF", "ipMatchFromFile"].contains name then
        (.error (("@" : Str) ++ name ++ (" (from-file) not supported" : Str)), [])
      else (.error (("unsupported operator @" : Str) ++ name), [])

/-- Fields and names of the variables that are neither excluded nor unsupported.
Source: `budu-rules/src/modsec.rs` `map_member_conditions` (the loop's `continue`s) -/
def targets (m : ParsedRule) : List (Str × Option Str) :=
  (m.vars.filter fun v => !v.exclude).filterMap mapVar

/-- The condition of a member on one target.
Source: `budu-rules/src/modsec.rs` `map_member_conditions` (the literal of `EmittedCond`) -/
def emitCond (m : ParsedRule) (op : Str × Option Str) (target : Str × Option Str) :
    EmittedCond where
  field := target.1
  name := target.2
  op := op.1
  value := op.2
  negate := m.negate
  transform := m.transforms

/-- The conditions of one member, one a target.
Source: `budu-rules/src/modsec.rs` `map_member_conditions` -/
def mapMemberConditions (m : ParsedRule) : Except Str (List EmittedCond) × List Str :=
  match mapOperator X m.opName m.opArg with
  | (.error e, warnings) => (.error e, warnings)
  | (.ok op, warnings) =>
    let conds := (targets m).map (emitCond m op)
    if conds.isEmpty then (.error "no supported variable targets", warnings)
    else (.ok conds, warnings)

/-- The conditions of each member, until one fails.
Source: `budu-rules/src/modsec.rs` `build_rules` (the loop over `members`) -/
def memberConditions : List ParsedRule → Except Str (List (List EmittedCond)) × List Str
  | [] => (.ok [], [])
  | m :: members =>
    match mapMemberConditions X m with
    | (.error e, warnings) => (.error e, warnings)
    | (.ok conds, warnings) =>
      let (rest, more) := memberConditions members
      (rest.map (conds :: ·), warnings ++ more)

/-- Action, status and points of a rule.
Source: `budu-rules/src/modsec.rs` `build_rules` (`let (action, status, score)`) -/
def actionOf (starter : ParsedRule) : Str × Option UInt16 × UInt32 :=
  if starter.allow then ("allow", none, 0)
  else
    match starter.score with
    | some points => ("score", none, points)
    | none =>
      if starter.disrupt then ("block", some (starter.status.getD 403), 0)
      else ("log", none, 0)

/-- A rule with some label and conditions, for a starter.
Source: `budu-rules/src/modsec.rs` `build_rules` (the literals of `EmittedRule`) -/
def emitRule (starter : ParsedRule) (id : Str) (when_ : List EmittedCond) : EmittedRule where
  id := id
  phase := none
  action := (actionOf starter).1
  status := (actionOf starter).2.1
  msg := starter.msg
  score := (actionOf starter).2.2
  when := when_

/-- The letter behind the id of one of several rules: `(b'a' + idx as u8) as char`.
Source: `budu-rules/src/modsec.rs` `build_rules` -/
def suffixLetter (idx : Nat) : Char := Char.ofNat ((97 + idx % 256) % 256)

/-- The condition of a member that has just one.
Source: `budu-rules/src/modsec.rs` `build_rules` (`match conds.as_slice()`) -/
def onlyCond : List EmittedCond → Option EmittedCond
  | [one] => some one
  | _ => none

/-- The label of a rule.
Source: `budu-rules/src/modsec.rs` `build_rules` (`id_base`) -/
def idBase (starter : ParsedRule) : Str :=
  starter.id.elim ("crs-noid" : Str) fun n => ("crs-" : Str) ++ n

/-- The rules for the conditions of each member.
Source: `budu-rules/src/modsec.rs` `build_rules` (`if members.len() == 1`) -/
def assembleRules (starter : ParsedRule) :
    (memberConds : List (List EmittedCond)) → Except Str (List EmittedRule)
  | [conds] =>
    -- One rule a variable; any of them is enough.
    .ok (conds.zipIdx.map fun (c, idx) =>
      emitRule starter
        (if 1 < conds.length then idBase starter ++ ['-', suffixLetter idx] else idBase starter)
        [c])
  | memberConds =>
    match memberConds.mapM onlyCond with
    | some when_ => .ok [emitRule starter (idBase starter) when_]
    | none => .error "chained rule with a multi-variable member not supported"

/-- The rules of a starter and its chained members.
Source: `budu-rules/src/modsec.rs` `build_rules` -/
def buildRules (starter : ParsedRule) (chained : List ParsedRule) :
    Except Str (List EmittedRule) × List Str :=
  if 3 ≤ starter.phase then
    (.error (("phase " : Str) ++ Str.ofNat starter.phase
      ++ (" (response/logging) not supported in this importer" : Str)), [])
  else
    match memberConditions X (starter :: chained) with
    | (.error e, warnings) => (.error e, warnings)
    | (.ok memberConds, warnings) => (assembleRules starter memberConds, warnings)

/-! ## A whole text -/

/-- Blank lines and comments.
Source: `budu-rules/src/modsec.rs` `convert` -/
def isFiller (line : Str) : Bool := line.isEmpty || (['#'] : Str).isPrefixOf line

/-- The members of a chain in the lines behind a starter that carries `chain`, and how many lines
they take up. The line that breaks a chain is passed over, too.
Source: `budu-rules/src/modsec.rs` `convert` (the loop over `members`) -/
def chainMembers : List Str → List ParsedRule × Nat
  | [] => ([], 0)
  | l :: rest =>
    let l := Str.trim l
    if isFiller l then
      let (members, taken) := chainMembers rest
      (members, taken + 1)
    else
      match (directiveArg l "SecRule").map parseSecrule with
      | some (.ok r) =>
        if r.chain then
          let (members, taken) := chainMembers rest
          (r :: members, taken + 1)
        else ([r], 1)
      | _ => ([], 1)

/-- The report on a starter and its chained members.
Source: `budu-rules/src/modsec.rs` `convert` (`match build_rules`) -/
def blockReport (starter : ParsedRule) (chained : List ParsedRule) : ConvertReport :=
  match buildRules X starter chained with
  | (.ok emitted, warnings) => ⟨emitted, 1, [], warnings⟩
  | (.error reason, warnings) => ⟨[], 0, [⟨starter.id.getD "?", reason⟩], warnings⟩

/-- The report on the lines from here on, of which `skip` are taken up already.
Source: `budu-rules/src/modsec.rs` `convert` (the outer loop) -/
def convertFrom : (skip : Nat) → List Str → ConvertReport
  | _, [] => .empty
  | skip + 1, _ :: rest => convertFrom skip rest
  | 0, l :: rest =>
    let line := Str.trim l
    if isFiller line then convertFrom 0 rest
    else
      match (directiveArg line "SecRule").map parseSecrule with
      | none => convertFrom 0 rest
      | some (.error reason) =>
        ConvertReport.append ⟨[], 0, [⟨"?", reason⟩], []⟩ (convertFrom 0 rest)
      | some (.ok starter) =>
        let (chained, taken) := if starter.chain then chainMembers rest else ([], 0)
        (blockReport X starter chained).append (convertFrom taken rest)

/-- Convert a text.
Source: `budu-rules/src/modsec.rs` `convert` -/
def convert (input : Str) : ConvertReport := convertFrom X 0 (joinContinuations input)

end BuduWaf.Rules.Modsec
