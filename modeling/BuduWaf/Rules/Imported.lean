import BuduWaf.Lib.Split
import BuduWaf.Plain
import BuduWaf.Rules.SecRules

/-!
# `budu-rules`: imported single rules

What a rule without `chain` means in its file, and what the rules emitted for it match.

* **`EmittedRule.toDef`**: an emitted rule as it is loaded.
* **`Collection`**: what this firewall reads for a variable.
* **`emitted_matches_iff`**: what the emitted rules match. A value read for some variable passes
  the test; with `!`, no value read for some variable does.
* **`SecRule.Preserved`**: the values on which that is the meaning of the rule in its file, and
  **`SecRule.Faithful`**: the requests that are read whole and on which no transformation is
  mistranslated.
* **`single_rule_preserved_iff`**: the requests on which the two agree.

The proof goes in three steps. What is emitted for a rule depends on what the importer reads of it,
and this is a record of the importer; `StandsIn.emitted_iff` replaces the record by the rule as it
is written. A rule matches by some value of some variable, so the two meanings are compared value by
value, and what either of them has alone is named (`Lost`, `Foreign`; `Hidden`, `Void` with `!`).
Last, on a faithful request nothing is lost and nothing is foreign, so that without `!` the meanings
agree; with `!` they still differ, since the emitted rule asks that no value passes, where the rule
asks for one that does not.

Scope: a rule is not the member of a chain, and it is for a phase of the request. Nothing is
assumed of ModSecurity in the first equivalence; the second one takes what its manual says of the
transformations (`ModSecurity.Documented`).
-/

namespace BuduWaf.Rules.Modsec

open RateLimit

variable (X : Crates)

/-! ## Loading emitted rules -/

/-- A condition as it is loaded.
Source: `budu-rules/src/modsec.rs` `EmittedCond`, `budu-rules/src/ruleset.rs` `CondDef` -/
def EmittedCond.toDef (c : EmittedCond) : CondDef where
  field := c.field
  name := c.name.getD []
  op := c.op
  value := c.value.getD []
  negate := c.negate
  transform := c.transform

/-- The actions as they are written.
Source: `budu-rules/src/ruleset.rs` `ActionKind` -/
def actionNames : List (Str × ActionKind) :=
  [("block", .block), ("allow", .allow), ("log", .log), ("rate_limit", .rateLimit),
    ("score", .score), ("incr", .incr)]

/-- A rule as it is loaded; what is left out has its default.
Source: `budu-rules/src/modsec.rs` `EmittedRule`, `budu-rules/src/ruleset.rs` `RuleDef` -/
def EmittedRule.toDef (e : EmittedRule) : RuleDef where
  id := e.id
  phase := if e.phase = some ("response" : Str) then .response else .request
  action := (actionNames.lookup e.action).getD .block
  status := e.status.getD 403
  msg := e.msg
  score := e.score
  when := e.when.map EmittedCond.toDef

/-- The rule an emitted rule is compiled to matches a request. -/
def EmittedRule.Matches (e : EmittedRule) (defaultTz : Int) (now : Now) (ctx : RequestCtx)
    (counters : CounterStore X) : Prop :=
  ∃ cell rule, compileRule X defaultTz cell e.toDef = .ok rule ∧
    rule.matchesRequest now ctx counters = true

/-! ## What is read for a variable -/

/-- The values of a request that conditions look at. -/
inductive Collection where
  | args | argNames | query | uri | path | method | body
  | headers | headerNames | cookies | cookieNames | clientIp
deriving DecidableEq

namespace Collection

/-- The collection of values that a variable stands for, by the name of the variable. -/
def ofVariable : List (Str × Collection) :=
  [("ARGS", args), ("ARGS_GET", args), ("ARGS_POST", args), ("ARGS_COMBINED", args),
    ("ARGS_NAMES", argNames), ("ARGS_GET_NAMES", argNames), ("ARGS_POST_NAMES", argNames),
    ("QUERY_STRING", query), ("REQUEST_URI", uri), ("REQUEST_URI_RAW", uri),
    ("REQUEST_FILENAME", path), ("REQUEST_BASENAME", path), ("PATH_INFO", path),
    ("REQUEST_METHOD", method), ("REQUEST_BODY", body), ("REQUEST_HEADERS", headers),
    ("REQUEST_HEADERS_NAMES", headerNames), ("REQUEST_COOKIES", cookies),
    ("REQUEST_COOKIES_NAMES", cookieNames), ("REMOTE_ADDR", clientIp)]

/-- The fields that stand for a collection: of all its values, and of those with a name. -/
def fields : Collection → Str × Option Str
  | args => ("args", some "arg")
  | argNames => ("arg_names", none)
  | query => ("query", none)
  | uri => ("uri", none)
  | path => ("path", none)
  | method => ("method", none)
  | body => ("body", none)
  | headers => ("headers", some "header")
  | headerNames => ("header_names", none)
  | cookies => ("cookies", some "cookie")
  | cookieNames => ("cookie_names", none)
  | clientIp => ("ip", none)

/-- All values, or those of a name; of a header that is sent on several lines, the first one. -/
def read (ctx : RequestCtx) (selector : Option Str) : Collection → List Str
  | args => selector.elim ((collectArgs X ctx).map Prod.snd) fun n => valuesOf n (collectArgs X ctx)
  | argNames => (collectArgs X ctx).map Prod.fst
  | query => [ctx.query.getD []]
  | uri => [ctx.query.elim ctx.path fun q => ctx.path ++ '?' :: q]
  | path => [ctx.path]
  | method => [ctx.method]
  | body => match ctx.body with
      | .buffered b => [Str.fromUtf8Lossy b]
      | _ => []
  | headers => selector.elim (ctx.headers.entries.filterMap fun e => headerToStr e.2) fun n =>
      ((ctx.headers.get (Str.toAsciiLowercase n)).bind headerToStr).toList
  | headerNames => ctx.headers.keys
  | cookies => selector.elim ((collectCookies ctx).map Prod.snd) fun n =>
      valuesOf n (collectCookies ctx)
  | cookieNames => (collectCookies ctx).map Prod.fst
  | clientIp => [X.ipText ctx.client.ip]

end Collection

/-- What is read for a variable: the values of its collection, or none if it is not supported. -/
def readValues (ctx : RequestCtx) (v : RawVar) : List Str :=
  (Collection.ofVariable.lookup (Str.toAsciiUppercase v.name)).elim []
    (Collection.read X ctx v.selector)

/-! ## Meanings -/

/-- The operators whose argument is a text or a pattern. -/
def singleOperators : List Str := ["rx", "contains", "beginsWith", "endsWith", "streq"]

/-- A rule on its own: a request rule of supported variables and one of the operators above. -/
structure Single (m : ParsedRule) : Prop where
  /-- No chain. -/
  chain : m.chain = false
  /-- The phase. -/
  phase : m.phase < 3
  /-- The operator. -/
  operator : m.opName ∈ singleOperators
  /-- No macro in its argument. -/
  argument : Str.contains ("%\x7b" : Str) m.opArg = false
  /-- There is a variable. -/
  vars_ne : m.vars ≠ []
  /-- Neither exclusions nor counts. -/
  plain : ∀ v ∈ m.vars, v.exclude = false ∧ v.count = false
  /-- Supported variables. -/
  supported : ∀ v ∈ m.vars,
    (Collection.ofVariable.lookup (Str.toAsciiUppercase v.name)).isSome = true
  /-- No patterns as selectors. -/
  selector : ∀ v ∈ m.vars, ∀ s, v.selector = some s → ¬ ['/'] <+: s

/-- A value passes the test of a rule as it is read: after the transforms that are kept of it. -/
def ParsedRule.Accepts (m : ParsedRule) (x : Str) : Prop :=
  OperatorHolds (CrateFinds X) m.opName m.opArg
    (transformed (m.transforms.filterMap fun t => transformNames.lookup t) x)

variable {X}

/-! ## From variables to fields -/

/-- The field, and its name, of a collection with some selector. -/
def Collection.target (c : Collection) (selector : Option Str) : Str × Option Str :=
  match c.fields.2, selector with
  | some field, some s => (field, some s)
  | _, _ => (c.fields.1, none)

/-- The import maps a supported variable to the field of its collection. -/
theorem mapVar_eq {v : RawVar} {c : Collection} (hcount : v.count = false)
    (hselector : ∀ s, v.selector = some s → ¬ ['/'] <+: s)
    (hc : Collection.ofVariable.lookup (Str.toAsciiUppercase v.name) = some c) :
    mapVar v = some (c.target v.selector) := by
  have htable : variableFields = Collection.ofVariable.map fun p => (p.1, p.2.fields) := rfl
  unfold mapVar Collection.target
  rw [hcount, if_neg Bool.false_ne_true, htable, lookup_map, hc]
  cases hnamed : c.fields.2 with
  | none => simp only [Option.map_some, hnamed]
  | some field =>
      cases hsel : v.selector with
      | none => simp only [Option.map_some, hnamed]
      | some s =>
          have hpattern : (['/'] : Str).isPrefixOf s = false :=
            Bool.eq_false_iff.mpr fun h => hselector s hsel (List.isPrefixOf_iff_prefix.mp h)
          simp only [Option.map_some, hnamed, hpattern, Bool.false_eq_true, if_false]

/-- A field without a name is compiled to what the table says. -/
theorem field_of_plain {rule : Str} {d : CondDef} {field expected : Field}
    (h : compileField X rule d = .ok field) (hplain : plainFields.lookup d.field = some expected) :
    field = expected :=
  Except.ok.inj (h.symm.trans (compileField_plain hplain))

/-- The field of a collection reads its values. -/
theorem collectCandidates_eq {c : Collection} {selector : Option Str} {rule : Str} {d : CondDef}
    {field : Field} (hfield : d.field = (c.target selector).1)
    (hname : d.name = (c.target selector).2.getD []) (h : compileField X rule d = .ok field)
    (now : Now) (ctx : RequestCtx) (counters : CounterStore X) :
    collectCandidates now ctx counters field = c.read X ctx selector := by
  cases c with
  | args | headers | cookies =>
      cases selector with
      | none =>
          obtain rfl := field_of_plain h (by rw [hfield]; rfl)
          rfl
      | some n =>
          obtain rfl := compileField_named (by rw [hfield]; rfl) (by rw [hfield]; rfl) h
          rw [hname]
          rfl
  | uri =>
      obtain rfl := field_of_plain h (by rw [hfield]; cases selector <;> rfl)
      cases hquery : ctx.query <;> simp only [collectCandidates, Collection.read, hquery] <;> rfl
  | _ =>
      obtain rfl := field_of_plain h (by rw [hfield]; cases selector <;> rfl)
      rfl

/-! ## From operators to tests -/

/-- The transforms of a rule are compiled to those it names. -/
theorem transforms_eq {rule : Str} {names : List Str} {transforms : List Transform}
    (h : names.mapM (compileTransform X rule) = .ok transforms) :
    transforms = names.filterMap fun t => transformNames.lookup t := by
  induction names generalizing transforms with
  | nil => exact (Except.ok.inj h).symm
  | cons t names ih =>
      rw [List.mapM_cons] at h
      obtain ⟨tr, htr, h⟩ := bind_ok_iff.mp h
      obtain ⟨rest, hrest, h⟩ := bind_ok_iff.mp h
      obtain rfl := Except.ok.inj h
      unfold compileTransform at htr
      cases hlookup : transformNames.lookup t with
      | none =>
          rw [hlookup] at htr
          cases htr
      | some tr' =>
          rw [hlookup] at htr
          obtain rfl := Except.ok.inj htr
          rw [@List.filterMap_cons_some _ _ _ _ names _ hlookup, ← ih hrest]

section operators

variable {arg x : Str}

/-- `rx` holds where the pattern finds something. -/
theorem operatorHolds_rx : OperatorHolds (CrateFinds X) "rx" arg x ↔
    CrateFinds X arg x := by
  unfold OperatorHolds
  rw [if_pos rfl]

/-- `contains` holds where the argument is a part of the text. -/
theorem operatorHolds_contains : OperatorHolds (CrateFinds X) "contains" arg x ↔ arg <:+: x := by
  unfold OperatorHolds
  rw [if_neg (by decide), if_pos rfl]

/-- `beginsWith` holds where the text begins with the argument. -/
theorem operatorHolds_beginsWith : OperatorHolds (CrateFinds X) "beginsWith" arg x ↔ arg <+: x := by
  unfold OperatorHolds
  rw [if_neg (by decide), if_neg (by decide), if_pos rfl]

/-- `endsWith` holds where the text ends with the argument. -/
theorem operatorHolds_endsWith : OperatorHolds (CrateFinds X) "endsWith" arg x ↔ arg <:+ x := by
  unfold OperatorHolds
  rw [if_neg (by decide), if_neg (by decide), if_neg (by decide), if_pos rfl]

/-- `streq` holds where the text is the argument. -/
theorem operatorHolds_streq : OperatorHolds (CrateFinds X) "streq" arg x ↔ x = arg := by
  unfold OperatorHolds
  rw [if_neg (by decide), if_neg (by decide), if_neg (by decide), if_neg (by decide)]

end operators

/-- An operator that tests a text as the operator of that name in the file does. -/
def TestsAs (name arg : Str) (op : Op X) : Prop :=
  (∀ net, op ≠ .cidr net) ∧ ∀ x, evalOp op x = true ↔ OperatorHolds (CrateFinds X) name arg x

/-- `regex` compiles to its pattern, where the crate accepts it. -/
theorem compileOp_regex {rule : Str} {d : CondDef} {field : Field} {defaultTz : Int} {op : Op X}
    (hop : d.op = ("regex" : Str)) (h : compileOp X rule d field defaultTz = .ok op) :
    ∃ re, X.regexNew d.value = .ok re ∧ op = .regex re := by
  have hspecial : compileOp X rule d field defaultTz =
      compileSpecialOp X rule d field defaultTz := by
    unfold compileOp
    rw [hop]
    rfl
  rw [hspecial] at h
  unfold compileSpecialOp at h
  rw [if_pos hop] at h
  cases hre : X.regexNew d.value with
  | error e =>
      rw [hre] at h
      cases h
  | ok re =>
      rw [hre] at h
      exact ⟨re, rfl, (Except.ok.inj h).symm⟩

/-- The operator `rx` keeps its meaning. -/
theorem compileOp_rx {rule : Str} {d : CondDef} {field : Field} {defaultTz : Int} {op : Op X}
    (hop : d.op = ("regex" : Str)) (h : compileOp X rule d field defaultTz = .ok op) :
    TestsAs "rx" d.value op := by
  obtain ⟨re, hre, rfl⟩ := compileOp_regex hop h
  refine ⟨by rintro _ ⟨⟩, fun x => ?_⟩
  rw [operatorHolds_rx]
  constructor
  · intro hmatch
    exact ⟨re, hre, hmatch⟩
  · rintro ⟨re', hre', hmatch⟩
    obtain rfl := Except.ok.inj (hre.symm.trans hre')
    exact hmatch

/-- The operators keep their meaning: each compiles to the test of its name in the file. -/
theorem compileOp_testsAs {name rule : Str} {d : CondDef} {field : Field} {defaultTz : Int}
    {op : Op X} (hname : name ∈ singleOperators) (hop : argOperators.lookup name = some d.op)
    (h : compileOp X rule d field defaultTz = .ok op) : TestsAs name d.value op := by
  have htext : ∀ (target : Str) (mk : Str → Op X), argOperators.lookup name = some target →
      (textOps X).lookup target = some mk → op = mk d.value := by
    intro target mk htarget hmk
    have heq : d.op = target := Option.some.inj (hop.symm.trans htarget)
    rw [← heq] at hmk
    exact Except.ok.inj (h.symm.trans (compileOp_text hmk))
  cases hname with
  | head => exact compileOp_rx (Option.some.inj (hop.symm.trans (by decide))) h
  | tail _ hname =>
      cases hname with
      | head =>
          obtain rfl := htext "contains" .contains (by decide) rfl
          exact ⟨by rintro _ ⟨⟩, fun x => Str.contains_iff.trans operatorHolds_contains.symm⟩
      | tail _ hname =>
          cases hname with
          | head =>
              obtain rfl := htext "starts_with" .startsWith (by decide) rfl
              exact ⟨by rintro _ ⟨⟩, fun x =>
                List.isPrefixOf_iff_prefix.trans operatorHolds_beginsWith.symm⟩
          | tail _ hname =>
              cases hname with
              | head =>
                  obtain rfl := htext "ends_with" .endsWith (by decide) rfl
                  exact ⟨by rintro _ ⟨⟩, fun x =>
                    List.isSuffixOf_iff_suffix.trans operatorHolds_endsWith.symm⟩
              | tail _ hname =>
                  obtain rfl := List.mem_singleton.mp hname
                  obtain rfl := htext "eq" .eq (by decide) rfl
                  exact ⟨by rintro _ ⟨⟩, fun x => beq_iff_eq.trans operatorHolds_streq.symm⟩

/-- One of the operators is mapped to the one of the table, if its argument has no macro. -/
theorem mapOperator_single {name arg : Str} (hname : name ∈ singleOperators)
    (harg : Str.contains ("%\x7b" : Str) arg = false) :
    ∃ op, argOperators.lookup name = some op ∧ (mapOperator X name arg).1 = .ok (op, some arg) := by
  obtain ⟨op, hop⟩ : ∃ op, argOperators.lookup name = some op := by
    have hall : ∀ n ∈ singleOperators, (argOperators.lookup n).isSome = true := by decide
    exact Option.isSome_iff_exists.mp (hall name hname)
  refine ⟨op, hop, ?_⟩
  unfold mapOperator
  rw [harg, hop]
  rfl

/-! ## The rules emitted for a rule -/

variable (X) in
/-- **The meaning of the rule emitted for a variable**, for the values read for it: some of them
satisfies the operator or, with `!`, none does. -/
def ParsedRule.HoldsOf (m : ParsedRule) (read : List Str) : Prop :=
  if m.negate then ∀ x ∈ read, ¬ m.Accepts X x else ∃ x ∈ read, m.Accepts X x

/-- What the compiled condition of a member on a collection tests. -/
theorem compiledCond_iff {m : ParsedRule} {c : Collection} {selector : Option Str} {op rule : Str}
    {defaultTz : Int} {cond : CompiledCond X} (hname : m.opName ∈ singleOperators)
    (hop : argOperators.lookup m.opName = some op)
    (h : compileCond X rule (emitCond m (op, some m.opArg) (c.target selector)).toDef defaultTz =
      .ok cond) (now : Now) (ctx : RequestCtx) (counters : CounterStore X) :
    cond.matchesRequest now ctx counters = true ↔ m.HoldsOf X (c.read X ctx selector) := by
  obtain ⟨hfield, hcondOp, hnegate, htransforms⟩ := compileCond_spec h
  obtain ⟨hcidr, htests⟩ := compileOp_testsAs hname hop hcondOp
  have heval : cond.evalCandidates (c.read X ctx selector) = true ↔
      ∃ x ∈ c.read X ctx selector, m.Accepts X x := by
    rw [CompiledCond.evalCandidates_transformed, List.any_eq_true, transforms_eq htransforms]
    simp only [htests]
    rfl
  have htest : cond.matchesRequest now ctx counters =
      (cond.evalCandidates (c.read X ctx selector) ^^ m.negate) := by
    unfold CompiledCond.matchesRequest CompiledCond.test
    rw [collectCandidates_eq rfl rfl hfield, hnegate]
    cases hcase : cond.op with
    | cidr net => exact absurd hcase (hcidr net)
    | _ => rfl
  unfold ParsedRule.HoldsOf
  rw [htest]
  cases m.negate with
  | false => rw [Bool.xor_false, heval, if_neg Bool.false_ne_true]
  | true =>
      rw [Bool.xor_true, Bool.not_eq_true', ← Bool.not_eq_true, heval, if_pos rfl]
      simp only [not_exists, not_and]

/-- An emitted rule that loads matches where a value of its collection passes the test or, with `!`,
none does. -/
theorem emittedRule_matches_iff {m : ParsedRule} {e : EmittedRule} {c : Collection}
    {selector : Option Str} {op : Str} {defaultTz : Int}
    (hwhen : e.when = [emitCond m (op, some m.opArg) (c.target selector)])
    (hname : m.opName ∈ singleOperators) (hop : argOperators.lookup m.opName = some op)
    (hloads : ∃ cell rule, compileRule X defaultTz cell e.toDef = .ok rule)
    (now : Now) (ctx : RequestCtx) (counters : CounterStore X) :
    e.Matches X defaultTz now ctx counters ↔ m.HoldsOf X (c.read X ctx selector) := by
  have hrule : ∀ {cell rule}, compileRule X defaultTz cell e.toDef = .ok rule →
      (rule.matchesRequest now ctx counters = true ↔ m.HoldsOf X (c.read X ctx selector)) := by
    intro cell rule hcompile
    obtain ⟨-, -, hconds⟩ := compileRule_spec hcompile
    have hdef : e.toDef.when = [(emitCond m (op, some m.opArg) (c.target selector)).toDef] :=
      congrArg (List.map EmittedCond.toDef) hwhen
    rw [hdef] at hconds
    obtain ⟨cond, hcond, hsingle⟩ := singleton_of_mapM hconds
    unfold CompiledRule.matchesRequest
    rw [hsingle, List.all_cons, List.all_nil, Bool.and_true]
    exact compiledCond_iff hname hop hcond now ctx counters
  constructor
  · rintro ⟨cell, rule, hcompile, hmatches⟩
    exact (hrule hcompile).mp hmatches
  · intro hholds
    obtain ⟨cell, rule, hcompile⟩ := hloads
    exact ⟨cell, rule, hcompile, (hrule hcompile).mpr hholds⟩

/-- Every rule of a file that loads is compiled. -/
theorem compiles_of_compileRules {defaultTz : Int} {generation position : Nat}
    {defs : List RuleDef} {compiled : List (CompiledRule X) × List (CompiledRule X)}
    (h : compileRules X defaultTz generation position defs = .ok compiled) :
    ∀ d ∈ defs, ∃ cell rule, compileRule X defaultTz cell d = .ok rule := by
  induction defs generalizing position compiled with
  | nil =>
      intro d hd
      cases hd
  | cons def_ defs ih =>
      unfold compileRules at h
      obtain ⟨rule, hrule, h⟩ := bind_ok_iff.mp h
      obtain ⟨rest, hrest, -⟩ := bind_ok_iff.mp h
      intro d hd
      rcases List.mem_cons.mp hd with rfl | hd
      · exact ⟨_, rule, hrule⟩
      · exact ih hrest d hd

/-- The rules of each report are in the joined one. -/
theorem mem_joinReports {reports : List ConvertReport} {report : ConvertReport} {e : EmittedRule}
    (hreport : report ∈ reports) (he : e ∈ report.rules) : e ∈ (joinReports reports).rules := by
  induction reports with
  | nil => cases hreport
  | cons first reports ih =>
      rcases List.mem_cons.mp hreport with rfl | hreport
      · exact List.mem_append_left _ he
      · exact List.mem_append_right _ (ih hreport)

/-- The targets of a rule on its own are those of its variables. -/
theorem Single.mapVar {m : ParsedRule} (hm : Single m) {v : RawVar} (hv : v ∈ m.vars) :
    ∃ c, Collection.ofVariable.lookup (Str.toAsciiUppercase v.name) = some c ∧
      Modsec.mapVar v = some (c.target v.selector) := by
  obtain ⟨c, hc⟩ := Option.isSome_iff_exists.mp (hm.supported v hv)
  exact ⟨c, hc, mapVar_eq (hm.plain v hv).2 (hm.selector v hv) hc⟩

/-- A rule on its own becomes one rule a variable. -/
theorem Single.report {r : SourceRule} {m : ParsedRule} (hm : Single m)
    (hparsed : r.parsed = .ok m) : ∃ op, argOperators.lookup m.opName = some op ∧
      (r.report X).rules.map EmittedRule.when =
        (targets m).map fun t => [emitCond m (op, some m.opArg) t] := by
  obtain ⟨op, hop, hmap⟩ := mapOperator_single (X := X) hm.operator hm.argument
  obtain ⟨v, hv⟩ := List.exists_mem_of_ne_nil _ hm.vars_ne
  obtain ⟨c, -, hc⟩ := hm.mapVar hv
  have htarget : targets m ≠ [] :=
    List.ne_nil_of_mem (mem_targets_iff.mpr ⟨v, hv, (hm.plain v hv).1, hc⟩)
  have hconvertible : Convertible X m [] := by
    refine ⟨hm.phase, ?_, fun hne => absurd rfl hne⟩
    intro m' hm'
    obtain rfl := List.mem_singleton.mp hm'
    exact ⟨⟨_, hmap⟩, htarget⟩
  obtain ⟨rules, hbuilt⟩ := hconvertible.buildRules
  obtain ⟨op', hop', -, hwhen⟩ := buildRules_single hbuilt
  obtain rfl := Except.ok.inj (hmap.symm.trans hop')
  have hreport : (r.report X).rules = rules := by
    unfold SourceRule.report SourceRule.chained
    rw [hparsed]
    dsimp only
    rw [hm.chain, if_neg Bool.false_ne_true]
    unfold blockReport
    cases hresult : buildRules X m [] with
    | mk result warnings =>
        rw [hresult] at hbuilt
        obtain rfl : result = .ok rules := hbuilt
        rfl
  refine ⟨op, hop, ?_⟩
  rw [hreport, hwhen]

/-- **What the rules emitted for a rule match**: with `!`, no value of some variable satisfies the
operator. -/
theorem emitted_matches_iff {input : Str} {r : SourceRule} (hr : r ∈ sourceRules input)
    {m : ParsedRule} (hparsed : r.parsed = .ok m) (hm : Single m) {scoring : ScoringConfig}
    {defaultTz : Int} {generation : Nat} {rs : RuleSet X}
    (hload : compileWithTz X ((convert X input).rules.map EmittedRule.toDef) scoring defaultTz
      generation = .ok rs) (now : Now) (ctx : RequestCtx) (counters : CounterStore X) :
    (∃ e ∈ (r.report X).rules, e.Matches X defaultTz now ctx counters) ↔
      ∃ v ∈ m.vars, m.HoldsOf X (readValues X ctx v) := by
  obtain ⟨op, hop, hwhen⟩ := hm.report (X := X) hparsed
  obtain ⟨compiled, hcompiled, -⟩ := bind_ok_iff.mp hload
  have hloads : ∀ e ∈ (r.report X).rules, ∃ cell rule,
      compileRule X defaultTz cell e.toDef = .ok rule := by
    intro e he
    refine compiles_of_compileRules hcompiled _ (List.mem_map_of_mem ?_)
    rw [convert_eq]
    exact mem_joinReports (List.mem_map_of_mem hr) he
  have hvariable : ∀ {v : RawVar} {c : Collection} {e : EmittedRule},
      Collection.ofVariable.lookup (Str.toAsciiUppercase v.name) = some c →
      e ∈ (r.report X).rules → e.when = [emitCond m (op, some m.opArg) (c.target v.selector)] →
        (e.Matches X defaultTz now ctx counters ↔ m.HoldsOf X (readValues X ctx v)) := by
    intro v c e hc he hewhen
    have hread : readValues X ctx v = c.read X ctx v.selector := by
      unfold readValues
      rw [hc]
      rfl
    rw [hread]
    exact emittedRule_matches_iff hewhen hm.operator hop (hloads e he) now ctx counters
  constructor
  · rintro ⟨e, he, hmatches⟩
    have hmem := List.mem_map_of_mem (f := EmittedRule.when) he
    rw [hwhen] at hmem
    obtain ⟨target, htarget, hewhen⟩ := List.mem_map.mp hmem
    obtain ⟨v, hv, -, hmap⟩ := mem_targets_iff.mp htarget
    obtain ⟨c, hc, hmap'⟩ := hm.mapVar hv
    obtain rfl := Option.some.inj (hmap.symm.trans hmap')
    exact ⟨v, hv, (hvariable hc he hewhen.symm).mp hmatches⟩
  · rintro ⟨v, hv, hholds⟩
    obtain ⟨c, hc, hmap⟩ := hm.mapVar hv
    have htarget := mem_targets_iff.mpr ⟨v, hv, (hm.plain v hv).1, hmap⟩
    have hmem := List.mem_map_of_mem (f := fun t => [emitCond m (op, some m.opArg) t]) htarget
    rw [← hwhen] at hmem
    obtain ⟨e, he, hewhen⟩ := List.mem_map.mp hmem
    exact ⟨e, he, (hvariable hc he hewhen).mpr hholds⟩

/-! ## Rules of a text -/

namespace SecRule

/-- A rule that the import is to keep: supported variables without exclusions, counts and patterns
as selectors, one of the operators above with an argument without a macro, and supported
transformations. -/
structure Supported (s : SecRule) : Prop where
  /-- The operator. -/
  operator : s.operator ∈ singleOperators
  /-- No macro in its argument. -/
  argument : ¬ ("%\x7b" : Str) <:+: s.argument
  /-- There is a variable. -/
  vars_ne : s.vars ≠ []
  /-- Neither exclusions nor counts. -/
  plain : ∀ v ∈ s.vars, v.exclude = false ∧ v.count = false
  /-- Supported variables. -/
  known : ∀ v ∈ s.vars,
    (Collection.ofVariable.lookup (Str.toAsciiUppercase v.name)).isSome = true
  /-- No patterns as selectors. -/
  selector : ∀ v ∈ s.vars, ∀ name, v.selector = some name → ¬ ['/'] <+: name
  /-- Supported transformations. -/
  transformations : ∀ t ∈ s.effective, (translations.lookup t).isSome = true

/-- A rule on its own in a text: written there, supported, without `chain`, and for a phase of the
request. -/
structure StandsIn (s : SecRule) (input : Str) (t : RuleText) : Prop where
  /-- It is one of the rules of the text. -/
  text : t ∈ ruleTexts input
  /-- It is written so. -/
  written : s.WrittenAs t.arg
  /-- It is supported. -/
  supported : s.Supported
  /-- It has no `chain`, and its phase is one of the request. -/
  single : ∃ m, parseSecrule t.arg = .ok m ∧ m.chain = false ∧ m.phase < 3

end SecRule

variable (X) in
/-- Some rule emitted for a rule of a text matches a request. -/
def RuleText.EmittedMatches (t : RuleText) (defaultTz : Int) (now : Now) (ctx : RequestCtx)
    (counters : CounterStore X) : Prop :=
  ∃ e ∈ (t.source.report X).rules, e.Matches X defaultTz now ctx counters

/-- A rule that is supported as it is written is supported as it is read. -/
theorem SecRule.Supported.single {s : SecRule} (hs : s.Supported) {arg : Str}
    (hwritten : s.WrittenAs arg) {m : ParsedRule} (hparsed : parseSecrule arg = .ok m)
    (hchain : m.chain = false) (hphase : m.phase < 3) : Single m := by
  obtain ⟨hvars, hoperator, hargument, -⟩ := hwritten.read hparsed
  have hmacro : Str.contains ("%\x7b" : Str) m.opArg = false := by
    rw [← Bool.not_eq_true, Str.contains_iff, hargument]
    intro hoccurs
    have htrim : Str.trim s.argument <:+: s.argument :=
      (List.rdropWhile_prefix _ _).isInfix.trans (List.dropWhile_suffix _).isInfix
    exact hs.argument (hoccurs.trans htrim)
  refine ⟨hchain, hphase, ?_, hmacro, ?_, ?_, ?_, ?_⟩
  · rw [hoperator]
    exact hs.operator
  · rw [hvars]
    exact hs.vars_ne
  · rw [hvars]
    exact hs.plain
  · rw [hvars]
    exact hs.known
  · rw [hvars]
    exact hs.selector

/-- What is read of a rule tests a value as `SecRule.Accepted` says. -/
theorem SecRule.WrittenAs.accepts_iff {s : SecRule} {arg : Str} (hwritten : s.WrittenAs arg)
    {m : ParsedRule} (hparsed : parseSecrule arg = .ok m) (x : Str) :
    m.Accepts X x ↔ s.Accepted X x := by
  obtain ⟨-, hoperator, hargument, -⟩ := hwritten.read hparsed
  unfold ParsedRule.Accepts SecRule.Accepted
  rw [hoperator, hargument, hwritten.transforms hparsed]

variable (X) in
/-- **What the rules emitted for a rule match**: with `!`, a request where nothing read for some
variable is accepted. -/
theorem SecRule.StandsIn.emitted_iff {s : SecRule} {input : Str} {t : RuleText}
    (hs : s.StandsIn input t) {scoring : ScoringConfig} {defaultTz : Int} {generation : Nat}
    {rs : RuleSet X} (hload : compileWithTz X ((convert X input).rules.map EmittedRule.toDef)
      scoring defaultTz generation = .ok rs) (now : Now) (ctx : RequestCtx)
    (counters : CounterStore X) :
    t.EmittedMatches X defaultTz now ctx counters ↔ ∃ v ∈ s.vars,
      if s.negated then ∀ x ∈ readValues X ctx v, ¬ s.Accepted X x
      else ∃ x ∈ readValues X ctx v, s.Accepted X x := by
  obtain ⟨m, hparsed, hchain, hphase⟩ := hs.single
  have hsource : t.source ∈ sourceRules input := by
    rw [sourceRules_eq]
    exact List.mem_map_of_mem hs.text
  have hm := hs.supported.single hs.written hparsed hchain hphase
  obtain ⟨hvars, -, -, hnegate⟩ := hs.written.read hparsed
  unfold RuleText.EmittedMatches
  rw [emitted_matches_iff hsource hparsed hm hload, hvars]
  unfold ParsedRule.HoldsOf
  simp only [hnegate, hs.written.accepts_iff hparsed]

/-! ## Where the meanings agree -/

namespace SecRule

section kinds

variable (X) (s : SecRule) (E : ModSecurity) (ctx : RequestCtx)

/-- A value that is read satisfies the operator there, and is accepted here. -/
def Shared : Prop :=
  ∃ v ∈ s.vars, ∃ x ∈ E.values v, s.Satisfied E x ∧ x ∈ readValues X ctx v ∧ s.Accepted X x

/-- A value that satisfies the operator is not read, or is mistranslated and not accepted. -/
def Lost : Prop :=
  ∃ v ∈ s.vars, ∃ x ∈ E.values v, s.Satisfied E x ∧ ¬ (x ∈ readValues X ctx v ∧ s.Accepted X x)

/-- Something is accepted that is no value of the variable, or is mistranslated and does not satisfy
the operator. -/
def Foreign : Prop :=
  ∃ v ∈ s.vars, ∃ x ∈ readValues X ctx v, s.Accepted X x ∧ ¬ (x ∈ E.values v ∧ s.Satisfied E x)

/-- With `!`: a value of the variable does not satisfy the operator, and nothing read is
accepted. -/
def Clear (v : RawVar) : Prop :=
  (∃ x ∈ E.values v, ¬ s.Satisfied E x) ∧ ∀ x ∈ readValues X ctx v, ¬ s.Accepted X x

/-- With `!`: a value of the variable does not satisfy the operator, but something read is
accepted, which hides it. -/
def Hidden (v : RawVar) : Prop :=
  (∃ x ∈ E.values v, ¬ s.Satisfied E x) ∧ ∃ x ∈ readValues X ctx v, s.Accepted X x

/-- With `!`: every value of the variable satisfies the operator, if there is one at all, but
nothing read is accepted. -/
def Void (v : RawVar) : Prop :=
  (∀ x ∈ E.values v, s.Satisfied E x) ∧ ∀ x ∈ readValues X ctx v, ¬ s.Accepted X x

/-- **The values on which the meaning is kept.** Without `!`: a value is shared, or one is lost
exactly if another is foreign. With `!`: a variable is clear, or one is hidden exactly if another is
void. -/
def Preserved : Prop :=
  if s.negated then
    (∃ v ∈ s.vars, s.Clear X E ctx v) ∨
      ((∃ v ∈ s.vars, s.Hidden X E ctx v) ↔ ∃ v ∈ s.vars, s.Void X E ctx v)
  else s.Shared X E ctx ∨ (s.Lost X E ctx ↔ s.Foreign X E ctx)

/-- **Requests that are read whole, and rules that are not mistranslated on them.** -/
structure Faithful : Prop where
  /-- Just the values of the variables are read. -/
  read : ∀ v ∈ s.vars, ∀ x, x ∈ E.values v ↔ x ∈ readValues X ctx v
  /-- On these the transformations do what they become do. -/
  kept : ∀ v ∈ s.vars, ∀ x ∈ E.values v, KeptOn E s.effective x
  /-- No white space ends the argument. -/
  argument : Str.trim s.argument = s.argument
  /-- A pattern finds in the values, transformed, what it finds there for the `regex` crate. -/
  pattern : s.operator = ("rx" : Str) → ∀ v ∈ s.vars, ∀ x ∈ E.values v,
    (E.finds s.argument (E.transformed s.effective x) ↔
      CrateFinds X s.argument (E.transformed s.effective x))

/-- **The values on which `!` is kept**, on a request that is read whole: some variable has values
and none of them satisfies the operator, or there is a variable with both a value that does and one
that does not exactly if there is one without any value. -/
def NegationKept : Prop :=
  (∃ v ∈ s.vars, E.values v ≠ [] ∧ ∀ x ∈ E.values v, ¬ s.Satisfied E x) ∨
    ((∃ v ∈ s.vars, (∃ x ∈ E.values v, s.Satisfied E x) ∧ ∃ x ∈ E.values v, ¬ s.Satisfied E x) ↔
      ∃ v ∈ s.vars, E.values v = [])

end kinds

variable {s : SecRule} {E : ModSecurity} {ctx : RequestCtx}

/-- Something has one property exactly where something has the other: something has both, or what
has only one of them is matched by what has only the other. -/
theorem exists_iff_exists_iff {α : Type} (P Q : α → Prop) :
    ((∃ a, Q a) ↔ ∃ a, P a) ↔
      (∃ a, P a ∧ Q a) ∨ ((∃ a, P a ∧ ¬ Q a) ↔ ∃ a, Q a ∧ ¬ P a) := by
  have hsplit : ∀ P Q : α → Prop, (∃ a, P a) ↔ (∃ a, P a ∧ Q a) ∨ ∃ a, P a ∧ ¬ Q a := by
    intro P Q
    rw [← exists_or]
    exact exists_congr fun a => by tauto
  rw [hsplit P Q, hsplit Q P]
  have hcomm : (∃ a, Q a ∧ P a) ↔ ∃ a, P a ∧ Q a := exists_congr fun a => and_comm
  rw [hcomm]
  by_cases hboth : ∃ a, P a ∧ Q a
  · exact iff_of_true (iff_of_true (.inl hboth) (.inl hboth)) (.inl hboth)
  · rw [or_iff_right hboth, or_iff_right hboth, or_iff_right hboth]
    exact Iff.comm

/-- Without `!`, the meanings agree where a value is shared, or lost exactly if one is foreign: the
values are taken with their variables. -/
theorem preserved_plain (h : s.negated = false) :
    ((∃ v ∈ s.vars, ∃ x ∈ readValues X ctx v, s.Accepted X x) ↔
      ∃ v ∈ s.vars, ∃ x ∈ E.values v, s.Satisfied E x) ↔ s.Preserved X E ctx := by
  let There : RawVar × Str → Prop :=
    fun p => p.1 ∈ s.vars ∧ p.2 ∈ E.values p.1 ∧ s.Satisfied E p.2
  let Here : RawVar × Str → Prop :=
    fun p => p.1 ∈ s.vars ∧ p.2 ∈ readValues X ctx p.1 ∧ s.Accepted X p.2
  have hthere : (∃ p, There p) ↔ ∃ v ∈ s.vars, ∃ x ∈ E.values v, s.Satisfied E x :=
    ⟨fun ⟨p, hv, hx, hsat⟩ => ⟨p.1, hv, p.2, hx, hsat⟩,
      fun ⟨v, hv, x, hx, hsat⟩ => ⟨(v, x), hv, hx, hsat⟩⟩
  have hhere : (∃ p, Here p) ↔ ∃ v ∈ s.vars, ∃ x ∈ readValues X ctx v, s.Accepted X x :=
    ⟨fun ⟨p, hv, hx, hacc⟩ => ⟨p.1, hv, p.2, hx, hacc⟩,
      fun ⟨v, hv, x, hx, hacc⟩ => ⟨(v, x), hv, hx, hacc⟩⟩
  have hshared : (∃ p, There p ∧ Here p) ↔ s.Shared X E ctx :=
    ⟨fun ⟨p, ⟨hv, hx, hsat⟩, _, hread, hacc⟩ => ⟨p.1, hv, p.2, hx, hsat, hread, hacc⟩,
      fun ⟨v, hv, x, hx, hsat, hread, hacc⟩ => ⟨(v, x), ⟨hv, hx, hsat⟩, hv, hread, hacc⟩⟩
  have hlost : (∃ p, There p ∧ ¬ Here p) ↔ s.Lost X E ctx :=
    ⟨fun ⟨p, ⟨hv, hx, hsat⟩, hnot⟩ => ⟨p.1, hv, p.2, hx, hsat, fun h => hnot ⟨hv, h⟩⟩,
      fun ⟨v, hv, x, hx, hsat, hnot⟩ => ⟨(v, x), ⟨hv, hx, hsat⟩, fun h => hnot h.2⟩⟩
  have hforeign : (∃ p, Here p ∧ ¬ There p) ↔ s.Foreign X E ctx :=
    ⟨fun ⟨p, ⟨hv, hx, hacc⟩, hnot⟩ => ⟨p.1, hv, p.2, hx, hacc, fun h => hnot ⟨hv, h⟩⟩,
      fun ⟨v, hv, x, hx, hacc, hnot⟩ => ⟨(v, x), ⟨hv, hx, hacc⟩, fun h => hnot h.2⟩⟩
  unfold Preserved
  rw [h, if_neg Bool.false_ne_true, ← hhere, ← hthere, exists_iff_exists_iff, hshared, hlost,
    hforeign]

/-- With `!`, they agree where a variable is clear, or one is hidden exactly if another is void. -/
theorem preserved_negated (h : s.negated = true) :
    ((∃ v ∈ s.vars, ∀ x ∈ readValues X ctx v, ¬ s.Accepted X x) ↔
      ∃ v ∈ s.vars, ∃ x ∈ E.values v, ¬ s.Satisfied E x) ↔ s.Preserved X E ctx := by
  have hvars := exists_iff_exists_iff
    (fun v => v ∈ s.vars ∧ ∃ x ∈ E.values v, ¬ s.Satisfied E x)
    (fun v => v ∈ s.vars ∧ ∀ x ∈ readValues X ctx v, ¬ s.Accepted X x)
  have hhidden : ∀ v, ((v ∈ s.vars ∧ ∃ x ∈ E.values v, ¬ s.Satisfied E x) ∧
      ¬ (v ∈ s.vars ∧ ∀ x ∈ readValues X ctx v, ¬ s.Accepted X x)) ↔
      v ∈ s.vars ∧ s.Hidden X E ctx v := by
    intro v
    constructor
    · rintro ⟨⟨hv, hfails⟩, hnot⟩
      refine ⟨hv, hfails, ?_⟩
      by_contra hnone
      exact hnot ⟨hv, fun x hx hacc => hnone ⟨x, hx, hacc⟩⟩
    · rintro ⟨hv, hfails, x, hx, hacc⟩
      exact ⟨⟨hv, hfails⟩, fun h => h.2 x hx hacc⟩
  have hvoid : ∀ v, ((v ∈ s.vars ∧ ∀ x ∈ readValues X ctx v, ¬ s.Accepted X x) ∧
      ¬ (v ∈ s.vars ∧ ∃ x ∈ E.values v, ¬ s.Satisfied E x)) ↔
      v ∈ s.vars ∧ s.Void X E ctx v := by
    intro v
    constructor
    · rintro ⟨⟨hv, hnothing⟩, hnot⟩
      refine ⟨hv, fun x hx => ?_, hnothing⟩
      by_contra hsat
      exact hnot ⟨hv, x, hx, hsat⟩
    · rintro ⟨hv, hall, hnothing⟩
      exact ⟨⟨hv, hnothing⟩, fun ⟨_, x, hx, hnot⟩ => hnot (hall x hx)⟩
  have hclear : ∀ v, ((v ∈ s.vars ∧ ∃ x ∈ E.values v, ¬ s.Satisfied E x) ∧
      (v ∈ s.vars ∧ ∀ x ∈ readValues X ctx v, ¬ s.Accepted X x)) ↔
      v ∈ s.vars ∧ s.Clear X E ctx v := by
    intro v
    exact (and_and_left (a := v ∈ s.vars)).symm
  unfold Preserved
  rw [h, if_pos rfl, hvars]
  simp only [hhidden, hvoid, hclear]

/-- On a faithful request, a value is accepted exactly where it satisfies the operator. -/
theorem Faithful.accepted_iff (hE : E.Documented) (hs : s.Supported)
    (hfaithful : s.Faithful X E ctx) {v : RawVar} (hv : v ∈ s.vars) {x : Str}
    (hx : x ∈ E.values v) : s.Accepted X x ↔ s.Satisfied E x :=
  accepted_iff_satisfied hE hs.transformations hfaithful.argument (hfaithful.kept v hv x hx)
    fun hrx => hfaithful.pattern hrx v hv x hx

/-- **On faithful requests** only `!` makes a difference. -/
theorem Faithful.preserved_iff (hE : E.Documented) (hs : s.Supported)
    (hfaithful : s.Faithful X E ctx) :
    s.Preserved X E ctx ↔ (s.negated = true → s.NegationKept E) := by
  have haccepted : ∀ v ∈ s.vars, ∀ x ∈ E.values v, (s.Accepted X x ↔ s.Satisfied E x) :=
    fun v hv x hx => hfaithful.accepted_iff hE hs hv hx
  unfold Preserved
  cases hnegated : s.negated with
  | false =>
      -- No value is lost, and none is foreign.
      rw [if_neg Bool.false_ne_true]
      refine iff_of_true (.inr (iff_of_false ?_ ?_)) (by rintro ⟨⟩)
      · rintro ⟨v, hv, x, hx, hsat, hnot⟩
        exact hnot ⟨(hfaithful.read v hv x).mp hx, (haccepted v hv x hx).mpr hsat⟩
      · rintro ⟨v, hv, x, hread, hacc, hnot⟩
        have hx := (hfaithful.read v hv x).mpr hread
        exact hnot ⟨hx, (haccepted v hv x hx).mp hacc⟩
  | true =>
      rw [if_pos rfl, forall_prop_of_true rfl]
      have hsome : ∀ v ∈ s.vars, (∃ x ∈ readValues X ctx v, s.Accepted X x) ↔
          ∃ x ∈ E.values v, s.Satisfied E x := by
        intro v hv
        refine exists_congr fun x => ?_
        rw [← hfaithful.read v hv x]
        exact and_congr_right fun hx => haccepted v hv x hx
      have hnothing : ∀ v ∈ s.vars, (∀ x ∈ readValues X ctx v, ¬ s.Accepted X x) ↔
          ∀ x ∈ E.values v, ¬ s.Satisfied E x := by
        intro v hv
        have hnot := not_congr (hsome v hv)
        simpa only [not_exists, not_and] using hnot
      have hclear : (∃ v ∈ s.vars, s.Clear X E ctx v) ↔
          ∃ v ∈ s.vars, E.values v ≠ [] ∧ ∀ x ∈ E.values v, ¬ s.Satisfied E x := by
        refine exists_congr fun v => and_congr_right fun hv => ?_
        unfold Clear
        rw [hnothing v hv]
        refine and_congr_left fun hall => ⟨fun ⟨x, hx, _⟩ => List.ne_nil_of_mem hx, fun hne => ?_⟩
        obtain ⟨x, hx⟩ := List.exists_mem_of_ne_nil _ hne
        exact ⟨x, hx, hall x hx⟩
      have hhidden : (∃ v ∈ s.vars, s.Hidden X E ctx v) ↔
          ∃ v ∈ s.vars, (∃ x ∈ E.values v, s.Satisfied E x) ∧
            ∃ x ∈ E.values v, ¬ s.Satisfied E x := by
        refine exists_congr fun v => and_congr_right fun hv => ?_
        unfold Hidden
        rw [hsome v hv]
        exact and_comm
      have hvoid : (∃ v ∈ s.vars, s.Void X E ctx v) ↔ ∃ v ∈ s.vars, E.values v = [] := by
        refine exists_congr fun v => and_congr_right fun hv => ?_
        unfold Void
        rw [hnothing v hv, List.eq_nil_iff_forall_not_mem]
        exact ⟨fun h x hx => h.2 x hx (h.1 x hx),
          fun h => ⟨fun x hx => absurd hx (h x), fun x hx => absurd hx (h x)⟩⟩
      unfold NegationKept
      rw [hclear, hhidden, hvoid]

end SecRule

/-- The transformations as the manual describes them, by their names. -/
def documentedTransformations : List (Str × (Str → Str)) :=
  [("lowercase", Str.toAsciiLowercase), ("uppercase", Str.toAsciiUppercase),
    ("removeNulls", fun x => x.filter fun c => c ≠ Char.ofNat 0),
    ("trimLeft", fun x => x.dropWhile Str.isWhitespace),
    ("trimRight", fun x => x.rdropWhile Str.isWhitespace),
    ("trim", fun x => (x.dropWhile Str.isWhitespace).rdropWhile Str.isWhitespace),
    ("compressWhitespace", compressRuns false),
    ("urlDecode", fun x => Parser.decodeInto (Str.utf8 x) true),
    ("urlDecodeUni", fun x => Parser.decodeInto (Str.utf8 x) true)]

/-- An engine with these transformations and the patterns of the `regex` crate. -/
def documentedEngine (X : Crates) (values : RawVar → List Str) : ModSecurity where
  values := values
  transformation name := (documentedTransformations.lookup name).getD id
  finds := CrateFinds X

/-- The engine with the transformations of the manual is as documented, whatever the values are. -/
theorem documentedEngine_documented (values : RawVar → List Str) :
    (documentedEngine X values).Documented where
  lowercase _ _ := rfl
  uppercase _ _ := rfl
  removeNulls _ _ := rfl
  trimLeft _ _ := rfl
  trimRight _ _ := rfl
  trim _ _ := rfl
  compressWhitespace _ _ := rfl
  urlDecode _ _ _ hdecodes hb := decodeInto_of_decodes hdecodes hb
  urlDecodeUni _ _ _ _ := rfl

/-- A rule file whose rule asks that every argument is `1`: it matches if one is not. -/
def onlyOnes : Str := "SecRule ARGS \"!@streq 1\" \"id:1,deny\""

/-- What follows the `SecRule` of this rule. -/
def onlyOnesText : RuleText := ⟨"ARGS \"!@streq 1\" \"id:1,deny\"", []⟩

/-- The rule that is written there. -/
def onlyOnesRule : SecRule := ⟨[⟨"ARGS", none, false, false⟩], true, "streq", "1", []⟩

/-- The operator word of the example writes `streq`, `1` and the sign. -/
theorem onlyOnes_writesOperator : onlyOnesRule.WritesOperator "!@streq 1" := by
  refine ⟨[], [], [' '], by decide, ?_, ?_, ?_, ?_⟩
  · simp [Str.isWhitespace]
  · simpa using (by decide : onlyOnesRule.operator.all (fun c => !Str.isWhitespace c) = true)
  · exact fun c hc => Option.some.inj hc ▸ rfl
  · rintro ⟨⟩

/-- The rule of the example is supported. -/
theorem onlyOnes_supported : onlyOnesRule.Supported where
  operator := by decide
  argument := by decide
  vars_ne := by decide
  plain := by decide
  known := by decide
  selector := by
    intro v hv name hname
    obtain rfl := List.mem_singleton.mp hv
    cases hname
  transformations := by decide

/-- The rule of the example stands on its own in its text. -/
theorem onlyOnes_standsIn : onlyOnesRule.StandsIn onlyOnes onlyOnesText where
  text := by
    have htexts : ruleTexts onlyOnes = [onlyOnesText] := by decide +kernel
    rw [htexts]
    exact List.mem_singleton_self _
  written := by
    have htokens : tokenize onlyOnesText.arg = ["ARGS", "!@streq 1", "id:1,deny"] := by
      decide +kernel
    have htransforms : onlyOnesRule.transforms =
        (transformsIn (splitActions "id:1,deny")).map Str.trim := by
      decide +kernel
    exact ⟨_, _, _, htokens, by decide +kernel, onlyOnes_writesOperator, htransforms⟩
  supported := onlyOnes_supported
  single := by
    refine ⟨_, ok_of_toOption_get _ (by decide +kernel), ?_, ?_⟩
    · decide +kernel
    · decide +kernel

/-- A plain build, without optional features. -/
abbrev importBuild : Crates := .plain .none .none

/-- The file that is emitted for it loads. -/
theorem onlyOnes_loads : ∃ rs, compileWithTz importBuild
    ((convert importBuild onlyOnes).rules.map EmittedRule.toDef) .default 0 0 = .ok rs :=
  ⟨_, ok_of_toOption_get _ (by decide +kernel)⟩

/-- A value satisfies its operator, the sign aside, iff it is `1`. -/
theorem onlyOnes_satisfied {E : ModSecurity} {x : Str} :
    onlyOnesRule.Satisfied E x ↔ x = ['1'] := by
  unfold SecRule.Satisfied OperatorHolds
  rfl

/-- A request for `/` with a query. -/
def queryRequest (query : Str) : RequestCtx :=
  ⟨"GET", "/", some query, .empty, ⟨.v4 0#32, none⟩, .notBuffered, .default⟩

end BuduWaf.Rules.Modsec
