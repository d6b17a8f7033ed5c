import BuduWaf.Common

/-!
# `budu-rules`, `budu-signatures`: what the rule and signature files say

The TOML model of `rules.toml` and `signatures.toml`, before anything is compiled. Defaults of
omitted keys are the `serde` attributes' and are filled in by deserialization.

The keys that only one action looks at (`rps`, `burst`, `ttl_secs`, `counter`, `incr`, `score`)
stand in every rule definition, as they do in the source, and are read by the compiler where the
action asks for them. A key that is left out has its default, so that a definition says what the
compiler gets to see.
-/

namespace BuduWaf

namespace Rules

/-- When a rule runs.
Source: `budu-rules/src/ruleset.rs` `PhaseKind` -/
inductive PhaseKind where
  | request
  | response
deriving DecidableEq

/-- What a rule does.
Source: `budu-rules/src/ruleset.rs` `ActionKind` -/
inductive ActionKind where
  | block
  | allow
  | log
  | rateLimit
  | score
  | incr
deriving DecidableEq

/-- One `when` condition.
Source: `budu-rules/src/ruleset.rs` `CondDef` -/
structure CondDef where
  /-- The field. -/
  field : Str
  /-- Header, parameter, cookie or counter name. -/
  name : Str := []
  /-- The operator. -/
  op : Str
  /-- The operator's argument. -/
  value : Str := []
  /-- Value list of `op = "in"`. -/
  values : List Str := []
  /-- Whether the result is inverted. -/
  negate : Bool := false
  /-- Transforms applied to the field value, in order. -/
  transform : List Str := []
  /-- Timezone offset of `time_between` and `day_of_week`. -/
  tz : Str := []
deriving DecidableEq

/-- One `[[rule]]`.
Source: `budu-rules/src/ruleset.rs` `RuleDef`, `default_status`, `default_rl_ttl`,
`default_incr` -/
structure RuleDef where
  /-- The rule's label. -/
  id : Str
  /-- The phase. -/
  phase : PhaseKind := .request
  /-- The action. -/
  action : ActionKind := .block
  /-- Status of a `block`. -/
  status : UInt16 := 403
  /-- Reason of a `block`. -/
  msg : Str := []
  /-- Rate of a `rate_limit`. -/
  rps : UInt32 := 0
  /-- Burst of a `rate_limit`. -/
  burst : UInt32 := 0
  /-- Idle time of a `rate_limit`, window of an `incr`. -/
  ttlSecs : UInt64 := 300
  /-- Points of a `score`. -/
  score : UInt32 := 0
  /-- Counter of an `incr`. -/
  counter : Str := []
  /-- Amount of an `incr`. -/
  incr : UInt64 := 1
  /-- The conditions. -/
  when : List CondDef := []
deriving DecidableEq

end Rules

namespace Signatures

/-- One `[[signature]]`: `literal` takes precedence over `regex`.
Source: `budu-signatures/src/db.rs` `Signature`, `default_status` -/
structure Signature where
  /-- The signature's label. -/
  id : Str
  /-- A fixed string. -/
  literal : Option Str := none
  /-- A regular expression. -/
  regex : Option Str := none
  /-- Status of the block. -/
  status : UInt16 := 403
  /-- Reason of the block. -/
  reason : Str := []
deriving DecidableEq

end Signatures

end BuduWaf
