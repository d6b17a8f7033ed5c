import BuduWaf.Crates
import BuduWaf.Parser

/-!
# `budu-signatures`: the two-tier matcher

* **The built-in set** and the compilation of a signature list into a `SignatureDb`. The code
  keeps each pattern vector aligned with its metadata vector; here the pairs are collected
  together, and the compiled database carries the fact that a reported index has metadata.
* **`scan`**: literals first, then the regular expressions.
* **`inspect`**: what `SignatureStage` does with the database its handle holds.

Signature files are TOML, which the `toml` crate reads; what is modelled is the list of signatures
that comes out of it. A signature with both a literal and a regular expression is compiled as a
literal and its expression is not looked at, and one with neither is refused.
-/

namespace BuduWaf.Signatures

variable (X : Crates)

/-! ## Definitions -/

/-- A literal built-in signature.
Source: `budu-signatures/src/builtin.rs` `lit` -/
def lit (id literal reason : Str) : Signature :=
  { id := id, literal := some literal, reason := reason }

/-- A built-in signature given by a regular expression.
Source: `budu-signatures/src/builtin.rs` `re` -/
def re (id regex reason : Str) : Signature :=
  { id := id, regex := some regex, reason := reason }

/-- The built-in baseline.
Source: `budu-signatures/src/builtin.rs` `signatures` -/
def signatures : List Signature :=
  [ -- SQL injection
    lit "sqli.union_select" "union select" "SQL injection: UNION SELECT",
    lit "sqli.sleep" "sleep(" "SQL injection: time-based (sleep)",
    lit "sqli.benchmark" "benchmark(" "SQL injection: time-based (benchmark)",
    lit "sqli.information_schema" "information_schema" "SQL injection: schema probe",
    re "sqli.or_boolean" "(?:'|\"| )or +[0-9]+ *= *[0-9]+" "SQL injection: boolean tautology",
    re "sqli.union_select_ws" "union +select" "SQL injection: UNION SELECT (spaced)",
    re "sqli.comment_tail" "(?:--|#|/\\*) *$" "SQL injection: trailing comment",
    -- cross-site scripting
    lit "xss.script_open" "<script" "XSS: <script> tag",
    lit "xss.js_proto" "javascript:" "XSS: javascript: URI",
    lit "xss.svg_onload" "<svg" "XSS: <svg> vector",
    lit "xss.img_onerror" "onerror=" "XSS: onerror handler",
    re "xss.event_handler" " on(?:load|click|mouseover|focus|error) *="
      "XSS: inline event handler",
    -- path traversal
    lit "lfi.dotdot" "../" "Path traversal: ../",
    lit "lfi.dotdot_back" "..\\" "Path traversal: ..\\",
    lit "lfi.etc_passwd" "/etc/passwd" "LFI: /etc/passwd",
    lit "lfi.win_ini" "boot.ini" "LFI: boot.ini",
    -- command injection
    re "rce.shell_meta" "(?:;|\\|\\||&&|`|\\$\\() *(?:cat|ls|id|whoami|curl|wget|nc|bash|sh)"
      "Command injection: shell metacharacter + command" ]

/-- Why a signature list is refused.
Source: `budu-signatures/src/db.rs` `SignatureError` -/
inductive SignatureError where
  | read (msg : Str)
  | parse (msg : Str)
  | compile (msg : Str)
  | empty
deriving DecidableEq

/-- What is kept of a signature next to its pattern, and what a hit reports.
Source: `budu-signatures/src/db.rs` `Meta`, `Hit` -/
structure Hit where
  /-- The signature's label. -/
  ruleId : Str
  /-- The status to answer with. -/
  status : StatusCode
  /-- The reason to answer with. -/
  reason : Str
deriving DecidableEq

/-- The compiled matcher.
Source: `budu-signatures/src/db.rs` `SignatureDb` -/
structure SignatureDb where
  /-- The automaton of the literals. -/
  literals : X.AhoCorasick
  /-- What a literal hit reports, by pattern index. -/
  literalMeta : List Hit
  /-- The regular expressions. -/
  regexes : X.RegexSet
  /-- What a hit of a regular expression reports, by pattern index. -/
  regexMeta : List Hit
  /-- The number of signatures. -/
  count : Nat
  /-- Every literal the automaton reports has metadata. -/
  literal_lt : ∀ {hay : Str} {i : Nat}, X.ahoFind literals hay = some i → i < literalMeta.length
  /-- Every regular expression the set reports has metadata. -/
  regex_lt : ∀ {hay : Str} {i : Nat}, i ∈ X.setMatches regexes hay → i < regexMeta.length

/-! ## Compilation -/

/-- The patterns of a signature list with their metadata, literals and regular expressions apart.
Source: `budu-signatures/src/db.rs` `SignatureDb::compile` (the loop) -/
def collect : List Signature → Except SignatureError (List (Str × Hit) × List (Str × Hit))
  | [] => .ok ([], [])
  | s :: rest => do
    let status ← match StatusCode.fromU16 s.status with
      | some status => pure status
      | none => throw (.compile (s.id ++ (": bad status " : Str) ++ Str.ofNat s.status.toNat))
    let hit : Hit := ⟨s.id, status, if s.reason.isEmpty then s.id else s.reason⟩
    match s.literal, s.regex with
    | some l, _ =>
      let (ls, rs) ← collect rest
      return ((Str.toAsciiLowercase l, hit) :: ls, rs)
    | none, some r =>
      let (ls, rs) ← collect rest
      return (ls, (r, hit) :: rs)
    | none, none => throw (.compile (s.id ++ (": needs a literal or regex" : Str)))

/-- Compile a list of signatures.
Source: `budu-signatures/src/db.rs` `SignatureDb::compile` -/
def SignatureDb.compile (sigs : List Signature) : Except SignatureError (SignatureDb X) := do
  let (ls, rs) ← collect sigs
  if ls.isEmpty && rs.isEmpty then throw .empty
  match ha : X.ahoNew (ls.map Prod.fst), hr : X.regexSetNew (rs.map Prod.fst) with
  | .error e, _ => throw (.compile (("aho-corasick: " : Str) ++ e))
  | .ok _, .error e => throw (.compile (("regex: " : Str) ++ e))
  | .ok a, .ok r =>
    return {
      literals := a
      literalMeta := ls.map Prod.snd
      regexes := r
      regexMeta := rs.map Prod.snd
      count := sigs.length
      literal_lt := fun h => by simpa using X.ahoFind_lt ha h
      regex_lt := fun h => by simpa using X.setMatches_lt hr h }

/-- Load a signature file, or the built-in set where there is no path. (The code unwraps the
compilation of the built-in set, which cannot fail; an error here stands for that panic.)
Source: `budu-signatures/src/db.rs` `SignatureDb::load`, `SignatureDb::builtin` -/
def SignatureDb.load (fs : FileSystem) (path : Str) : Except SignatureError (SignatureDb X) :=
  if (Str.trim path).isEmpty then SignatureDb.compile X signatures
  else do
    let text ← (fs.readToString path).mapError fun e => .read (path ++ (": " : Str) ++ e)
    let sigs ← (X.tomlSignatures text).mapError .parse
    SignatureDb.compile X sigs

/-! ## Matching -/

variable {X}

/-- The first matching signature: a literal if any occurs, else a regular expression.
Source: `budu-signatures/src/db.rs` `SignatureDb::scan` -/
def SignatureDb.scan (db : SignatureDb X) (haystack : Str) : Option Hit :=
  match h : X.ahoFind db.literals haystack with
  | some i => some (db.literalMeta.get ⟨i, db.literal_lt h⟩)
  | none =>
    match h : X.setMatches db.regexes haystack with
    | i :: _ => some (db.regexMeta.get ⟨i, db.regex_lt (h ▸ List.mem_cons_self)⟩)
    | [] => none

/-- The text a request is scanned as: path, query and body, each normalized.
Source: `budu-signatures/src/stage.rs` `SignatureStage::haystack` -/
def haystack (ctx : RequestCtx) : Str :=
  (match ctx.normalized.path with
    | some p => p
    | none => Parser.normalizeInto (Str.utf8 ctx.path) false) ++
  (match ctx.normalized.query with
    | some q => '?' :: q
    | none =>
      match ctx.query with
      | some q => '?' :: Parser.normalizeInto (Str.utf8 q) true
      | none => []) ++
  (match ctx.body with
    | .buffered bytes => '\n' :: Parser.normalizeInto bytes true
    | _ => [])

/-- The verdict of the stage holding this database.
Source: `budu-signatures/src/stage.rs` `SignatureStage::inspect` -/
def inspect (db : SignatureDb X) (ctx : RequestCtx) : StageResult :=
  match db.scan (haystack ctx) with
  | some hit => .brk (.block hit.ruleId hit.status hit.reason)
  | none => .cont

end BuduWaf.Signatures
