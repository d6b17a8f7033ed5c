import BuduWaf.Parser
import BuduWaf.Rules.Compile

/-!
# `budu-rules`: what a condition reads

The candidate values of a field: none, one, or many for the multi-valued fields.

* **Parameters** (`collectArgs`): the query string, then the buffered body by its content type
  (form pairs, JSON flattened to dotted paths, multipart parts).
* **Cookies** (`collectCookies`).
* **`collectCandidates`**, **`collectResponseCandidates`**: one arm a field, as in the source. A
  `counter` field reads the counter store, `time` and `day` read the wall clock.

Values of several lines of a header and of several parameters of a name are all candidates. The
body is looked at if it was buffered, and by its declared content type only. Loops with an index
(`split_on`, `find_sub`) are modelled by the functions on lists they compute; that their own loops
end, with checked slices, is shown in `Rules/Splitting`.
-/

namespace BuduWaf.Rules

open RateLimit

/-! ## Parameters of the query and of form bodies -/

/-- Decoded pairs of a query string.
Source: `budu-rules/src/ruleset.rs` `parse_pairs` -/
def parsePairs (s : Str) : List (Str × Str) :=
  (s.splitOn '&').filterMap fun pair =>
    if pair.isEmpty then none
    else
      let (k, v) := (Str.splitOnce '=' pair).getD (pair, [])
      some (Parser.decodeInto (Str.utf8 k) true, Parser.decodeInto (Str.utf8 v) true)

/-! ## JSON bodies -/

/-- The path of a member below a prefix.
Source: `budu-rules/src/ruleset.rs` `flatten_json` (`child`) -/
def childPath (pre key : Str) : Str := if pre.isEmpty then key else pre ++ '.' :: key

mutual

/-- Paths and values of the scalars in a JSON value.
Source: `budu-rules/src/ruleset.rs` `flatten_json` -/
def flattenJson (pre : Str) : Json → List (Str × Str)
  | .object members => flattenMembers pre members
  | .array items => flattenItems pre 0 items
  | .string s => [(pre, s)]
  | .number text => [(pre, text)]
  | .bool b => [(pre, if b then ("true" : Str) else ("false" : Str))]
  | .null => [(pre, [])]

/-- The members of an object, in the map's order.
Source: `budu-rules/src/ruleset.rs` `flatten_json` (`Value::Object`) -/
def flattenMembers (pre : Str) : List (Str × Json) → List (Str × Str)
  | [] => []
  | (k, v) :: rest => flattenJson (childPath pre k) v ++ flattenMembers pre rest

/-- The items of an array from index `i` on.
Source: `budu-rules/src/ruleset.rs` `flatten_json` (`Value::Array`) -/
def flattenItems (pre : Str) (i : Nat) : List Json → List (Str × Str)
  | [] => []
  | v :: rest => flattenJson (childPath pre (Str.ofNat i)) v ++ flattenItems pre (i + 1) rest

end

variable (X : Crates)

/-- Parameters of a JSON body; a malformed one yields nothing.
Source: `budu-rules/src/ruleset.rs` `parse_json_args` -/
def parseJsonArgs (bytes : Bytes) : List (Str × Str) :=
  match X.jsonFromSlice bytes with
  | some value => flattenJson [] value
  | none => []

/-! ## Multipart bodies -/

/-- `str::eq_ignore_ascii_case` against a lower-case text. -/
def eqIgnoreAsciiCase (s lower : Str) : Bool := Str.toAsciiLowercase s == lower

/-- The boundary among the parameters of a content type. A parameter without `=` ends the
search.
Source: `budu-rules/src/ruleset.rs` `extract_boundary` (the loop) -/
def boundaryOf : List Str → Option Str
  | [] => none
  | part :: rest =>
    match Str.splitOnce '=' (Str.trim part) with
    | none => none
    | some (k, v) =>
      if eqIgnoreAsciiCase (Str.trim k) "boundary" then some (Str.trimMatches '"' (Str.trim v))
      else boundaryOf rest

/-- The boundary of a multipart content type.
Source: `budu-rules/src/ruleset.rs` `extract_boundary` -/
def extractBoundary (contentType : Str) : Option Str :=
  boundaryOf ((contentType.splitOn ';').drop 1)

/-- `name` and `filename` after one more parameter of a `Content-Disposition` line.
Source: `budu-rules/src/ruleset.rs` `disposition_fields` (the inner loop body) -/
def dispositionParam (acc : Option Str × Option Str) (param : Str) : Option Str × Option Str :=
  let param := Str.trim param
  match Str.stripPrefix ("name=" : Str) param, Str.stripPrefix ("filename=" : Str) param with
  | some rest, _ => (some (Str.trimMatches '"' rest), acc.2)
  | none, some rest => (acc.1, some (Str.trimMatches '"' rest))
  | none, none => acc

/-- The fields of the first `Content-Disposition` line. A line without `:` ends the search.
Source: `budu-rules/src/ruleset.rs` `disposition_fields` (the loop) -/
def dispositionOf : List Str → Option (Str × Option Str)
  | [] => none
  | line :: rest =>
    match Str.splitOnce ':' line with
    | none => none
    | some (k, v) =>
      if eqIgnoreAsciiCase (Str.trim k) "content-disposition" then
        let (name, filename) := ((v.splitOn ';').drop 1).foldl dispositionParam (none, none)
        name.map fun n => (n, filename)
      else dispositionOf rest

/-- `name` and `filename` of a part's header block.
Source: `budu-rules/src/ruleset.rs` `disposition_fields` -/
def dispositionFields (head : Bytes) : Option (Str × Option Str) :=
  dispositionOf (Str.splitSub ("\r\n" : Str) (Str.fromUtf8Lossy head))

/-- The segments between the occurrences of a needle.
Source: `budu-rules/src/ruleset.rs` `split_on` -/
def splitOn (haystack needle : Bytes) : List Bytes :=
  if needle.isEmpty then [haystack] else Str.splitSub needle haystack

/-- The first index of a needle.
Source: `budu-rules/src/ruleset.rs` `find_sub` -/
def findSub (haystack needle : Bytes) : Option Nat :=
  if needle.isEmpty || haystack.length < needle.length then none
  else (List.range (haystack.length - needle.length + 1)).find? fun i =>
    (haystack.drop i).take needle.length == needle

/-- The bytes `\r\n`, which end a line of a form. -/
def crlf : Bytes := [0x0D, 0x0A]

/-- The bytes `--`, which stand in front of a boundary. -/
def dashes : Bytes := [0x2D, 0x2D]

/-- Name and value of a segment: a file part gives its file name.
Source: `budu-rules/src/ruleset.rs` `parse_multipart_args` (the loop body) -/
def multipartArg (seg : Bytes) : Option (Str × Str) :=
  let seg := (Str.stripPrefix crlf seg).getD seg
  if seg.isEmpty || dashes.isPrefixOf seg then none
  else
    (findSub seg (crlf ++ crlf)).bind fun pos =>
      let val := seg.drop (pos + 4)
      let val := (Str.stripSuffix crlf val).getD val
      (dispositionFields (seg.take pos)).map fun (name, filename) =>
        (name, filename.getD (Str.fromUtf8Lossy val))

/-- Parameters of a multipart body.
Source: `budu-rules/src/ruleset.rs` `parse_multipart_args` -/
def parseMultipartArgs (body : Bytes) (contentType : Str) : List (Str × Str) :=
  match extractBoundary contentType with
  | none => []
  | some boundary => (splitOn body (dashes ++ Str.utf8 boundary)).filterMap multipartArg

/-! ## All parameters, cookies -/

/-- Parameters of a buffered body, by its content type.
Source: `budu-rules/src/ruleset.rs` `collect_args` (the body part) -/
def bodyArgs (bytes : Bytes) (contentType : Str) : List (Str × Str) :=
  let ctl := Str.toAsciiLowercase contentType
  if ("application/x-www-form-urlencoded" : Str).isPrefixOf ctl then
    parsePairs (Str.fromUtf8Lossy bytes)
  else if ("application/json" : Str).isPrefixOf ctl || ("text/json" : Str).isPrefixOf ctl
      || ("+json" : Str).isSuffixOf ctl then
    parseJsonArgs X bytes
  else if ("multipart/form-data" : Str).isPrefixOf ctl then
    parseMultipartArgs bytes contentType
  else []

/-- Query-string and buffered-body parameters.
Source: `budu-rules/src/ruleset.rs` `collect_args` -/
def collectArgs (ctx : RequestCtx) : List (Str × Str) :=
  (ctx.query.elim [] parsePairs) ++
  match ctx.body, (ctx.headers.get "content-type").bind headerToStr with
  | .buffered b, some ct => bodyArgs X b ct
  | _, _ => []

/-- Cookies of the `Cookie` header.
Source: `budu-rules/src/ruleset.rs` `collect_cookies` -/
def collectCookies (ctx : RequestCtx) : List (Str × Str) :=
  match (ctx.headers.get "cookie").bind headerToStr with
  | none => []
  | some cookie =>
    (cookie.splitOn ';').filterMap fun part =>
      let part := Str.trim part
      if part.isEmpty then none
      else
        let (k, v) := (Str.splitOnce '=' part).getD (part, [])
        some (Str.trim k, Str.trim v)

/-! ## Candidates -/

/-- The values of a name among pairs, in their order. -/
def valuesOf (name : Str) (pairs : List (Str × Str)) : List Str :=
  (pairs.filter fun p => p.1 == name).map Prod.snd

/-- Minutes since midnight, UTC.
Source: `budu-rules/src/ruleset.rs` `utc_minutes_now` -/
def utcMinutesNow (now : Now) : Nat := (now.wall % 86400) / 60

/-- Minutes since the epoch.
Source: `budu-rules/src/ruleset.rs` `utc_epoch_minutes` -/
def utcEpochMinutes (now : Now) : Nat := now.wall / 60

variable {X}

/-- The candidate values of a field in a request.
Source: `budu-rules/src/ruleset.rs` `collect_candidates` -/
def collectCandidates (now : Now) (ctx : RequestCtx) (counters : CounterStore X) :
    Field → List Str
  | .counter name =>
    [Str.ofNat (CounterStore.get counters now.mono name ctx.client.ip).toNat]
  | .method => [ctx.method]
  | .path => [ctx.path]
  | .query => [ctx.query.getD []]
  | .uri => [match ctx.query with
      | some q => ctx.path ++ '?' :: q
      | none => ctx.path]
  | .header name => ((ctx.headers.get name).bind headerToStr).toList
  | .body => match ctx.body with
      | .buffered b => [Str.fromUtf8Lossy b]
      | _ => []
  | .ip => [X.ipText ctx.client.ip]
  | .country => (ctx.client.geo.map CountryCode.asStr).toList
  | .arg name => valuesOf name (collectArgs X ctx)
  | .argNames => (collectArgs X ctx).map Prod.fst
  | .argsCount => [Str.ofNat (collectArgs X ctx).length]
  | .cookie name => valuesOf name (collectCookies ctx)
  | .cookieNames => (collectCookies ctx).map Prod.fst
  | .args => (collectArgs X ctx).map Prod.snd
  | .headers => ctx.headers.entries.filterMap fun e => headerToStr e.2
  | .headerNames => ctx.headers.keys
  | .cookies => (collectCookies ctx).map Prod.snd
  | .time => [Str.ofNat (utcMinutesNow now)]
  | .day => [Str.ofNat (utcEpochMinutes now)]
  -- compilation refuses these in request rules
  | .status | .respHeader _ | .respBody => []

/-- The candidate values of a field in a response.
Source: `budu-rules/src/ruleset.rs` `collect_response_candidates` -/
def collectResponseCandidates (now : Now) (rctx : ResponseCtx) (counters : CounterStore X) :
    Field → List Str
  | .status => [Str.ofNat rctx.status.code]
  | .respHeader name => ((rctx.headers.get name).bind headerToStr).toList
  | .respBody => match rctx.body with
      | .buffered b => [Str.fromUtf8Lossy b]
      | _ => []
  | .ip => [X.ipText rctx.client.ip]
  | .path => [rctx.path]
  | .counter name =>
    [Str.ofNat (CounterStore.get counters now.mono name rctx.client.ip).toNat]
  -- compilation refuses the others in response rules
  | _ => []

end BuduWaf.Rules
