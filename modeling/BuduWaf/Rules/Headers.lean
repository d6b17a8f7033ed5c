import BuduWaf.Plain
import BuduWaf.Rules.Evaluate

/-!
# `budu-rules`: which header lines the rules see

A request may have any number of lines of one name, with values of any bytes. `header` and the
cookie fields look at the first line only, and a value that is not visible ASCII is not read.

* **`Decoding`**: a fixed way to read values.
* **`HeaderField`**, **`lineValues`**: what a line has for a condition on the request headers.
* **`HeadersVisible`**: every line is seen, so that further lines never hide a match.
* **`headers_visible_iff`**: the header maps for which this is so.

What ought to be visible is stated for any way of reading bytes as text (`Decoding`), so that no
particular one is presupposed for values that are not ASCII. The proof compares what is tested with
what the lines have, value by value (`lines_tested_iff`): they are the same sets exactly if the
lines are text and, for the fields that look at one line of a name, there is no second one. Adding a
line then cannot take a match away (`test_mono`), and where the condition fails an example value is
constructed that shows it.
-/

namespace BuduWaf.Rules

open RateLimit

/-! ## Values as texts -/

/-- A fixed way to read header values: text is read as it is, and nothing else is read as such
text. -/
structure Decoding where
  /-- The text read. -/
  decode : Bytes → Str
  /-- Text stays as it is. -/
  text : ∀ {v : Bytes} {s : Str}, headerToStr v = some s → decode v = s
  /-- Other values are told apart from it. -/
  other : ∀ {v w : Bytes} {s : Str}, headerToStr v = none → headerToStr w = some s → decode v ≠ s

/-- The decoding of a header value that makes a character of each byte. -/
def latin1 (v : Bytes) : Str := v.map fun b => Char.ofNat b.toNat

/-- Different values are different texts in Latin-1. -/
theorem latin1_injective : Function.Injective latin1 :=
  List.map_injective_iff.mpr Str.byteChar_injective

/-- What `to_str` reads of a value is its text in Latin-1. -/
theorem latin1_of_headerToStr {v : Bytes} {s : Str} (h : headerToStr v = some s) :
    latin1 v = s := by
  unfold headerToStr at h
  exact (Option.ite_none_right_eq_some.mp h).2 |> Option.some.inj

/-- Reading a character for each byte is one way. -/
def Decoding.latin1 : Decoding where
  decode := Rules.latin1
  text := latin1_of_headerToStr
  other := by
    intro v w s hnone hsome h
    have hsame := latin1_injective (h.trans (latin1_of_headerToStr hsome).symm)
    rw [hsame, hsome] at hnone
    cases hnone

/-! ## What a line has for a field -/

/-- The fields that are about the values of request headers. -/
inductive HeaderField where
  | header (name : Str)
  | headers
  | cookie (name : Str)
  | cookies
  | cookieNames
deriving DecidableEq

/-- The field a condition on headers or cookies is compiled with. -/
def HeaderField.field : HeaderField → Field
  | .header name => .header name
  | .headers => .headers
  | .cookie name => .cookie name
  | .cookies => .cookies
  | .cookieNames => .cookieNames

/-- The pairs of one `Cookie` line, as the source cuts it. -/
def cookiePairs (line : Str) : List (Str × Str) :=
  (line.splitOn ';').filterMap fun part =>
    let part := Str.trim part
    if part.isEmpty then none
    else
      let (k, v) := (Str.splitOnce '=' part).getD (part, [])
      some (Str.trim k, Str.trim v)

/-- What a cookie field is about among the pairs of a line. -/
def HeaderField.ofPairs : HeaderField → List (Str × Str) → List Str
  | .cookie name, pairs => valuesOf name pairs
  | .cookies, pairs => pairs.map Prod.snd
  | .cookieNames, pairs => pairs.map Prod.fst
  | .header _, _ | .headers, _ => []

/-- What one header line has for a field: its value, or of a `Cookie` line its pairs. -/
def lineValues (D : Decoding) (f : HeaderField) (line : Str × Bytes) : List Str :=
  match f with
  | .header name => if line.1 = Str.toAsciiLowercase name then [D.decode line.2] else []
  | .headers => [D.decode line.2]
  | f => if line.1 = ("cookie" : Str) then f.ofPairs (cookiePairs (D.decode line.2)) else []

variable (X : Crates)

/-- Whatever a line has for a field is tested by every condition on it, and lines that are added
anywhere never make a condition fail that is not inverted. -/
def HeadersVisible (D : Decoding) (h : HeaderMap) (f : HeaderField) : Prop :=
  ∀ (now : Now) (ctx : RequestCtx) (counters : CounterStore X),
    (∀ line ∈ h.entries, ∀ t ∈ lineValues D f line,
      t ∈ collectCandidates now { ctx with headers := h } counters f.field) ∧
    ∀ fewer : HeaderMap, fewer.entries.Sublist h.entries → ∀ c : CompiledCond X,
      c.field = f.field → c.negate = false →
        c.matchesRequest now { ctx with headers := fewer } counters = true →
          c.matchesRequest now { ctx with headers := h } counters = true

/-- Each value is visible ASCII where the field takes all lines; where it takes the lines of a
name, these have one value; and the first `Cookie` line is visible ASCII and says whatever any
`Cookie` line says. -/
def LinesVisible (D : Decoding) (h : HeaderMap) (f : HeaderField) : Prop :=
  match f with
  | .header name =>
    ∃ s, ∀ line ∈ h.entries, line.1 = Str.toAsciiLowercase name → headerToStr line.2 = some s
  | .headers => ∀ line ∈ h.entries, (headerToStr line.2).isSome = true
  | f => ∀ line ∈ h.entries, line.1 = ("cookie" : Str) →
      ∀ t ∈ f.ofPairs (cookiePairs (D.decode line.2)),
        ∃ v s, h.get "cookie" = some v ∧ headerToStr v = some s ∧ t ∈ f.ofPairs (cookiePairs s)

variable {X}

/-! ## Candidates -/

/-- The value that is looked up is that of a line of the name. -/
theorem exists_of_get {h : HeaderMap} {name : Str} {v : Bytes} (hget : h.get name = some v) :
    ∃ line ∈ h.entries, line.1 = Str.toAsciiLowercase name ∧ line.2 = v := by
  obtain ⟨line, hfind, rfl⟩ := Option.map_eq_some_iff.mp hget
  have hname : (line.1 == Str.toAsciiLowercase name) = true :=
    List.find?_some (p := fun e : Str × Bytes => e.1 == Str.toAsciiLowercase name) hfind
  exact ⟨line, List.mem_of_find?_eq_some hfind, eq_of_beq hname, rfl⟩

/-- Where there is a line of a name, `get` finds one. -/
theorem exists_get_of_mem {h : HeaderMap} {name : Str} {line : Str × Bytes}
    (hline : line ∈ h.entries) (hname : line.1 = Str.toAsciiLowercase name) :
    ∃ v, h.get name = some v := by
  refine Option.isSome_iff_exists.mp ?_
  unfold HeaderMap.get
  rw [Option.isSome_map, List.find?_isSome]
  exact ⟨line, hline, beq_iff_eq.mpr hname⟩

section candidates

variable {now : Now} {ctx : RequestCtx} {counters : CounterStore X} {t : Str}

/-- The candidate of a header is what `to_str` reads of its first line. -/
theorem mem_header_iff {name : Str} :
    t ∈ collectCandidates now ctx counters (.header name) ↔
      ∃ v, ctx.headers.get name = some v ∧ headerToStr v = some t := by
  show t ∈ ((ctx.headers.get name).bind headerToStr).toList ↔ _
  rw [Option.mem_toList, Option.bind_eq_some_iff]

/-- The candidates of all headers are what `to_str` reads of each line. -/
theorem mem_headers_iff :
    t ∈ collectCandidates now ctx counters .headers ↔
      ∃ line ∈ ctx.headers.entries, headerToStr line.2 = some t :=
  List.mem_filterMap

/-- The pairs that are read are those of the first `Cookie` line. -/
theorem collectCookies_eq (ctx : RequestCtx) :
    collectCookies ctx = ((ctx.headers.get "cookie").bind headerToStr).elim [] cookiePairs := by
  unfold collectCookies
  cases (ctx.headers.get "cookie").bind headerToStr with
  | none => rfl
  | some cookie => rfl

/-- Where there are no pairs a cookie field has no candidates. -/
theorem HeaderField.ofPairs_nil (f : HeaderField) : f.ofPairs [] = [] := by
  cases f with
  | _ => rfl

/-- The candidates of a cookie field are those of the pairs in the first `Cookie` line, if it is
text. -/
theorem mem_ofPairs_iff {f : HeaderField} :
    t ∈ f.ofPairs (collectCookies ctx) ↔
      ∃ v s, ctx.headers.get "cookie" = some v ∧ headerToStr v = some s ∧
        t ∈ f.ofPairs (cookiePairs s) := by
  rw [collectCookies_eq]
  constructor
  · intro ht
    cases hget : (ctx.headers.get "cookie").bind headerToStr with
    | none =>
        rw [hget] at ht
        exact absurd (f.ofPairs_nil ▸ ht) List.not_mem_nil
    | some s =>
        rw [hget] at ht
        obtain ⟨v, hv, hs⟩ := Option.bind_eq_some_iff.mp hget
        exact ⟨v, s, hv, hs, ht⟩
  · rintro ⟨v, s, hv, hs, ht⟩
    rw [hv, Option.bind_some, hs]
    exact ht

end candidates

/-! ## What is seen -/

section seen

variable (D : Decoding) {now : Now} {ctx : RequestCtx} {counters : CounterStore X}

/-- The value of a line for a named header is its decoded value, where the name is that one. -/
theorem mem_lineValues_header {name t : Str} {line : Str × Bytes} :
    t ∈ lineValues D (.header name) line ↔
      line.1 = Str.toAsciiLowercase name ∧ t = D.decode line.2 := by
  show t ∈ (if line.1 = Str.toAsciiLowercase name then [D.decode line.2] else []) ↔ _
  by_cases hname : line.1 = Str.toAsciiLowercase name
  · rw [if_pos hname, List.mem_singleton, and_iff_right hname]
  · rw [if_neg hname]
    exact iff_of_false List.not_mem_nil fun h => hname h.1

/-- A cookie among those read is on a line. -/
theorem exists_cookieLine {f : HeaderField} {t : Str} (ht : t ∈ f.ofPairs (collectCookies ctx)) :
    ∃ line ∈ ctx.headers.entries, line.1 = ("cookie" : Str) ∧
      t ∈ f.ofPairs (cookiePairs (D.decode line.2)) := by
  obtain ⟨v, s, hv, hs, ht⟩ := mem_ofPairs_iff.mp ht
  obtain ⟨line, hline, hname, rfl⟩ := exists_of_get hv
  refine ⟨line, hline, hname, ?_⟩
  rw [D.text hs]
  exact ht

/-- Whatever is tested is what a line has. -/
theorem candidates_of_lines {f : HeaderField} {t : Str}
    (ht : t ∈ collectCandidates now ctx counters f.field) :
    ∃ line ∈ ctx.headers.entries, t ∈ lineValues D f line := by
  have hcookie : t ∈ f.ofPairs (collectCookies ctx) →
      (∀ line : Str × Bytes, lineValues D f line =
        if line.1 = ("cookie" : Str) then f.ofPairs (cookiePairs (D.decode line.2)) else []) →
      ∃ line ∈ ctx.headers.entries, t ∈ lineValues D f line := by
    intro ht hlines
    obtain ⟨line, hline, hname, ht⟩ := exists_cookieLine D ht
    refine ⟨line, hline, ?_⟩
    rw [hlines, if_pos hname]
    exact ht
  cases f with
  | header name =>
      obtain ⟨v, hv, hs⟩ := mem_header_iff.mp ht
      obtain ⟨line, hline, hname, rfl⟩ := exists_of_get hv
      exact ⟨line, hline, (mem_lineValues_header D).mpr ⟨hname, (D.text hs).symm⟩⟩
  | headers =>
      obtain ⟨line, hline, hs⟩ := mem_headers_iff.mp ht
      refine ⟨line, hline, ?_⟩
      unfold lineValues
      rw [D.text hs]
      exact List.mem_singleton_self t
  | cookie name => exact hcookie ht fun _ => rfl
  | cookies => exact hcookie ht fun _ => rfl
  | cookieNames => exact hcookie ht fun _ => rfl

variable (now ctx counters) in
/-- **Which lines are tested**: all of them, exactly if they are visible. -/
theorem lines_tested_iff {f : HeaderField} :
    (∀ line ∈ ctx.headers.entries, ∀ t ∈ lineValues D f line,
        t ∈ collectCandidates now ctx counters f.field) ↔ LinesVisible D ctx.headers f := by
  have hcookie : (∀ line : Str × Bytes, lineValues D f line =
        if line.1 = ("cookie" : Str) then f.ofPairs (cookiePairs (D.decode line.2)) else []) →
      ((∀ line ∈ ctx.headers.entries, ∀ t ∈ lineValues D f line,
        t ∈ f.ofPairs (collectCookies ctx)) ↔
      ∀ line ∈ ctx.headers.entries, line.1 = ("cookie" : Str) →
        ∀ t ∈ f.ofPairs (cookiePairs (D.decode line.2)), ∃ v s, ctx.headers.get "cookie" = some v ∧
          headerToStr v = some s ∧ t ∈ f.ofPairs (cookiePairs s)) := by
    intro hlines
    refine forall₂_congr fun line hline => ?_
    rw [hlines]
    by_cases hname : line.1 = ("cookie" : Str)
    · rw [if_pos hname, forall_prop_of_true hname]
      exact forall₂_congr fun t _ => mem_ofPairs_iff
    · rw [if_neg hname]
      exact iff_of_true (fun t ht => absurd ht List.not_mem_nil) fun h => absurd h hname
  cases f with
  | header name =>
      constructor
      · intro h
        by_cases hnamed : ∃ line ∈ ctx.headers.entries, line.1 = Str.toAsciiLowercase name
        · obtain ⟨line, hline, hname⟩ := hnamed
          obtain ⟨v, hget⟩ := exists_get_of_mem hline hname
          have hvalue : ∀ line ∈ ctx.headers.entries, line.1 = Str.toAsciiLowercase name →
              headerToStr v = some (D.decode line.2) := by
            intro line hline hname
            have ht : D.decode line.2 ∈ lineValues D (.header name) line :=
              (mem_lineValues_header D).mpr ⟨hname, rfl⟩
            obtain ⟨v', hget', hs⟩ := mem_header_iff.mp (h line hline _ ht)
            rw [hget] at hget'
            rw [Option.some.inj hget']
            exact hs
          refine ⟨D.decode line.2, fun line' hline' hname' => ?_⟩
          have hs := hvalue line' hline' hname'
          rw [hvalue line hline hname] at hs
          cases hread : headerToStr line'.2 with
          | none => exact absurd (Option.some.inj hs).symm (D.other hread (hvalue line hline hname))
          | some s => rw [hs, D.text hread]
        · exact ⟨[], fun line hline hname => absurd ⟨line, hline, hname⟩ hnamed⟩
      · rintro ⟨s, hs⟩ line hline t ht
        obtain ⟨hname, rfl⟩ := (mem_lineValues_header D).mp ht
        rw [D.text (hs line hline hname)]
        obtain ⟨v, hget⟩ := exists_get_of_mem hline hname
        obtain ⟨line', hline', hname', rfl⟩ := exists_of_get hget
        exact mem_header_iff.mpr ⟨line'.2, hget, hs line' hline' hname'⟩
  | headers =>
      refine forall₂_congr fun line hline => ?_
      constructor
      · intro h
        obtain ⟨line', -, hs⟩ := mem_headers_iff.mp (h _ (List.mem_singleton_self _))
        cases hread : headerToStr line.2 with
        | none => exact absurd rfl (D.other hread hs)
        | some s => rfl
      · intro hsome t ht
        obtain ⟨s, hs⟩ := Option.isSome_iff_exists.mp hsome
        have ht := List.mem_singleton.mp ht
        rw [D.text hs] at ht
        exact mem_headers_iff.mpr ⟨line, hline, ht ▸ hs⟩
  | cookie name => exact hcookie fun _ => rfl
  | cookies => exact hcookie fun _ => rfl
  | cookieNames => exact hcookie fun _ => rfl

end seen

/-- A condition that tests more holds the more. -/
theorem test_mono {c : CompiledCond X} (hnegate : c.negate = false) {ip : IpAddr}
    {few many : List Str} (hsub : few ⊆ many) (h : c.test ip few = true) :
    c.test ip many = true := by
  have hany : c.evalCandidates few = true → c.evalCandidates many = true := by
    unfold CompiledCond.evalCandidates
    rw [List.any_eq_true, List.any_eq_true]
    rintro ⟨t, ht, heval⟩
    exact ⟨t, hsub ht, heval⟩
  unfold CompiledCond.test at h ⊢
  rw [hnegate, Bool.xor_false] at h ⊢
  cases hop : c.op with
  | cidr net =>
      rw [hop] at h
      exact h
  | _ =>
      rw [hop] at h
      exact hany h

variable (X) in
/-- **No header line is hidden from a condition** exactly where the lines it is about are visible
ASCII and, for the fields that look at the first line, further lines say nothing else. -/
theorem headers_visible_iff (D : Decoding) (h : HeaderMap) (f : HeaderField) :
    HeadersVisible X D h f ↔ LinesVisible D h f := by
  constructor
  · intro hvisible
    have ctx : RequestCtx := ⟨[], [], none, h, ⟨.v4 0, none⟩, .notBuffered, .default⟩
    exact (lines_tested_iff D ⟨0, 0⟩ { ctx with headers := h } CounterStore.new).mp
      (hvisible ⟨0, 0⟩ ctx CounterStore.new).1
  · intro hlines now ctx counters
    have htested := (lines_tested_iff D now { ctx with headers := h } counters).mpr hlines
    refine ⟨htested, fun fewer hsub c hfield hnegate hmatches => ?_⟩
    refine test_mono hnegate ?_ hmatches
    intro t ht
    rw [hfield] at ht ⊢
    obtain ⟨line, hline, ht⟩ := candidates_of_lines D ht
    exact htested line (hsub.subset hline) t ht

/-! ## A line in front -/

/-- A plain build, without optional features. -/
def probeBuild : Crates := .plain .none .none

/-- A request with an attack in a header, behind a harmless line of the same name. -/
def probe : RequestCtx where
  method := "GET"
  path := "/"
  query := none
  headers :=
    ⟨[("x-api-version", Str.utf8 "1"), ("x-api-version", Str.utf8 "$\x7bjndi:ldap://x\x7d")]⟩
  client := ⟨.v4 0, none⟩
  body := .notBuffered
  normalized := .default

/-- A condition that looks for such attacks. -/
def probeCond : CompiledCond probeBuild :=
  ⟨.header "x-api-version", .contains "$\x7bjndi:", false, []⟩

/-- The line in front hides the one behind it, which alone would be found. -/
theorem line_in_front_hides :
    ¬ HeadersVisible probeBuild .latin1 probe.headers (.header "x-api-version") := by
  intro h
  have halone : probeCond.matchesRequest ⟨0, 0⟩
      { probe with headers := ⟨probe.headers.entries.drop 1⟩ } CounterStore.new = true := by
    decide +kernel
  have hboth := (h ⟨0, 0⟩ probe CounterStore.new).2 ⟨probe.headers.entries.drop 1⟩
    (List.drop_sublist 1 _) probeCond rfl rfl halone
  have hhidden : probeCond.matchesRequest ⟨0, 0⟩ probe CounterStore.new = false := by
    decide +kernel
  exact Bool.false_ne_true (hhidden.symm.trans hboth)

end BuduWaf.Rules
