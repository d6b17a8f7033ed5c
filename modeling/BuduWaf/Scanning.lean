import BuduWaf.Haystack
import BuduWaf.Lib.Case

/-!
# `budu-signatures`: what is scanned and what is reported

* **Parts**: the path, the query and the body of a request as they are scanned. No text without
  `?` and line break reaches from one into another (`infix_haystack_iff`), and the normalizing
  stage changes none of them.
* **`Arrays`**: the two vectors of patterns and the two of metadata, filled in one loop. Each
  pattern keeps the metadata of its signature at its own index (`collectArrays_aligned`), and the
  compiled database is made of these vectors (`compile_arrays`).
* **`ExactMatchers`**: what the two matchers of the crates report.
* **`scan_exact`**: a scan hits exactly where a signature matches, and reports one that does.

The proof of `scan_exact` goes over the loop of `SignatureDb::compile` turn by turn. Its invariant
is `Arrays.Aligned`: an index into one of the pattern vectors is an index into the metadata vector
beside it, and the metadata there is that of a signature with this pattern. What a matcher reports
is an index, so a hit names a signature that matches; conversely every signature of the list has
its pattern in one of the vectors, so none that matches is missed.
-/

namespace BuduWaf.Signatures

open BuduWaf.Parser

/-! ## The parts of a request -/

/-- The path as it is scanned: the copy on the context, else computed. -/
def pathPart (ctx : RequestCtx) : Str :=
  ctx.normalized.path.getD (normalizeInto (Str.utf8 ctx.path) false)

/-- The query as it is scanned, if there is one. -/
def queryPart (ctx : RequestCtx) : Option Str :=
  ctx.normalized.query.or (ctx.query.map fun q => normalizeInto (Str.utf8 q) true)

/-- The body as it is scanned, if it was buffered. -/
def bodyPart (ctx : RequestCtx) : Option Str :=
  match ctx.body with
  | .buffered bytes => some (normalizeInto bytes true)
  | _ => none

/-- A part of the haystack behind its separator, or nothing where the request has no such part. -/
def behind (sep : Char) (part : Option Str) : Str := part.elim [] (sep :: ·)

/-- The text that is scanned is made of the parts. -/
theorem haystack_parts (ctx : RequestCtx) :
    haystack ctx = pathPart ctx ++ behind '?' (queryPart ctx) ++ behind '\n' (bodyPart ctx) := by
  unfold haystack
  refine congrArg₂ (· ++ ·) (congrArg₂ (· ++ ·) ?_ ?_) ?_
  · unfold pathPart
    cases ctx.normalized.path <;> rfl
  · unfold queryPart
    cases ctx.normalized.query with
    | some q => rfl
    | none => cases ctx.query <;> rfl
  · unfold bodyPart
    cases ctx.body <;> rfl

/-- The parts of a context with its own copies are those of its path and query. -/
theorem OwnCopies.parts {ctx : RequestCtx} (h : OwnCopies ctx) :
    pathPart ctx = normalizeInto (Str.utf8 ctx.path) false ∧
      queryPart ctx = ctx.query.map fun q => normalizeInto (Str.utf8 q) true := by
  constructor
  · unfold pathPart
    cases hp : ctx.normalized.path with
    | none => rfl
    | some p => exact h.path p hp
  · unfold queryPart
    cases hq : ctx.normalized.query with
    | none => rfl
    | some q =>
        obtain ⟨raw, hraw, rfl⟩ := h.query q hq
        rw [hraw]
        rfl

/-- A text without the separator is on one side of it. -/
theorem infix_append_behind_iff {token : Str} {sep : Char} (h : sep ∉ token) (front : Str)
    (part : Option Str) :
    token <:+: front ++ behind sep part ↔
      token <:+: front ∨ ∃ text, part = some text ∧ token <:+: text := by
  cases part with
  | none =>
      have hempty : ¬ ∃ text, (none : Option Str) = some text ∧ token <:+: text := by
        rintro ⟨_, ⟨⟩, -⟩
      rw [or_iff_left hempty]
      show token <:+: front ++ [] ↔ _
      rw [List.append_nil]
  | some text =>
      show token <:+: front ++ sep :: text ↔ _
      rw [Str.infix_append_cons_iff h]
      simp only [Option.some.injEq, exists_eq_left']

/-- **Nothing bridges two parts**: a text without the two separators is in one of the parts. -/
theorem infix_haystack_iff {token : Str} (hmark : '?' ∉ token) (hbreak : '\n' ∉ token)
    (ctx : RequestCtx) :
    token <:+: haystack ctx ↔ token <:+: pathPart ctx ∨
      (∃ q, queryPart ctx = some q ∧ token <:+: q) ∨
        ∃ b, bodyPart ctx = some b ∧ token <:+: b := by
  rw [haystack_parts, infix_append_behind_iff hbreak, infix_append_behind_iff hmark, or_assoc]

/-- **No token bridges two parts.** A literal without `?` and line break is found in the text of a
request exactly if it is found in the path, in the query or in the body that are scanned. In a
context with no copies but its own these are its path and its query, normalized; and the text is
the same whether or not the normalizing stage ran, whatever copies were there before. -/
theorem no_token_bridges_parts :
    (∀ (ctx : RequestCtx) (literal : Str), '?' ∉ literal → '\n' ∉ literal →
      (Str.toAsciiLowercase literal <:+: haystack ctx ↔
        Str.toAsciiLowercase literal <:+: pathPart ctx ∨
          (∃ q, queryPart ctx = some q ∧ Str.toAsciiLowercase literal <:+: q) ∨
            ∃ b, bodyPart ctx = some b ∧ Str.toAsciiLowercase literal <:+: b)) ∧
      (∀ ctx : RequestCtx, OwnCopies ctx →
        pathPart ctx = normalizeInto (Str.utf8 ctx.path) false ∧
          (queryPart ctx = ctx.query.map fun q => normalizeInto (Str.utf8 q) true) ∧
            haystack (normalize ctx) = haystack ctx) ∧
      ∀ ctx : RequestCtx,
        haystack (normalize ctx) = haystack { ctx with normalized := .default } := by
  refine ⟨?_, ?_, ?_⟩
  · intro ctx literal hmark hbreak
    have hmark' := Str.notMem_toAsciiLowercase (by decide) hmark
    have hbreak' := Str.notMem_toAsciiLowercase (by decide) hbreak
    exact infix_haystack_iff hmark' hbreak' ctx
  · intro ctx hown
    obtain ⟨hpath, hquery⟩ := hown.parts
    refine ⟨hpath, hquery, ?_⟩
    rw [haystack_eq hown]
    exact haystack_eq (ownCopies_normalize ctx)
  · intro ctx
    have hempty : OwnCopies { ctx with normalized := .default } := ownCopies_default rfl
    rw [haystack_eq hempty]
    exact haystack_eq (ownCopies_normalize ctx)

/-- A request with a tag in its query, and the rest of another one in its body. -/
def taggedRequest : RequestCtx :=
  { getRequest "/a" "q=%3CScript" with body := .buffered (Str.utf8 "x=<SCR") }

/-- The tag is found in the query, before the normalizing stage and after it. -/
theorem tag_in_query_found :
    Str.toAsciiLowercase "<SCRIPT" <:+: haystack taggedRequest ∧
      haystack (normalize taggedRequest) = haystack taggedRequest := by
  have hquery : queryPart taggedRequest = some ("q=<script" : Str) := by decide +kernel
  have htag : Str.toAsciiLowercase ("<SCRIPT" : Str) <:+: "q=<script" :=
    Str.contains_iff.mp (by decide)
  constructor
  · exact (no_token_bridges_parts.1 taggedRequest "<SCRIPT" (by decide) (by decide)).mpr
      (.inr (.inl ⟨_, hquery, htag⟩))
  · exact (no_token_bridges_parts.2.1 taggedRequest (ownCopies_default rfl)).2.2

/-! ## The vectors of a compilation -/

/-- What is reported of a signature.
Source: `budu-signatures/src/db.rs` `SignatureDb::compile` (the literal of `Meta`) -/
def metaOf (s : Signature) : Except SignatureError Hit :=
  match StatusCode.fromU16 s.status with
  | some status => .ok ⟨s.id, status, if s.reason.isEmpty then s.id else s.reason⟩
  | none => .error (.compile (s.id ++ (": bad status " : Str) ++ Str.ofNat s.status.toNat))

/-- The vectors that the loop fills.
Source: `budu-signatures/src/db.rs` `SignatureDb::compile` -/
structure Arrays where
  /-- The literals, in lower case. -/
  literalPats : List Str
  /-- What a literal hit reports. -/
  literalMeta : List Hit
  /-- The regular expressions. -/
  regexPats : List Str
  /-- What a hit of a regular expression reports. -/
  regexMeta : List Hit

namespace Arrays

/-- The arrays before the first signature. -/
def empty : Arrays := ⟨[], [], [], []⟩

/-- The arrays with one more literal, and what is reported of it at the same index. -/
def pushLiteral (a : Arrays) (text : Str) (hit : Hit) : Arrays :=
  { a with literalPats := a.literalPats ++ [text], literalMeta := a.literalMeta ++ [hit] }

/-- The arrays with one more regular expression, and what is reported of it at the same index. -/
def pushRegex (a : Arrays) (text : Str) (hit : Hit) : Arrays :=
  { a with regexPats := a.regexPats ++ [text], regexMeta := a.regexMeta ++ [hit] }

/-- One turn of the loop.
Source: `budu-signatures/src/db.rs` `SignatureDb::compile` (the loop body) -/
def push (a : Arrays) (s : Signature) : Except SignatureError Arrays := do
  let hit ← metaOf s
  match s.literal, s.regex with
  | some l, _ => return a.pushLiteral (Str.toAsciiLowercase l) hit
  | none, some r => return a.pushRegex r hit
  | none, none => throw (.compile (s.id ++ (": needs a literal or regex" : Str)))

/-- With pairs of patterns and metadata behind what is there. -/
def extend (a : Arrays) (pairs : List (Str × Hit) × List (Str × Hit)) : Arrays where
  literalPats := a.literalPats ++ pairs.1.map Prod.fst
  literalMeta := a.literalMeta ++ pairs.1.map Prod.snd
  regexPats := a.regexPats ++ pairs.2.map Prod.fst
  regexMeta := a.regexMeta ++ pairs.2.map Prod.snd

end Arrays

/-- The vectors of a list of signatures.
Source: `budu-signatures/src/db.rs` `SignatureDb::compile` (the loop) -/
def collectArrays (sigs : List Signature) : Except SignatureError Arrays :=
  sigs.foldlM Arrays.push .empty

/-- A hit reports a signature: its label, its status and its reason, or its label instead. -/
structure Signature.ReportedBy (s : Signature) (hit : Hit) : Prop where
  /-- The label. -/
  ruleId : hit.ruleId = s.id
  /-- The status. -/
  status : StatusCode.fromU16 s.status = some hit.status
  /-- The reason. -/
  reason : hit.reason = if s.reason.isEmpty then s.id else s.reason

/-- What is stored about a signature is what its hit reports. -/
theorem reportedBy_of_metaOf {s : Signature} {hit : Hit} (h : metaOf s = .ok hit) :
    s.ReportedBy hit := by
  unfold metaOf at h
  cases hstatus : StatusCode.fromU16 s.status with
  | none =>
      rw [hstatus] at h
      cases h
  | some status =>
      rw [hstatus] at h
      obtain rfl := Except.ok.inj h
      exact ⟨rfl, hstatus, rfl⟩

/-- The vectors are aligned: each pattern is that of a signature whose metadata stands at the same
index, and the pattern of each signature is there. -/
structure Arrays.Aligned (sigs : List Signature) (a : Arrays) : Prop where
  /-- The literals. -/
  literals : List.Forall₂ (fun text hit => ∃ s ∈ sigs, s.literalText = some text ∧ s.ReportedBy hit)
    a.literalPats a.literalMeta
  /-- The regular expressions. -/
  regexes : List.Forall₂ (fun text hit => ∃ s ∈ sigs, s.regexText = some text ∧ s.ReportedBy hit)
    a.regexPats a.regexMeta
  /-- No literal is missing. -/
  literal_mem : ∀ s ∈ sigs, ∀ text, s.literalText = some text → text ∈ a.literalPats
  /-- No regular expression is missing. -/
  regex_mem : ∀ s ∈ sigs, ∀ text, s.regexText = some text → text ∈ a.regexPats

/-- What one turn of the loop does: it pushes a literal or a regular expression, and the hit of the
signature with it. -/
theorem Arrays.push_cases {a a' : Arrays} {s : Signature} (h : a.push s = .ok a') :
    ∃ hit, s.ReportedBy hit ∧
      ((∃ text, s.literalText = some text ∧ s.regexText = none ∧ a' = a.pushLiteral text hit) ∨
        ∃ text, s.literalText = none ∧ s.regexText = some text ∧ a' = a.pushRegex text hit) := by
  obtain ⟨hit, hmeta, h⟩ := bind_ok_iff.mp h
  refine ⟨hit, reportedBy_of_metaOf hmeta, ?_⟩
  unfold Signature.literalText Signature.regexText
  cases hliteral : s.literal with
  | some l =>
      rw [hliteral] at h
      exact .inl ⟨_, rfl, rfl, (Except.ok.inj h).symm⟩
  | none =>
      cases hregex : s.regex with
      | some r =>
          rw [hliteral, hregex] at h
          exact .inr ⟨r, rfl, rfl, (Except.ok.inj h).symm⟩
      | none =>
          rw [hliteral, hregex] at h
          cases h

/-- Aligned vectors stay aligned with an aligned pair behind them, and under a weaker relation. -/
theorem forall₂_concat {α β : Type} {R R' : α → β → Prop} {as : List α} {bs : List β}
    (h : List.Forall₂ R as bs) (hmono : ∀ a b, R a b → R' a b) {a : α} {b : β} (hlast : R' a b) :
    List.Forall₂ R' (as ++ [a]) (bs ++ [b]) :=
  List.rel_append (h.imp hmono) (.cons hlast .nil)

/-- **One turn of the loop** keeps the vectors aligned. -/
theorem Arrays.Aligned.push {sigs : List Signature} {a a' : Arrays} {s : Signature}
    (ha : a.Aligned sigs) (h : a.push s = .ok a') : a'.Aligned (sigs ++ [s]) := by
  have hmono : ∀ (P : Signature → Prop), (∃ s' ∈ sigs, P s') → ∃ s' ∈ sigs ++ [s], P s' := by
    rintro P ⟨s', hs', hP⟩
    exact ⟨s', List.mem_append_left _ hs', hP⟩
  have hself : s ∈ sigs ++ [s] := List.mem_append_right _ List.mem_cons_self
  obtain ⟨hit, hhit, ⟨text, hliteral, hregex, rfl⟩ | ⟨text, hliteral, hregex, rfl⟩⟩ := push_cases h
  · constructor
    · exact forall₂_concat ha.literals (fun _ _ => hmono _) ⟨s, hself, hliteral, hhit⟩
    · exact ha.regexes.imp fun _ _ => hmono _
    · refine List.forall_mem_append.mpr ⟨?_, List.forall_mem_singleton.mpr ?_⟩
      · intro s' hs' text' htext'
        exact List.mem_append_left _ (ha.literal_mem s' hs' text' htext')
      · intro text' htext'
        obtain rfl := Option.some.inj (hliteral.symm.trans htext')
        exact List.mem_append_right _ List.mem_cons_self
    · refine List.forall_mem_append.mpr ⟨ha.regex_mem, List.forall_mem_singleton.mpr ?_⟩
      intro text' htext'
      rw [hregex] at htext'
      cases htext'
  · constructor
    · exact ha.literals.imp fun _ _ => hmono _
    · exact forall₂_concat ha.regexes (fun _ _ => hmono _) ⟨s, hself, hregex, hhit⟩
    · refine List.forall_mem_append.mpr ⟨ha.literal_mem, List.forall_mem_singleton.mpr ?_⟩
      intro text' htext'
      rw [hliteral] at htext'
      cases htext'
    · refine List.forall_mem_append.mpr ⟨?_, List.forall_mem_singleton.mpr ?_⟩
      · intro s' hs' text' htext'
        exact List.mem_append_left _ (ha.regex_mem s' hs' text' htext')
      · intro text' htext'
        obtain rfl := Option.some.inj (hregex.symm.trans htext')
        exact List.mem_append_right _ List.mem_cons_self

/-- **The whole loop** leaves them aligned. -/
theorem collectArrays_aligned {sigs : List Signature} {a : Arrays}
    (h : collectArrays sigs = .ok a) : a.Aligned sigs := by
  have hrun : ∀ (rest done : List Signature) (a a' : Arrays), a.Aligned done →
      rest.foldlM Arrays.push a = .ok a' → a'.Aligned (done ++ rest) := by
    intro rest
    induction rest with
    | nil =>
        intro done a a' ha hrest
        obtain rfl := Except.ok.inj hrest
        rwa [List.append_nil]
    | cons s rest ih =>
        intro done a a' ha hrest
        rw [List.foldlM_cons] at hrest
        obtain ⟨next, hpush, hrest⟩ := bind_ok_iff.mp hrest
        have hall := ih (done ++ [s]) next a' (ha.push hpush) hrest
        rwa [List.append_assoc] at hall
  refine hrun sigs [] .empty a ?_ h
  exact ⟨.nil, .nil, fun _ hs => absurd hs List.not_mem_nil, fun _ hs => absurd hs List.not_mem_nil⟩

namespace Arrays

variable (a : Arrays)

/-- Arrays that are extended by nothing stay as they are. -/
@[simp] theorem extend_nil : a.extend ([], []) = a := by
  simp [extend]

/-- Extending after a literal was pushed is extending by it and the rest. -/
@[simp] theorem extend_pushLiteral (text : Str) (hit : Hit) (ls rs : List (Str × Hit)) :
    (a.pushLiteral text hit).extend (ls, rs) = a.extend ((text, hit) :: ls, rs) := by
  simp [extend, pushLiteral]

/-- Extending after a regular expression was pushed is extending by it and the rest. -/
@[simp] theorem extend_pushRegex (text : Str) (hit : Hit) (ls rs : List (Str × Hit)) :
    (a.pushRegex text hit).extend (ls, rs) = a.extend (ls, (text, hit) :: rs) := by
  simp [extend, pushRegex]

end Arrays

/-- The vectors are those of the pairs that are collected, behind what is there. -/
theorem foldlM_push (sigs : List Signature) (a : Arrays) :
    sigs.foldlM Arrays.push a = (collect sigs).map a.extend := by
  induction sigs generalizing a with
  | nil => exact congrArg Except.ok a.extend_nil.symm
  | cons s sigs ih =>
      rw [List.foldlM_cons]
      unfold Arrays.push metaOf collect
      cases StatusCode.fromU16 s.status with
      | none => rfl
      | some status =>
          cases s.literal with
          | some l =>
              refine (ih _).trans ?_
              cases collect sigs with
              | error e => rfl
              | ok pairs => exact congrArg Except.ok (a.extend_pushLiteral _ _ pairs.1 pairs.2)
          | none =>
              cases s.regex with
              | none => rfl
              | some r =>
                  refine (ih _).trans ?_
                  cases collect sigs with
                  | error e => rfl
                  | ok pairs => exact congrArg Except.ok (a.extend_pushRegex _ _ pairs.1 pairs.2)

/-- **A database is made of the vectors.** -/
theorem compile_arrays {X : Crates} {sigs : List Signature} {db : SignatureDb X}
    (h : SignatureDb.compile X sigs = .ok db) :
    ∃ a, collectArrays sigs = .ok a ∧ X.ahoNew a.literalPats = .ok db.literals ∧
      db.literalMeta = a.literalMeta ∧ X.regexSetNew a.regexPats = .ok db.regexes ∧
        db.regexMeta = a.regexMeta := by
  unfold SignatureDb.compile at h
  obtain ⟨⟨ls, rs⟩, hcollect, h⟩ := bind_ok_iff.mp h
  have harrays : collectArrays sigs = .ok (Arrays.empty.extend (ls, rs)) := by
    unfold collectArrays
    rw [foldlM_push, hcollect]
    rfl
  obtain ⟨-, h⟩ := refuse_ok_iff.mp h
  split at h
  · cases h
  · cases h
  · rename_i ha hr
    obtain rfl := Except.ok.inj h
    exact ⟨_, harrays, ha, rfl, hr, rfl⟩

/-! ## A scan -/

variable {X : Crates}

/-- What the documentation of the two crates says is reported, for a meaning of regular
expressions: the automaton reports a text that occurs, if one does, and the set reports the indices
of the expressions that match. -/
structure ExactMatchers (X : Crates) (Matches : Str → Str → Prop) : Prop where
  /-- `AhoCorasick::find`, where it finds something. -/
  found : ∀ {texts : List Str} {a : X.AhoCorasick} {hay : Str} {i : Nat},
    X.ahoNew texts = .ok a → X.ahoFind a hay = some i →
      ∃ text, texts[i]? = some text ∧ text <:+: hay
  /-- `AhoCorasick::find`, where it finds nothing. -/
  missed : ∀ {texts : List Str} {a : X.AhoCorasick} {hay : Str},
    X.ahoNew texts = .ok a → X.ahoFind a hay = none → ∀ text ∈ texts, ¬ text <:+: hay
  /-- `RegexSet::matches`. -/
  report : ∀ {texts : List Str} {set : X.RegexSet} {hay : Str} {i : Nat},
    X.regexSetNew texts = .ok set →
      (i ∈ X.setMatches set hay ↔ ∃ text, texts[i]? = some text ∧ Matches text hay)

/-- The literal of a signature occurs in a text, in lower case. -/
def Signature.LiteralOccurs (s : Signature) (hay : Str) : Prop :=
  ∃ l, s.literal = some l ∧ Str.toAsciiLowercase l <:+: hay

/-- A signature has no literal, and its regular expression matches a text. -/
def Signature.RegexMatches (Matches : Str → Str → Prop) (s : Signature) (hay : Str) : Prop :=
  s.literal = none ∧ ∃ r, s.regex = some r ∧ Matches r hay

/-- A literal signature occurs iff it has a literal text and that is a part of the haystack. -/
theorem literalOccurs_iff {s : Signature} {hay : Str} :
    s.LiteralOccurs hay ↔ ∃ text, s.literalText = some text ∧ text <:+: hay := by
  unfold Signature.LiteralOccurs Signature.literalText
  cases s.literal with
  | none => simp
  | some l => simp

/-- A regular expression matches iff the signature has one and it matches the haystack. -/
theorem regexMatches_iff {Matches : Str → Str → Prop} {s : Signature} {hay : Str} :
    s.RegexMatches Matches hay ↔ ∃ text, s.regexText = some text ∧ Matches text hay := by
  unfold Signature.RegexMatches Signature.regexText
  cases s.literal with
  | none => simp
  | some l => simp

/-- What stands at the same index of aligned lists is related. -/
theorem forall₂_getElem? {α β : Type} {R : α → β → Prop} {as : List α} {bs : List β}
    (h : List.Forall₂ R as bs) {i : Nat} {a : α} {b : β} (ha : as[i]? = some a)
    (hb : bs[i]? = some b) : R a b := by
  obtain ⟨hlt, rfl⟩ := List.getElem?_eq_some_iff.mp ha
  obtain ⟨hlt', rfl⟩ := List.getElem?_eq_some_iff.mp hb
  exact List.forall₂_iff_get.mp h |>.2 i hlt hlt'

section scan

variable {Matches : Str → Str → Prop} (hX : ExactMatchers X Matches) {sigs : List Signature}
  {db : SignatureDb X} (h : SignatureDb.compile X sigs = .ok db) {hay : Str}

include hX h

/-- A literal that is found is one of a signature, which is reported. -/
theorem reported_of_found {i : Nat} (hfind : X.ahoFind db.literals hay = some i) {hit : Hit}
    (hhit : db.literalMeta[i]? = some hit) :
    ∃ s ∈ sigs, s.LiteralOccurs hay ∧ s.ReportedBy hit := by
  obtain ⟨a, hcollect, haho, hmeta, -, -⟩ := compile_arrays h
  obtain ⟨text, htext, hin⟩ := hX.found haho hfind
  rw [hmeta] at hhit
  obtain ⟨s, hs, hliteral, hreport⟩ :=
    forall₂_getElem? (collectArrays_aligned hcollect).literals htext hhit
  exact ⟨s, hs, literalOccurs_iff.mpr ⟨text, hliteral, hin⟩, hreport⟩

/-- Where the matcher finds no literal, none occurs in the haystack. -/
theorem not_literalOccurs_of_missed (hfind : X.ahoFind db.literals hay = none) :
    ∀ s ∈ sigs, ¬ s.LiteralOccurs hay := by
  obtain ⟨a, hcollect, haho, -⟩ := compile_arrays h
  intro s hs hoccurs
  obtain ⟨text, hliteral, hin⟩ := literalOccurs_iff.mp hoccurs
  have hmem := (collectArrays_aligned hcollect).literal_mem s hs text hliteral
  exact hX.missed haho hfind text hmem hin

/-- A regular expression that is reported is one of a signature, which is reported. -/
theorem reported_of_matches {i : Nat} (hi : i ∈ X.setMatches db.regexes hay) {hit : Hit}
    (hhit : db.regexMeta[i]? = some hit) :
    ∃ s ∈ sigs, s.RegexMatches Matches hay ∧ s.ReportedBy hit := by
  obtain ⟨a, hcollect, -, -, hset, hmeta⟩ := compile_arrays h
  obtain ⟨text, htext, hmatches⟩ := (hX.report hset).mp hi
  rw [hmeta] at hhit
  obtain ⟨s, hs, hregex, hreport⟩ :=
    forall₂_getElem? (collectArrays_aligned hcollect).regexes htext hhit
  exact ⟨s, hs, regexMatches_iff.mpr ⟨text, hregex, hmatches⟩, hreport⟩

/-- Where the matcher reports no regular expression, none matches the haystack. -/
theorem not_regexMatches_of_nil (hnone : X.setMatches db.regexes hay = []) :
    ∀ s ∈ sigs, ¬ s.RegexMatches Matches hay := by
  obtain ⟨a, hcollect, -, -, hset, -⟩ := compile_arrays h
  intro s hs hmatches
  obtain ⟨text, hregex, hmatch⟩ := regexMatches_iff.mp hmatches
  have hmem := (collectArrays_aligned hcollect).regex_mem s hs text hregex
  obtain ⟨i, hi⟩ := List.mem_iff_getElem?.mp hmem
  have hreported := (hX.report hset).mpr ⟨text, hi, hmatch⟩
  rw [hnone] at hreported
  cases hreported

/-- **A scan**: a hit reports a signature that matches, by its literal if any does so; without a hit
none matches. -/
theorem scan_cases (hay : Str) :
    (∃ hit, db.scan hay = some hit ∧ ∃ s ∈ sigs, s.LiteralOccurs hay ∧ s.ReportedBy hit) ∨
      ((∀ s ∈ sigs, ¬ s.LiteralOccurs hay) ∧
        ((∃ hit, db.scan hay = some hit ∧
            ∃ s ∈ sigs, s.RegexMatches Matches hay ∧ s.ReportedBy hit) ∨
          (db.scan hay = none ∧ ∀ s ∈ sigs, ¬ s.RegexMatches Matches hay))) := by
  unfold SignatureDb.scan
  split
  · rename_i i hfind
    have hhit := List.getElem?_eq_getElem (db.literal_lt hfind)
    exact .inl ⟨_, rfl, reported_of_found hX h hfind hhit⟩
  · rename_i hfind
    refine .inr ⟨not_literalOccurs_of_missed hX h hfind, ?_⟩
    split
    · rename_i i rest hmatches
      have hi : i ∈ X.setMatches db.regexes hay := by
        rw [hmatches]
        exact List.mem_cons_self
      have hhit := List.getElem?_eq_getElem (db.regex_lt hi)
      exact .inl ⟨_, rfl, reported_of_matches hX h hi hhit⟩
    · rename_i hmatches
      exact .inr ⟨rfl, not_regexMatches_of_nil hX h hmatches⟩

end scan

/-- **The scan is exact and reports the right signature.** For every list of signatures that
compiles and every text, it hits exactly where the lower-case literal of some signature occurs or
the regular expression of one without literal matches. Label, status and reason of the hit are
those of one such signature, of one with a literal whenever some literal occurs. -/
theorem scan_exact {Matches : Str → Str → Prop} (hX : ExactMatchers X Matches)
    {sigs : List Signature} {db : SignatureDb X} (h : SignatureDb.compile X sigs = .ok db)
    (hay : Str) :
    ((db.scan hay).isSome = true ↔
        ∃ s ∈ sigs, s.LiteralOccurs hay ∨ s.RegexMatches Matches hay) ∧
      ∀ hit, db.scan hay = some hit → ∃ s ∈ sigs, s.ReportedBy hit ∧
        (s.LiteralOccurs hay ∨
          ((∀ s' ∈ sigs, ¬ s'.LiteralOccurs hay) ∧ s.RegexMatches Matches hay)) := by
  rcases scan_cases hX h hay with
    ⟨hit, hscan, s, hs, hoccurs, hreport⟩ |
      ⟨hliterals, ⟨hit, hscan, s, hs, hmatches, hreport⟩ | ⟨hscan, hregexes⟩⟩
  · rw [hscan]
    refine ⟨iff_of_true rfl ⟨s, hs, .inl hoccurs⟩, ?_⟩
    rintro _ ⟨⟩
    exact ⟨s, hs, hreport, .inl hoccurs⟩
  · rw [hscan]
    refine ⟨iff_of_true rfl ⟨s, hs, .inr hmatches⟩, ?_⟩
    rintro _ ⟨⟩
    exact ⟨s, hs, hreport, .inr ⟨hliterals, hmatches⟩⟩
  · rw [hscan]
    constructor
    · refine iff_of_false Bool.false_ne_true ?_
      rintro ⟨s, hs, hoccurs | hmatches⟩
      · exact hliterals s hs hoccurs
      · exact hregexes s hs hmatches
    · rintro _ ⟨⟩

/-- The meaning of the expressions that are read. -/
def ReadsAndOccurs (text hay : Str) : Prop := ∃ p, Pattern.read text = some p ∧ p.Occurs hay

/-- The build with matchers reports as documented. -/
theorem searching_exact : ExactMatchers searching ReadsAndOccurs := by
  constructor
  · intro texts a hay i hnew hfind
    obtain rfl : texts = a := Except.ok.inj hnew
    have hmem : i ∈ Plain.occurring texts hay := List.mem_of_mem_head? hfind
    obtain ⟨text, htext, hin⟩ := Option.any_eq_true _ _ |>.mp (List.mem_filter.mp hmem).2
    exact ⟨text, htext, Str.contains_iff.mp hin⟩
  · intro texts a hay hnew hfind text htext hin
    have hsome := (searching_matches.find hnew hay).mpr ⟨text, htext, hin⟩
    rw [hfind] at hsome
    cases hsome
  · intro texts set hay i hnew
    obtain rfl : texts = set := by
      by_cases hall : (texts.all fun text => (Pattern.read text).isSome) = true
      · exact Except.ok.inj ((if_pos hall).symm.trans hnew)
      · cases (if_neg hall).symm.trans hnew
    show i ∈ (List.range texts.length).filter _ ↔ _
    rw [List.mem_filter, List.mem_range]
    unfold ReadsAndOccurs
    constructor
    · rintro ⟨-, hsearch⟩
      obtain ⟨p, hp, hoccurs⟩ := Option.any_eq_true _ _ |>.mp hsearch
      obtain ⟨text, htext, hread⟩ := Option.bind_eq_some_iff.mp hp
      exact ⟨text, htext, p, hread, Pattern.search_iff.mp hoccurs⟩
    · rintro ⟨text, htext, p, hread, hoccurs⟩
      obtain ⟨hlt, -⟩ := List.getElem?_eq_some_iff.mp htext
      refine ⟨hlt, ?_⟩
      rw [htext, Option.bind_some, hread]
      exact Pattern.search_iff.mpr hoccurs

/-- A signature with a literal and a regular expression. -/
def bothSignature : Signature :=
  { id := "both", literal := some "UNION", regex := some "a+", status := 406 }

/-- A regular expression, and that signature. -/
def mixedSignatures : List Signature := [re "digits" "[0-9]+" "a number", bothSignature]

/-- The database of these signatures. -/
def mixedDb : SignatureDb searching :=
  (SignatureDb.compile searching mixedSignatures).toOption.get (by decide +kernel)

/-- In a text with both the literal is reported, and the label for the reason. -/
theorem literal_reported_first :
    ∃ hit, mixedDb.scan "1 union 2" = some hit ∧ hit.ruleId = ("both" : Str) ∧
      StatusCode.fromU16 406 = some hit.status ∧ hit.reason = ("both" : Str) := by
  have hcompiled : SignatureDb.compile searching mixedSignatures = .ok mixedDb :=
    ok_of_toOption_get _ _
  obtain ⟨hsome, hreported⟩ := scan_exact searching_exact hcompiled "1 union 2"
  have hmem : bothSignature ∈ mixedSignatures := List.mem_cons_of_mem _ List.mem_cons_self
  have hboth : bothSignature.LiteralOccurs "1 union 2" :=
    ⟨_, rfl, Str.contains_iff.mp (by decide)⟩
  obtain ⟨hit, hscan⟩ := Option.isSome_iff_exists.mp (hsome.mpr ⟨_, hmem, .inl hboth⟩)
  obtain ⟨s, hs, hreport, hliteral | ⟨hnone, -⟩⟩ := hreported hit hscan
  · obtain ⟨l, hl, -⟩ := hliteral
    rcases List.mem_cons.mp hs with rfl | hs
    · cases hl
    · obtain rfl := List.mem_singleton.mp hs
      exact ⟨hit, hscan, hreport.ruleId, hreport.status, hreport.reason⟩
  · exact absurd hboth (hnone _ hmem)

end BuduWaf.Signatures
