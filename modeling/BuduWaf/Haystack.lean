import BuduWaf.Lib.Except
import BuduWaf.Lib.Pattern
import BuduWaf.Encodings

/-!
# `budu-signatures`: the URL and the body in one text

A buffered body is scanned behind the URL, in the same text. The built-in patterns do not mention
the line break between them, so each of them occurs on one side of it. One of them is to stand at
the end of the text, and the end is then that of the body.

* **`MatchesAsDocumented`**: what the two matchers of the crates find.
* **`scan_isSome_iff`**: what a compiled database finds.
* **`blocks_buffered_iff`**: what the built-in set finds in a request with a body.
* **`url_block_kept_iff`**: when no body hides what is in a URL.
* **`comment_hidden_by_body`**: a request where the empty body does.

The built-in set is evaluated once: its patterns are read from their texts, and each is checked for
the letters it mentions and for the empty text (`builtin_pattern`, `builtin_literal`). From then on
a signature is only known by what it hits, and the separator lemma of `Lib/Pattern` parts a hit in
the joined text into one in the URL or one in the body.

That hypothesis on the matchers is the documented behaviour of `aho-corasick` and `regex`. A build
that meets it is given (`searching_matches`), with a search that is computed.
-/

namespace BuduWaf.Signatures

variable (X : Crates)

/-! ## The matchers -/

/-- What the documentation of the two crates says is found: the automaton finds something where one
of its texts occurs, and the set reports the patterns that occur. The latter is said of the
patterns that are read here. -/
structure MatchesAsDocumented : Prop where
  /-- `AhoCorasick::find`. -/
  find : ∀ {texts : List Str} {a : X.AhoCorasick}, X.ahoNew texts = .ok a → ∀ hay : Str,
    (X.ahoFind a hay).isSome = true ↔ ∃ text ∈ texts, text <:+: hay
  /-- `RegexSet::matches`. -/
  report : ∀ {texts : List Str} {set : X.RegexSet}, X.regexSetNew texts = .ok set →
    ∀ {i : Nat} {text : Str} {p : Pattern Char}, texts[i]? = some text →
      Pattern.read text = some p → ∀ hay : Str, i ∈ X.setMatches set hay ↔ p.Occurs hay

variable {X}

/-! ## What a database finds -/

/-- The text a signature looks for: its literal in lower case, if it has one. -/
def Signature.literalText (s : Signature) : Option Str := s.literal.map Str.toAsciiLowercase

/-- The pattern a signature looks for; none beside a literal. -/
def Signature.regexText (s : Signature) : Option Str :=
  if s.literal.isSome then none else s.regex

/-- A signature hits a text: its literal is a part of it, or its pattern occurs there. -/
def Signature.Hits (s : Signature) (hay : Str) : Prop :=
  (∃ text, s.literalText = some text ∧ text <:+: hay) ∨
    ∃ text p, s.regexText = some text ∧ Pattern.read text = some p ∧ p.Occurs hay

/-- Whether a signature hits a text, computed with the library's search. -/
def Signature.hits (s : Signature) (hay : Str) : Bool :=
  (s.literalText.any fun text => Str.contains text hay) ||
    (s.regexText.bind Pattern.read).any fun p => p.search hay

/-- The test on patterns with a search decides whether a signature hits. -/
theorem Signature.hits_iff {s : Signature} {hay : Str} : s.hits hay = true ↔ s.Hits hay := by
  unfold Signature.hits Signature.Hits
  rw [Bool.or_eq_true, Option.any_eq_true, Option.any_eq_true]
  refine or_congr ?_ ?_
  · exact exists_congr fun text => and_congr_right fun _ => Str.contains_iff
  · simp only [Option.bind_eq_some_iff, Pattern.search_iff]
    constructor
    · rintro ⟨p, ⟨text, htext, hp⟩, hoccurs⟩
      exact ⟨text, p, htext, hp, hoccurs⟩
    · rintro ⟨text, p, htext, hp, hoccurs⟩
      exact ⟨p, ⟨text, htext, hp⟩, hoccurs⟩

/-- A signature with a literal hits the texts it occurs in. -/
theorem Signature.hits_of_literal {s : Signature} {text : Str} (h : s.literalText = some text)
    (hay : Str) : s.Hits hay ↔ text <:+: hay := by
  have hnone : s.regexText = none := by
    obtain ⟨l, hl, -⟩ := Option.map_eq_some_iff.mp h
    unfold Signature.regexText
    rw [hl]
    rfl
  unfold Signature.Hits
  rw [h, hnone]
  constructor
  · rintro (⟨text', heq, hin⟩ | ⟨_, _, ⟨⟩, -⟩)
    rwa [Option.some.inj heq]
  · intro hin
    exact .inl ⟨text, rfl, hin⟩

/-- A signature with a pattern hits the texts it occurs in. -/
theorem Signature.hits_of_pattern {s : Signature} {text : Str} {p : Pattern Char}
    (h : s.regexText = some text) (hp : Pattern.read text = some p) (hay : Str) :
    s.Hits hay ↔ p.Occurs hay := by
  have hnone : s.literalText = none := by
    unfold Signature.regexText at h
    unfold Signature.literalText
    cases hl : s.literal with
    | none => rfl
    | some l =>
        rw [hl] at h
        cases h
  unfold Signature.Hits
  rw [h, hnone]
  constructor
  · rintro (⟨_, ⟨⟩, -⟩ | ⟨text', p', heq, hp', hoccurs⟩)
    rw [← Option.some.inj heq] at hp'
    rwa [Option.some.inj (hp.symm.trans hp')]
  · intro hoccurs
    exact .inr ⟨text, p, rfl, hp, hoccurs⟩

/-- What is collected of a list of signatures are their texts and their patterns. -/
theorem collect_spec {sigs : List Signature} {ls rs : List (Str × Hit)}
    (h : collect sigs = .ok (ls, rs)) :
    ls.map Prod.fst = sigs.filterMap Signature.literalText ∧
      rs.map Prod.fst = sigs.filterMap Signature.regexText := by
  induction sigs generalizing ls rs with
  | nil =>
      obtain ⟨rfl, rfl⟩ := Prod.mk.inj (Except.ok.inj h)
      exact ⟨rfl, rfl⟩
  | cons s sigs ih =>
      unfold collect at h
      dsimp only at h
      cases hstatus : StatusCode.fromU16 s.status with
      | none =>
          rw [hstatus] at h
          cases h
      | some status =>
          rw [hstatus] at h
          obtain ⟨status', -, h⟩ := bind_ok_iff.mp h
          cases hliteral : s.literal with
          | some l =>
              rw [hliteral] at h
              dsimp only at h
              obtain ⟨⟨ls', rs'⟩, hrest, h⟩ := bind_ok_iff.mp h
              obtain ⟨rfl, rfl⟩ := Prod.mk.inj (Except.ok.inj h)
              obtain ⟨hls, hrs⟩ := ih hrest
              constructor
              · rw [List.map_cons, hls, List.filterMap_cons, Signature.literalText, hliteral]
                rfl
              · rw [hrs, List.filterMap_cons, Signature.regexText, hliteral]
                rfl
          | none =>
              cases hregex : s.regex with
              | none =>
                  rw [hliteral, hregex] at h
                  cases h
              | some r =>
                  rw [hliteral, hregex] at h
                  dsimp only at h
                  obtain ⟨⟨ls', rs'⟩, hrest, h⟩ := bind_ok_iff.mp h
                  obtain ⟨rfl, rfl⟩ := Prod.mk.inj (Except.ok.inj h)
                  obtain ⟨hls, hrs⟩ := ih hrest
                  constructor
                  · rw [hls, List.filterMap_cons, Signature.literalText, hliteral]
                    rfl
                  · rw [List.map_cons, hrs, List.filterMap_cons, Signature.regexText, hliteral,
                      hregex]
                    rfl

/-- A database is compiled of the texts and of the patterns. -/
theorem compile_spec {sigs : List Signature} {db : SignatureDb X}
    (h : SignatureDb.compile X sigs = .ok db) :
    X.ahoNew (sigs.filterMap Signature.literalText) = .ok db.literals ∧
      X.regexSetNew (sigs.filterMap Signature.regexText) = .ok db.regexes := by
  unfold SignatureDb.compile at h
  obtain ⟨⟨ls, rs⟩, hcollect, h⟩ := bind_ok_iff.mp h
  obtain ⟨hls, hrs⟩ := collect_spec hcollect
  rw [← hls, ← hrs]
  dsimp only at h
  by_cases hempty : (ls.isEmpty && rs.isEmpty) = true
  · rw [if_pos hempty] at h
    cases h
  rw [if_neg hempty] at h
  split at h
  · cases h
  · cases h
  · rename_i a r ha hr
    rw [ha, hr, ← Except.ok.inj h]
    exact ⟨rfl, rfl⟩

/-- **What a database finds**: something, where some signature hits. -/
theorem scan_isSome_iff (hX : MatchesAsDocumented X) {sigs : List Signature}
    (hread : ∀ s ∈ sigs, ∀ text, s.regexText = some text → ∃ p, Pattern.read text = some p)
    {db : SignatureDb X} (h : SignatureDb.compile X sigs = .ok db) (hay : Str) :
    (db.scan hay).isSome = true ↔ ∃ s ∈ sigs, s.Hits hay := by
  obtain ⟨hliterals, hregexes⟩ := compile_spec h
  have hscan : (db.scan hay).isSome = true ↔
      (X.ahoFind db.literals hay).isSome = true ∨ ∃ i, i ∈ X.setMatches db.regexes hay := by
    unfold SignatureDb.scan
    split
    · rename_i i hfind
      exact iff_of_true rfl (.inl (by rw [hfind]; rfl))
    · rename_i hfind
      rw [hfind]
      split
      · rename_i i rest hmatches
        exact iff_of_true rfl (.inr ⟨i, by rw [hmatches]; exact List.mem_cons_self⟩)
      · rename_i hmatches
        rw [hmatches]
        exact iff_of_false Bool.false_ne_true (by simp)
  rw [hscan, hX.find hliterals hay]
  have hset : (∃ i, i ∈ X.setMatches db.regexes hay) ↔
      ∃ s ∈ sigs, ∃ text p, s.regexText = some text ∧ Pattern.read text = some p ∧
        p.Occurs hay := by
    constructor
    · rintro ⟨i, hi⟩
      have hlt := X.setMatches_lt hregexes hi
      obtain ⟨s, hs, htext⟩ := List.mem_filterMap.mp (List.getElem_mem hlt)
      obtain ⟨p, hp⟩ := hread s hs _ htext
      refine ⟨s, hs, _, p, htext, hp, ?_⟩
      exact (hX.report hregexes (List.getElem?_eq_getElem hlt) hp hay).mp hi
    · rintro ⟨s, hs, text, p, htext, hp, hoccurs⟩
      obtain ⟨i, hi⟩ := List.mem_iff_getElem?.mp (List.mem_filterMap.mpr ⟨s, hs, htext⟩)
      exact ⟨i, (hX.report hregexes hi hp hay).mpr hoccurs⟩
  rw [hset]
  unfold Signature.Hits
  simp only [List.mem_filterMap]
  constructor
  · rintro (⟨text, ⟨s, hs, htext⟩, hin⟩ | ⟨s, hs, hoccurs⟩)
    · exact ⟨s, hs, .inl ⟨text, htext, hin⟩⟩
    · exact ⟨s, hs, .inr hoccurs⟩
  · rintro ⟨s, hs, ⟨text, htext, hin⟩ | hoccurs⟩
    · exact .inl ⟨text, ⟨s, hs, htext⟩, hin⟩
    · exact .inr ⟨s, hs, hoccurs⟩

/-! ## The built-in set -/

/-- The label of the one signature that looks at the end of the text. -/
def commentTailId : Str := "sqli.comment_tail"

/-- Its pattern, read: a comment sign and some spaces. -/
def commentTailExpr : RegularExpression Char :=
  1 * (1 * .char '-' * .char '-' + (1 * .char '#' + 1 * .char '/' * .char '*')) *
    .star (.char ' ')

/-- A text ends in a comment sign, but for spaces. -/
def EndsInComment (hay : Str) : Prop :=
  ∃ sign ∈ [("--" : Str), "#", "/*"], ∃ n, sign ++ List.replicate n ' ' <:+ hay

/-- The patterns of the built-in set: none mentions the line break, none is in the empty text, and
one looks at the end. -/
theorem builtin_pattern {s : Signature} (hs : s ∈ signatures) {text : Str}
    (h : s.regexText = some text) : ∃ p, Pattern.read text = some p ∧
      '\n' ∉ Pattern.letters p.expr ∧ (p.atEnd = false ↔ s.id ≠ commentTailId) ∧
        ¬ p.Occurs [] := by
  have htable : (signatures.all fun s => s.regexText.all fun text =>
      (Pattern.read text).any fun p => decide ('\n' ∉ Pattern.letters p.expr ∧
        (p.atEnd = false ↔ s.id ≠ commentTailId) ∧ ¬ p.Occurs [])) = true := by
    decide +kernel
  have hrow := List.all_eq_true.mp htable s hs
  rw [h, Option.all_some] at hrow
  obtain ⟨p, hp, hfacts⟩ := Option.any_eq_true _ _ |>.mp hrow
  exact ⟨p, hp, of_decide_eq_true hfacts⟩

/-- The literals of the built-in set do not mention the line break either, and are not empty. -/
theorem builtin_literal {s : Signature} (hs : s ∈ signatures) {text : Str}
    (h : s.literalText = some text) : '\n' ∉ text ∧ text ≠ [] ∧ s.id ≠ commentTailId := by
  have htable : (signatures.all fun s => s.literalText.all fun text =>
      decide ('\n' ∉ text ∧ text ≠ [] ∧ s.id ≠ commentTailId)) = true := by
    decide +kernel
  have hrow := List.all_eq_true.mp htable s hs
  rw [h, Option.all_some] at hrow
  exact of_decide_eq_true hrow

/-- A built-in signature has a literal or a pattern. -/
theorem builtin_cases {s : Signature} (hs : s ∈ signatures) :
    (∃ text, s.literalText = some text) ∨ ∃ text, s.regexText = some text := by
  have htable : (signatures.all fun s => s.literalText.isSome || s.regexText.isSome) = true := by
    decide
  have hrow := List.all_eq_true.mp htable s hs
  rwa [Bool.or_eq_true, Option.isSome_iff_exists, Option.isSome_iff_exists] at hrow

/-- No built-in signature hits the empty text. -/
theorem not_hits_nil {s : Signature} (hs : s ∈ signatures) : ¬ s.Hits [] := by
  rcases builtin_cases hs with ⟨text, htext⟩ | ⟨text, htext⟩
  · rw [Signature.hits_of_literal htext, List.infix_nil]
    exact (builtin_literal hs htext).2.1
  · obtain ⟨p, hp, -, -, hnil⟩ := builtin_pattern hs htext
    rwa [Signature.hits_of_pattern htext hp]

/-- **A line break parts what is found**: a built-in signature hits on one side of it; the one that
looks at the end, on the right. -/
theorem hits_append_cons_iff {s : Signature} (hs : s ∈ signatures) (a b : Str) :
    s.Hits (a ++ '\n' :: b) ↔ (s.id ≠ commentTailId ∧ s.Hits a) ∨ s.Hits b := by
  rcases builtin_cases hs with ⟨text, htext⟩ | ⟨text, htext⟩
  · obtain ⟨hfree, -, hid⟩ := builtin_literal hs htext
    simp only [Signature.hits_of_literal htext]
    rw [Str.infix_append_cons_iff hfree, and_iff_right hid]
  · obtain ⟨p, hp, hfree, hend, -⟩ := builtin_pattern hs htext
    simp only [Signature.hits_of_pattern htext hp]
    rw [Pattern.occurs_append_cons_iff hfree, hend]

/-- The words of the pattern for comments at the end: a comment sign with blanks behind it. -/
theorem mem_commentTailExpr_iff {w : Str} : w ∈ commentTailExpr.matches' ↔
    ∃ sign ∈ [("--" : Str), "#", "/*"], ∃ n, sign ++ List.replicate n ' ' = w := by
  have hsign : ∀ sign : Str, sign ∈ (1 * (1 * .char '-' * .char '-' + (1 * .char '#' +
      1 * .char '/' * .char '*')) : RegularExpression Char).matches' ↔
        sign ∈ [("--" : Str), "#", "/*"] := by
    intro sign
    simp [Pattern.mem_one_iff, Pattern.mem_char_iff, Pattern.mem_plus_iff, Pattern.mem_comp_iff,
      -RegularExpression.matches', eq_comm]
  unfold commentTailExpr
  rw [Pattern.mem_comp_iff]
  simp only [hsign, Pattern.mem_star_char_iff]
  constructor
  · rintro ⟨sign, hmem, _, ⟨n, rfl⟩, hw⟩
    exact ⟨sign, hmem, n, hw⟩
  · rintro ⟨sign, hmem, n, hw⟩
    exact ⟨sign, hmem, _, ⟨n, rfl⟩, hw⟩

/-- **The signature that looks at the end** hits the texts that end in a comment sign. -/
theorem endsInComment_iff {hay : Str} :
    EndsInComment hay ↔ ∃ s ∈ signatures, s.id = commentTailId ∧ s.Hits hay := by
  have hread : Pattern.read ("(?:--|#|/\\*) *$" : Str) = some ⟨commentTailExpr, true⟩ := by
    rfl
  have hhits : ∀ s ∈ signatures, s.id = commentTailId → (s.Hits hay ↔ EndsInComment hay) := by
    intro s hs hid
    have htable : (signatures.all fun s => decide (s.id = commentTailId →
        s.regexText = some ("(?:--|#|/\\*) *$" : Str))) = true := by
      decide
    have htext := of_decide_eq_true (List.all_eq_true.mp htable s hs) hid
    rw [Signature.hits_of_pattern htext hread]
    unfold Pattern.Occurs EndsInComment
    simp only [if_true, mem_commentTailExpr_iff]
    constructor
    · rintro ⟨_, ⟨sign, hsign, n, rfl⟩, hend⟩
      exact ⟨sign, hsign, n, hend⟩
    · rintro ⟨sign, hsign, n, hend⟩
      exact ⟨_, ⟨sign, hsign, n, rfl⟩, hend⟩
  constructor
  · intro h
    have hmem : re commentTailId "(?:--|#|/\\*) *$" "SQL injection: trailing comment" ∈
        signatures := by
      decide
    exact ⟨_, hmem, rfl, (hhits _ hmem rfl).mpr h⟩
  · rintro ⟨s, hs, hid, h⟩
    exact (hhits s hs hid).mp h

/-! ## Requests -/

/-- The text of a request without its body. -/
def urlText (ctx : RequestCtx) : Str := haystack { ctx with body := .notBuffered }

/-- The signature stage blocks a request. -/
def Blocks (db : SignatureDb X) (ctx : RequestCtx) : Prop :=
  ∃ decision, inspect db ctx = .brk decision ∧ decision.isBlock = true

/-- What is blocked without its body is blocked with every body. -/
def KeepsBlocked (db : SignatureDb X) (ctx : RequestCtx) : Prop :=
  Blocks db { ctx with body := .notBuffered } →
    ∀ bytes, Blocks db { ctx with body := .buffered bytes }

/-- A body stands behind the URL and a line break. -/
theorem haystack_buffered (ctx : RequestCtx) (bytes : Bytes) :
    haystack { ctx with body := .buffered bytes } =
      urlText ctx ++ '\n' :: Parser.normalizeInto bytes true := by
  unfold urlText haystack
  simp only [List.append_nil]

/-- The stage blocks where something is found. -/
theorem blocks_iff (db : SignatureDb X) (ctx : RequestCtx) :
    Blocks db ctx ↔ (db.scan (haystack ctx)).isSome = true := by
  unfold Blocks inspect
  cases db.scan (haystack ctx) with
  | none => exact iff_of_false (by rintro ⟨_, ⟨⟩, -⟩) Bool.false_ne_true
  | some hit => exact iff_of_true ⟨_, rfl, rfl⟩ rfl

section builtin

variable {db : SignatureDb X}

/-- What the built-in set finds in a text: it scans positive if and only if some signature hits. -/
theorem builtin_scan_iff (hX : MatchesAsDocumented X)
    (h : SignatureDb.compile X signatures = .ok db) (hay : Str) :
    (db.scan hay).isSome = true ↔ ∃ s ∈ signatures, s.Hits hay := by
  refine scan_isSome_iff hX ?_ h hay
  intro s hs text htext
  obtain ⟨p, hp, -⟩ := builtin_pattern hs htext
  exact ⟨p, hp⟩

/-- **A request with a body** is blocked where a signature hits its URL, other than the one that
looks at the end, or any hits its body. -/
theorem blocks_buffered_iff (hX : MatchesAsDocumented X)
    (h : SignatureDb.compile X signatures = .ok db) (ctx : RequestCtx) (bytes : Bytes) :
    Blocks db { ctx with body := .buffered bytes } ↔
      (∃ s ∈ signatures, s.id ≠ commentTailId ∧ s.Hits (urlText ctx)) ∨
        ∃ s ∈ signatures, s.Hits (Parser.normalizeInto bytes true) := by
  rw [blocks_iff, haystack_buffered, builtin_scan_iff hX h]
  constructor
  · rintro ⟨s, hs, hhits⟩
    rcases (hits_append_cons_iff hs _ _).mp hhits with ⟨hid, hurl⟩ | hbody
    · exact .inl ⟨s, hs, hid, hurl⟩
    · exact .inr ⟨s, hs, hbody⟩
  · rintro (⟨s, hs, hid, hurl⟩ | ⟨s, hs, hbody⟩)
    · exact ⟨s, hs, (hits_append_cons_iff hs _ _).mpr (.inl ⟨hid, hurl⟩)⟩
    · exact ⟨s, hs, (hits_append_cons_iff hs _ _).mpr (.inr hbody)⟩

/-- **When no body hides what is in a URL**: exactly if the URL does not end in a comment sign, or
some other signature hits it. -/
theorem url_block_kept_iff (hX : MatchesAsDocumented X)
    (h : SignatureDb.compile X signatures = .ok db) (ctx : RequestCtx) :
    KeepsBlocked db ctx ↔ (EndsInComment (urlText ctx) →
      ∃ s ∈ signatures, s.id ≠ commentTailId ∧ s.Hits (urlText ctx)) := by
  have halone : Blocks db { ctx with body := .notBuffered } ↔
      ∃ s ∈ signatures, s.Hits (urlText ctx) :=
    (blocks_iff db _).trans (builtin_scan_iff hX h _)
  unfold KeepsBlocked
  rw [halone]
  constructor
  · intro hkept hcomment
    obtain ⟨s, hs, -, hhits⟩ := endsInComment_iff.mp hcomment
    -- The empty body: nothing is found in it.
    rcases (blocks_buffered_iff hX h ctx []).mp (hkept ⟨s, hs, hhits⟩ []) with hother | hbody
    · exact hother
    · obtain ⟨s', hs', hnil⟩ := hbody
      exact absurd hnil (not_hits_nil hs')
  · rintro hother ⟨s, hs, hhits⟩ bytes
    refine (blocks_buffered_iff hX h ctx bytes).mpr (.inl ?_)
    by_cases hid : s.id = commentTailId
    · exact hother (endsInComment_iff.mpr ⟨s, hs, hid, hhits⟩)
    · exact ⟨s, hs, hid, hhits⟩

end builtin

/-! ## A build with matchers -/

/-- A plain build whose pattern set reads the patterns, and refuses those it can not read. -/
def searching : Crates :=
  { Crates.plain .none .none with
    RegexSet := List Str
    regexSetNew := fun texts =>
      if texts.all fun text => (Pattern.read text).isSome then .ok texts
      else .error "unsupported pattern"
    setMatches := fun texts hay => (List.range texts.length).filter fun i =>
      (texts[i]?.bind Pattern.read).any fun p => p.search hay
    setMatches_lt := by
      intro texts set hay i hnew hi
      split at hnew
      · obtain rfl := Except.ok.inj hnew
        exact List.mem_range.mp (List.mem_filter.mp hi).1
      · cases hnew }

/-- The matchers of the example find what the crates are documented to find. -/
theorem searching_matches : MatchesAsDocumented searching := by
  constructor
  · intro texts a hnew hay
    obtain rfl : texts = a := Except.ok.inj hnew
    have hfind : (searching.ahoFind texts hay).isSome = true ↔
        ∃ i, i ∈ Plain.occurring texts hay := by
      show (Plain.occurring texts hay).head?.isSome = true ↔ _
      cases Plain.occurring texts hay with
      | nil => simp
      | cons i rest => simp
    rw [hfind]
    unfold Plain.occurring
    constructor
    · rintro ⟨i, hi⟩
      obtain ⟨text, htext, hin⟩ := Option.any_eq_true _ _ |>.mp (List.mem_filter.mp hi).2
      exact ⟨text, List.mem_of_getElem? htext, Str.contains_iff.mp hin⟩
    · rintro ⟨text, hmem, hin⟩
      obtain ⟨i, hi⟩ := List.mem_iff_getElem?.mp hmem
      obtain ⟨hlt, -⟩ := List.getElem?_eq_some_iff.mp hi
      refine ⟨i, List.mem_filter.mpr ⟨List.mem_range.mpr hlt, ?_⟩⟩
      rw [hi]
      exact Str.contains_iff.mpr hin
  · intro texts set hnew i text p htext hp hay
    have hset : texts = set := by
      by_cases hall : (texts.all fun text => (Pattern.read text).isSome) = true
      · have hok : searching.regexSetNew texts = .ok texts := if_pos hall
        exact Except.ok.inj (hok.symm.trans hnew)
      · have herror : searching.regexSetNew texts = .error "unsupported pattern" := if_neg hall
        rw [herror] at hnew
        cases hnew
    subst hset
    obtain ⟨hlt, -⟩ := List.getElem?_eq_some_iff.mp htext
    show i ∈ (List.range texts.length).filter _ ↔ _
    rw [List.mem_filter, and_iff_right (List.mem_range.mpr hlt), htext, Option.bind_some, hp]
    exact Pattern.search_iff

/-- The database of the built-in set, compiled in the build with the searching matchers. -/
def searchingDb : SignatureDb searching :=
  (SignatureDb.compile searching signatures).toOption.get (by decide +kernel)

/-- The signatures of the example compile. -/
theorem searchingDb_compiled : SignatureDb.compile searching signatures = .ok searchingDb :=
  ok_of_toOption_get _ _

/-- A script tag and a comment sign behind it: no body hides the tag. -/
theorem script_kept_blocked : KeepsBlocked searchingDb (getRequest "/" "q=<script>--") := by
  refine (url_block_kept_iff searching_matches searchingDb_compiled _).mpr fun _ => ?_
  refine ⟨lit "xss.script_open" "<script" "XSS: <script> tag", by decide, by decide, ?_⟩
  exact (Signature.hits_of_literal rfl _).mpr (Str.contains_iff.mp (by decide +kernel))

/-- A comment sign alone is hidden by the empty body. -/
theorem comment_hidden_by_body :
    MatchesAsDocumented searching ∧
      SignatureDb.compile searching signatures = .ok searchingDb ∧
      Blocks searchingDb (getRequest "/" "q=1--") ∧
      ¬ Blocks searchingDb { getRequest "/" "q=1--" with body := .buffered [] } ∧
      ¬ KeepsBlocked searchingDb (getRequest "/" "q=1--") := by
  have hscan := builtin_scan_iff searching_matches searchingDb_compiled
  have hurl : haystack (getRequest "/" "q=1--") = ("/?q=1--" : Str) := by decide +kernel
  have hempty : haystack { getRequest "/" "q=1--" with body := .buffered [] } =
      ("/?q=1--\n" : Str) := by
    decide +kernel
  have halone : Blocks searchingDb (getRequest "/" "q=1--") := by
    have hcomment : EndsInComment "/?q=1--" := ⟨"--", List.mem_cons_self, 0, by decide⟩
    obtain ⟨s, hs, -, hhits⟩ := endsInComment_iff.mp hcomment
    rw [blocks_iff, hurl, hscan]
    exact ⟨s, hs, hhits⟩
  have hhidden : ¬ Blocks searchingDb { getRequest "/" "q=1--" with body := .buffered [] } := by
    have hnone : (signatures.all fun s => !s.hits "/?q=1--\n") = true := by decide +kernel
    rw [blocks_iff, hempty, hscan]
    rintro ⟨s, hs, hhits⟩
    have hrow := List.all_eq_true.mp hnone s hs
    rw [Signature.hits_iff.mpr hhits] at hrow
    cases hrow
  refine ⟨searching_matches, searchingDb_compiled, halone, hhidden, ?_⟩
  intro hkept
  exact hhidden (hkept halone [])

end BuduWaf.Signatures
