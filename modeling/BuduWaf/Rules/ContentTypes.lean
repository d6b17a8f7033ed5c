import BuduWaf.Encodings
import BuduWaf.Plain
import BuduWaf.Rules.Multipart

/-!
# `budu-rules`: content types with parameters

* **`ContentType`**: a media type, and the boundary of a multipart one, among further parameters.
* **`bodyArgs_eq`**: the reader looks at the first and the last characters of the whole header.
* **`params_harmless_iff`**: further parameters change nothing exactly if the media type is known
  by its beginning, or the header ends in `+json` with and without them, or, in a multipart type,
  neither way and each of those before the boundary has a value.

The reader tests the whole header: how it begins, and whether it ends in `+json`. So a header is
described as a media type with pieces behind it, and the three tests are computed on that
description (`formType_header`, `jsonType_header`, `multipartType_header`). For the other direction
of the equivalence two bodies tell the readers apart: the body `0`, which is JSON and no form, and
a form of one part.
-/

namespace BuduWaf.Rules

open BuduWaf.Parser

/-! ## Headers -/

/-- White space that may stand around a parameter. -/
def IsPadding (s : Str) : Prop := ∀ c ∈ s, c = ' ' ∨ c = '\t'

/-- A parameter with white space around it. -/
structure TypeParam where
  /-- White space before it. -/
  before : Str
  /-- Its name. -/
  name : Str
  /-- Its value, if it has one. -/
  value : Option Str
  /-- White space after it. -/
  after : Str

namespace TypeParam

/-- The parameter as it is written, with its padding. -/
def text (p : TypeParam) : Str :=
  p.before ++ (p.name ++ (p.value.elim [] ('=' :: ·) ++ p.after))

/-- The parameter can be written in a header: its name is a token, and its value is text without
semicolons. -/
structure WellFormed (p : TypeParam) : Prop where
  /-- Padding. -/
  before : IsPadding p.before
  /-- Padding. -/
  after : IsPadding p.after
  /-- The name is not empty. -/
  nonempty : p.name ≠ []
  /-- The name is a token. -/
  token : ∀ c ∈ p.name, isTokenChar c = true
  /-- The value is text without semicolons. -/
  value : ∀ v ∈ p.value, ∀ c ∈ v, isHeaderChar c = true ∧ c ≠ ';'

/-- A further parameter: any but the boundary, without quotes. -/
structure Further (p : TypeParam) : Prop extends WellFormed p where
  /-- It is not the boundary. -/
  other : Str.toAsciiLowercase p.name ≠ ("boundary" : Str)
  /-- It has no quotes. -/
  unquoted : ∀ v ∈ p.value, '"' ∉ v

/-- The parameter that gives the boundary of a form. -/
structure Boundary (p : TypeParam) : Prop extends WellFormed p where
  /-- Its name, in any case. -/
  name : Str.toAsciiLowercase p.name = ("boundary" : Str)
  /-- It has a value. -/
  given : p.value.isSome = true

end TypeParam

/-- A content type without further parameters. -/
structure ContentType where
  /-- The media type, as it is written. -/
  media : Str
  /-- The boundary of a multipart type. -/
  boundary : Option TypeParam

namespace ContentType

/-- The parts of the header, with further parameters before and after the boundary. -/
def pieces (c : ContentType) (front back : List TypeParam) : List Str :=
  front.map TypeParam.text ++ (c.boundary.map TypeParam.text).toList ++ back.map TypeParam.text

/-- The value of the header: the media type and the parameters, with semicolons between them. -/
def header (c : ContentType) (front back : List TypeParam) : Str :=
  [';'].intercalate (c.media :: c.pieces front back)

end ContentType

/-- A media type `type/subtype` whose subtype ends in `+json`. -/
def IsPlusJson (media : Str) : Prop :=
  ∃ type subtype : Str, media = type ++ '/' :: subtype ∧
    (∀ c ∈ type ++ subtype, isTokenChar c = true) ∧
    ("+json" : Str) <:+ Str.toAsciiLowercase subtype

/-- The content types that the reader parses the bodies of. -/
inductive Supported : ContentType → Prop
  | simple {media : Str} (h : Str.toAsciiLowercase media ∈
      [("application/x-www-form-urlencoded" : Str), "application/json", "text/json"]) :
      Supported ⟨media, none⟩
  | plusJson {media : Str} (h : IsPlusJson media) : Supported ⟨media, none⟩
  | multipart {media : Str} {boundary : TypeParam}
      (h : Str.toAsciiLowercase media = ("multipart/form-data" : Str))
      (hboundary : boundary.Boundary) : Supported ⟨media, some boundary⟩

/-! ## Dispatch -/

/-- The header is one of an encoded form, by how it begins. -/
def formType? (ct : Str) : Bool :=
  ("application/x-www-form-urlencoded" : Str).isPrefixOf (Str.toAsciiLowercase ct)

/-- The header is one of JSON, by how it begins. -/
def jsonType? (ct : Str) : Bool :=
  ("application/json" : Str).isPrefixOf (Str.toAsciiLowercase ct) ||
    ("text/json" : Str).isPrefixOf (Str.toAsciiLowercase ct)

/-- The header is one of JSON, by how it ends. -/
def endsJson (ct : Str) : Bool := ("+json" : Str).isSuffixOf (Str.toAsciiLowercase ct)

/-- The header begins as one of a multipart form. -/
def multipartType? (ct : Str) : Bool :=
  ("multipart/form-data" : Str).isPrefixOf (Str.toAsciiLowercase ct)

/-- The arguments of a body are chosen by three tests of its content type. -/
theorem bodyArgs_eq (X : Crates) (bytes : Bytes) (ct : Str) :
    bodyArgs X bytes ct =
      if formType? ct then parsePairs (Str.fromUtf8Lossy bytes)
      else if jsonType? ct || endsJson ct then parseJsonArgs X bytes
      else if multipartType? ct then parseMultipartArgs bytes ct
      else [] := rfl

/-- What has no semicolon begins a header exactly if it begins the media type. -/
theorem isPrefixOf_header {needle : Str} (h : ';' ∉ needle) (media : Str) (pieces : List Str) :
    needle.isPrefixOf (Str.toAsciiLowercase ([';'].intercalate (media :: pieces))) =
      needle.isPrefixOf (Str.toAsciiLowercase media) := by
  cases pieces with
  | nil => simp
  | cons piece pieces =>
      have hlower : Str.toAsciiLowercase ([';'].intercalate (media :: piece :: pieces)) =
          Str.toAsciiLowercase media ++
            ';' :: Str.toAsciiLowercase ([';'].intercalate (piece :: pieces)) := by
        rw [List.intercalate_cons_cons]
        simp only [Str.toAsciiLowercase, List.map_append, List.append_assoc]
        rfl
      rw [hlower, Bool.eq_iff_iff, List.isPrefixOf_iff_prefix, List.isPrefixOf_iff_prefix]
      exact Str.prefix_append_cons_iff h _ _

section dispatch

variable (c : ContentType) (front back : List TypeParam)

/-- Parameters do not change whether a type is that of a form. -/
theorem formType_header : formType? (c.header front back) = formType? c.media :=
  isPrefixOf_header (by decide) c.media _

/-- Parameters do not change whether a type is JSON. -/
theorem jsonType_header : jsonType? (c.header front back) = jsonType? c.media := by
  have happlication := isPrefixOf_header (show ';' ∉ ("application/json" : Str) by decide) c.media
    (c.pieces front back)
  have htext := isPrefixOf_header (show ';' ∉ ("text/json" : Str) by decide) c.media
    (c.pieces front back)
  exact congrArg₂ (· || ·) happlication htext

/-- Parameters do not change whether a type is multipart. -/
theorem multipartType_header : multipartType? (c.header front back) = multipartType? c.media :=
  isPrefixOf_header (by decide) c.media _

end dispatch

/-! ## The text of a header -/

/-- A token character is a header character, and no semicolon. -/
theorem headerChar_of_token {c : Char} (h : isTokenChar c = true) :
    isHeaderChar c = true ∧ c ≠ ';' := by
  have hspecial : c ≠ ';' := by
    rintro rfl
    exact absurd h (by decide)
  unfold isTokenChar at h
  simp only [Bool.and_eq_true, decide_eq_true_eq] at h
  obtain ⟨⟨hlow, hhigh⟩, -⟩ := h
  refine ⟨?_, hspecial⟩
  simp only [isHeaderChar, Bool.or_eq_true, Bool.and_eq_true, decide_eq_true_eq]
  omega

/-- Padding has header characters only, and no semicolon. -/
theorem IsPadding.headerChar {s : Str} (h : IsPadding s) :
    ∀ c ∈ s, isHeaderChar c = true ∧ c ≠ ';' := by
  intro c hc
  rcases h c hc with rfl | rfl
  · exact ⟨by decide, by decide⟩
  · exact ⟨by decide, by decide⟩

/-- A parameter is text without semicolons. -/
theorem TypeParam.WellFormed.headerChar {p : TypeParam} (h : p.WellFormed) :
    ∀ c ∈ p.text, isHeaderChar c = true ∧ c ≠ ';' := by
  intro c hc
  rcases List.mem_append.mp hc with hc | hc
  · exact h.before.headerChar c hc
  · rcases List.mem_append.mp hc with hc | hc
    · exact headerChar_of_token (h.token c hc)
    · rcases List.mem_append.mp hc with hc | hc
      · cases hvalue : p.value with
        | none =>
            rw [hvalue] at hc
            cases hc
        | some v =>
            rw [hvalue] at hc
            rcases List.mem_cons.mp hc with rfl | hc
            · exact ⟨by decide, by decide⟩
            · exact h.value v hvalue c hc
      · exact h.after.headerChar c hc

/-- A character whose lower case is text is text itself. -/
theorem headerChar_of_toLower {c : Char} (h : isHeaderChar c.toLower = true ∧ c.toLower ≠ ';') :
    isHeaderChar c = true ∧ c ≠ ';' := by
  by_cases hupper : c.val ≥ 'A'.val ∧ c.val ≤ 'Z'.val
  · have hlow : 65 ≤ c.toNat := hupper.1
    have hhigh : c.toNat ≤ 90 := hupper.2
    refine ⟨?_, ?_⟩
    · simp only [isHeaderChar, Bool.or_eq_true, Bool.and_eq_true, decide_eq_true_eq]
      omega
    · rintro rfl
      exact absurd hlow (by decide)
  · have hsame : c.toLower = c := by
      unfold Char.toLower
      rw [dif_neg hupper]
    rwa [hsame] at h

/-- A media type whose lower case has header characters only, and no semicolon, has so itself. -/
theorem headerChar_of_lower {media lower : Str} (h : Str.toAsciiLowercase media = lower)
    (hlower : (lower.all fun c => isHeaderChar c && c != ';') = true) :
    ∀ c ∈ media, isHeaderChar c = true ∧ c ≠ ';' := by
  intro c hc
  have hmem : c.toLower ∈ lower := by
    rw [← h]
    exact List.mem_map.mpr ⟨c, hc, rfl⟩
  have hchar := List.all_eq_true.mp hlower _ hmem
  rw [Bool.and_eq_true, bne_iff_ne] at hchar
  exact headerChar_of_toLower hchar

/-- A supported media type has header characters only, and no semicolon. -/
theorem Supported.headerChar {c : ContentType} (h : Supported c) :
    ∀ d ∈ c.media, isHeaderChar d = true ∧ d ≠ ';' := by
  cases h with
  | simple h =>
      simp only [List.mem_cons, List.not_mem_nil, or_false] at h
      rcases h with h | h | h
      · exact headerChar_of_lower h (by decide)
      · exact headerChar_of_lower h (by decide)
      · exact headerChar_of_lower h (by decide)
  | plusJson h =>
      obtain ⟨type, subtype, hmedia, htoken, -⟩ := h
      intro d hd
      have hcases : d ∈ type ++ '/' :: subtype := hmedia ▸ hd
      rcases List.mem_append.mp hcases with hd | hd
      · exact headerChar_of_token (htoken d (List.mem_append_left _ hd))
      · rcases List.mem_cons.mp hd with rfl | hd
        · exact ⟨by decide, by decide⟩
        · exact headerChar_of_token (htoken d (List.mem_append_right _ hd))
  | multipart h _ => exact headerChar_of_lower h (by decide)

/-- Further parameters that can be written. -/
def Params (params : List TypeParam) : Prop := ∀ p ∈ params, p.Further

/-- An empty list of parameters is one of parameters without a boundary. -/
theorem Params.nil : Params [] := fun _ hp => absurd hp List.not_mem_nil

section header

variable {c : ContentType} (hc : Supported c) {front back : List TypeParam} (hfront : Params front)
  (hback : Params back)

include hc hfront hback

/-- The pieces of a header between semicolons have header characters only, and no semicolon. -/
theorem headerChar_of_mem_pieces :
    ∀ piece ∈ c.media :: c.pieces front back, ∀ d ∈ piece, isHeaderChar d = true ∧ d ≠ ';' := by
  intro piece hpiece
  rcases List.mem_cons.mp hpiece with rfl | hpiece
  · exact hc.headerChar
  · rcases List.mem_append.mp hpiece with hpiece | hpiece
    · rcases List.mem_append.mp hpiece with hpiece | hpiece
      · obtain ⟨p, hp, rfl⟩ := List.mem_map.mp hpiece
        exact (hfront p hp).headerChar
      · cases hc with
        | simple _ => cases hpiece
        | plusJson _ => cases hpiece
        | multipart _ hboundary =>
            obtain rfl := List.mem_singleton.mp hpiece
            exact hboundary.headerChar
    · obtain ⟨p, hp, rfl⟩ := List.mem_map.mp hpiece
      exact (hback p hp).headerChar

/-- A header with parameters has header characters only. -/
theorem headerChar_of_mem_header : ∀ d ∈ c.header front back, isHeaderChar d = true :=
  Str.forall_mem_intercalate (by decide) fun piece hpiece d hd =>
    (headerChar_of_mem_pieces hc hfront hback piece hpiece d hd).1

/-- The reader cuts the header into its media type and its parameters. -/
theorem splitOn_header :
    (c.header front back).splitOn ';' = c.media :: c.pieces front back := by
  apply List.splitOn_intercalate
  · intro piece hpiece hmem
    exact (headerChar_of_mem_pieces hc hfront hback piece hpiece ';' hmem).2 rfl
  · exact List.cons_ne_nil _ _

/-- The boundary is looked for in the pieces of the header between semicolons. -/
theorem extractBoundary_header :
    extractBoundary (c.header front back) = boundaryOf (c.pieces front back) := by
  unfold extractBoundary
  rw [splitOn_header hc hfront hback]
  rfl

end header

/-! ## The boundary -/

/-- Trimming at the end stops at what is no white space. -/
theorem rdropWhile_append_cons {p : Char → Bool} {c : Char} (h : p c = false) (a b : Str) :
    (a ++ c :: b).rdropWhile p = a ++ c :: b.rdropWhile p := by
  unfold List.rdropWhile
  have hreverse : (a ++ c :: b).reverse = b.reverse ++ c :: a.reverse := by simp
  rw [hreverse, List.dropWhile_append]
  by_cases hall : (b.reverse.dropWhile p).isEmpty
  · rw [if_pos hall, List.isEmpty_iff.mp hall, List.dropWhile_cons_of_neg (by simp [h])]
    simp
  · rw [if_neg hall]
    simp

/-- Padding is white space, so the reader trims it off. -/
theorem IsPadding.isWhitespace {s : Str} (h : IsPadding s) :
    ∀ c ∈ s, Str.isWhitespace c = true := by
  intro c hc
  rcases h c hc with rfl | rfl
  · decide
  · decide

/-- A token character is no white space. -/
theorem isWhitespace_of_token {c : Char} (h : isTokenChar c = true) :
    Str.isWhitespace c = false := by
  unfold isTokenChar at h
  simp only [Bool.and_eq_true, decide_eq_true_eq] at h
  exact Str.isWhitespace_of_visible h.1

/-- A token has no character but token characters. -/
theorem notMem_of_token {s : Str} (h : ∀ c ∈ s, isTokenChar c = true) {d : Char}
    (hd : isTokenChar d = false) : d ∉ s := by
  intro hmem
  rw [h d hmem] at hd
  cases hd

namespace TypeParam

variable {p : TypeParam} (h : p.WellFormed)

include h

/-- A parameter with a value is cut behind its name. -/
theorem WellFormed.splitOnce {v : Str} (hvalue : p.value = some v) :
    Str.splitOnce '=' (Str.trim p.text) =
      some (p.name, (v ++ p.after).rdropWhile Str.isWhitespace) := by
  have htext : p.text = p.before ++ (p.name ++ '=' :: (v ++ p.after)) := by
    rw [text, hvalue]
    rfl
  have hstart : p.text.dropWhile Str.isWhitespace = p.name ++ '=' :: (v ++ p.after) := by
    rw [htext, List.dropWhile_append_of_pos h.before.isWhitespace]
    cases hname : p.name with
    | nil => exact absurd hname h.nonempty
    | cons c name =>
        have hc : isTokenChar c = true := h.token c (hname ▸ List.mem_cons_self)
        rw [List.cons_append, List.dropWhile_cons_of_neg (by simp [isWhitespace_of_token hc])]
  have hsign : Str.isWhitespace '=' = false := by decide
  have hnone : '=' ∉ p.name := notMem_of_token h.token (by decide)
  unfold Str.trim
  rw [hstart, rdropWhile_append_cons hsign]
  exact Str.splitOnce_append hnone _

/-- A parameter without a value has no `=`. -/
theorem WellFormed.splitOnce_none (hvalue : p.value = none) :
    Str.splitOnce '=' (Str.trim p.text) = none := by
  rw [Str.splitOnce_eq_none_iff]
  intro hmem
  have hsign := Str.mem_of_mem_trim hmem
  rw [text, hvalue] at hsign
  have hname : '=' ∉ p.name := notMem_of_token h.token (by decide)
  have hbefore : '=' ∉ p.before := fun hc => by
    rcases h.before _ hc with heq | heq <;> exact absurd heq (by decide)
  have hafter : '=' ∉ p.after := fun hc => by
    rcases h.after _ hc with heq | heq <;> exact absurd heq (by decide)
  simp [hname, hbefore, hafter] at hsign

/-- The name of a parameter has no white space to trim. -/
theorem WellFormed.trim_name : Str.trim p.name = p.name :=
  Str.trim_of_forall fun c hc => isWhitespace_of_token (h.token c hc)

end TypeParam

/-- The boundary as it is read: trimmed, and without its quotes. -/
def readBoundary (p : TypeParam) : Str :=
  Str.trimMatches '"'
    (Str.trim ((p.value.getD [] ++ p.after).rdropWhile Str.isWhitespace))

/-- Further parameters are passed over if they have a value, and else end the search. -/
theorem boundaryOf_further {p : TypeParam} (h : p.Further) (rest : List Str) :
    boundaryOf (p.text :: rest) = if p.value.isSome then boundaryOf rest else none := by
  cases hvalue : p.value with
  | none =>
      have hcut := h.toWellFormed.splitOnce_none hvalue
      simp [boundaryOf, hcut]
  | some v =>
      have hcut := h.toWellFormed.splitOnce hvalue
      have hother : eqIgnoreAsciiCase (Str.trim p.name) "boundary" = false := by
        rw [h.toWellFormed.trim_name]
        exact beq_eq_false_iff_ne.mpr h.other
      simp only [boundaryOf, hcut, hother, Option.isSome_some, if_true, Bool.false_eq_true,
        if_false]

/-- A piece that is a boundary parameter ends the search, with what is read of it. -/
theorem boundaryOf_boundary {p : TypeParam} (h : p.Boundary) (rest : List Str) :
    boundaryOf (p.text :: rest) = some (readBoundary p) := by
  obtain ⟨v, hvalue⟩ := Option.isSome_iff_exists.mp h.given
  have hcut := h.toWellFormed.splitOnce hvalue
  have hname : eqIgnoreAsciiCase (Str.trim p.name) "boundary" = true := by
    rw [h.toWellFormed.trim_name]
    exact beq_iff_eq.mpr h.name
  simp only [boundaryOf, hcut, hname, if_true, readBoundary, hvalue, Option.getD_some]

/-- **The boundary is found** unless a parameter without a value stands before it. -/
theorem boundaryOf_pieces {front : List TypeParam} (hfront : Params front) {p : TypeParam}
    (h : p.Boundary) (back : List Str) :
    boundaryOf (front.map TypeParam.text ++ p.text :: back) =
      if ∀ q ∈ front, q.value.isSome = true then some (readBoundary p) else none := by
  induction front with
  | nil => simp [boundaryOf_boundary h]
  | cons q front ih =>
      obtain ⟨hq, hrest⟩ := List.forall_mem_cons.mp hfront
      have hothers := ih hrest
      rw [List.map_cons, List.cons_append, boundaryOf_further hq, hothers]
      by_cases hvalue : q.value.isSome = true
      · simp [hvalue]
      · simp [hvalue]

/-! ## Two bodies that tell the readers apart -/

/-- The body `0`, which is a JSON number. -/
def zeroBody : Bytes := [0x30]

/-- What follows the boundary in a form of one part. -/
def probePart : Bytes := Str.utf8 "\r\nContent-Disposition:;name=a\r\n\r\n"

/-- A form of one part, with this boundary. -/
def probeForm (boundary : Str) : Bytes := (dashes ++ Str.utf8 boundary) ++ probePart

/-- The body `0` is no multipart form, whatever the boundary. -/
theorem parseMultipartArgs_zero (ct : Str) : parseMultipartArgs zeroBody ct = [] := by
  unfold parseMultipartArgs
  cases extractBoundary ct with
  | none => rfl
  | some boundary =>
      have hfree : ¬ dashes ++ Str.utf8 boundary <:+: zeroBody := by
        intro h
        have hlength := h.length_le
        simp [dashes, zeroBody] at hlength
      have hnone : multipartArg zeroBody = none := by decide +kernel
      have hone : splitOn zeroBody (dashes ++ Str.utf8 boundary) = [zeroBody] :=
        Str.splitSub_uncut hfree
      dsimp only
      rw [hone, List.filterMap_cons_none hnone, List.filterMap_nil]

/-- The probing form has its one part, where the header has its boundary. -/
theorem parseMultipartArgs_probe {ct boundary : Str} (h : extractBoundary ct = some boundary) :
    parseMultipartArgs (probeForm boundary) ct = [(("a" : Str), [])] := by
  have hfree : ¬ dashes ++ Str.utf8 boundary <:+: probePart := by
    intro hoccurs
    have hdashes : dashes <:+: probePart := (List.prefix_append _ _).isInfix.trans hoccurs
    exact absurd hdashes (by decide +kernel)
  have hcut : splitOn (probeForm boundary) (dashes ++ Str.utf8 boundary) = [[], probePart] := by
    have hneedle : dashes ++ Str.utf8 boundary ≠ [] := by simp [dashes]
    have hfirst : Str.splitSub (dashes ++ Str.utf8 boundary) (probeForm boundary) =
        [] :: Str.splitSub (dashes ++ Str.utf8 boundary) probePart :=
      Str.splitSubFrom_needle hneedle [] probePart
    exact hfirst.trans (congrArg ([] :: ·) (Str.splitSub_uncut hfree))
  have hempty : multipartArg [] = none := by decide +kernel
  have hpart : multipartArg probePart = some (("a" : Str), []) := by decide +kernel
  unfold parseMultipartArgs
  rw [h]
  dsimp only
  rw [hcut, List.filterMap_cons_none hempty, List.filterMap_cons_some hpart, List.filterMap_nil]

/-! ## Parameters that change nothing -/

/-- A request with a buffered body and a content type. -/
def withBody (ctx : RequestCtx) (ct : Str) (bytes : Bytes) : RequestCtx :=
  { ctx with headers := ctx.headers.insert "content-type" (Str.utf8 ct), body := .buffered bytes }

/-- A header that was inserted is found. -/
theorem get_insert (headers : HeaderMap) (name : Str) (v : Bytes) :
    (headers.insert name v).get name = some v := by
  have hnone : (headers.remove name).entries.find?
      (fun e => e.1 == Str.toAsciiLowercase name) = none := by
    rw [List.find?_eq_none]
    intro e he
    have hother := (List.mem_filter.mp he).2
    simpa using hother
  unfold HeaderMap.get HeaderMap.insert
  rw [List.find?_append, hnone]
  simp

/-- The arguments of a request with a body are those of its query, then those of the body by its
type. -/
theorem collectArgs_withBody (X : Crates) (ctx : RequestCtx) {ct : Str}
    (hct : ∀ c ∈ ct, isHeaderChar c = true) (bytes : Bytes) :
    collectArgs X (withBody ctx ct bytes) =
      ctx.query.elim [] parsePairs ++ bodyArgs X bytes ct := by
  have hread : ((withBody ctx ct bytes).headers.get "content-type").bind headerToStr = some ct := by
    unfold withBody
    rw [get_insert, Option.bind_some, headerToStr_utf8 hct]
  unfold collectArgs
  rw [hread]
  rfl

/-- With the further parameters the reader gives the same for every request as without. -/
def ParamsHarmless (X : Crates) (c : ContentType) (front back : List TypeParam) : Prop :=
  ∀ (ctx : RequestCtx) (bytes : Bytes),
    collectArgs X (withBody ctx (c.header front back) bytes) =
      collectArgs X (withBody ctx (c.header [] []) bytes)

/-- The media type is known by its beginning; or the header ends in `+json` with and without the
parameters; or it does so neither way, and each parameter before the boundary has a value. -/
def HarmlessWhen (c : ContentType) (front back : List TypeParam) : Prop :=
  formType? c.media = true ∨ jsonType? c.media = true ∨
    (endsJson (c.header front back) = true ∧ endsJson (c.header [] []) = true) ∨
    (endsJson (c.header front back) = false ∧ endsJson (c.header [] []) = false ∧
      ∀ p ∈ front, p.value.isSome = true)

/-- A type that is not known by its beginning ends in `+json`, or is multipart. -/
theorem Supported.cases_of_other {c : ContentType} (hc : Supported c)
    (hform : formType? c.media = false)
    (hjson : jsonType? c.media = false) :
    endsJson (c.header [] []) = true ∨
      ∃ p : TypeParam, p.Boundary ∧ c.boundary = some p ∧ multipartType? c.media = true := by
  cases hc with
  | @simple media h =>
      simp only [List.mem_cons, List.not_mem_nil, or_false] at h
      unfold formType? at hform
      unfold jsonType? at hjson
      rcases h with h | h | h
      · rw [h] at hform
        exact absurd hform (by decide)
      · rw [h] at hjson
        exact absurd hjson (by decide)
      · rw [h] at hjson
        exact absurd hjson (by decide)
  | @plusJson media h =>
      obtain ⟨type, subtype, rfl, -, hends⟩ := h
      left
      have hheader : (ContentType.mk (type ++ '/' :: subtype) none).header [] [] =
          type ++ '/' :: subtype := by
        simp [ContentType.header, ContentType.pieces]
      unfold endsJson
      rw [hheader, List.isSuffixOf_iff_suffix]
      unfold Str.toAsciiLowercase
      rw [List.map_append, List.map_cons]
      exact hends.trans ((List.suffix_cons _ _).trans (List.suffix_append _ _))
  | multipart h hboundary =>
      right
      refine ⟨_, hboundary, rfl, ?_⟩
      unfold multipartType?
      rw [h]
      decide

/-- What the reader does where the media type is not known by its beginning. -/
theorem bodyArgs_header (X : Crates) {c : ContentType} (front back : List TypeParam)
    (hform : formType? c.media = false) (hjson : jsonType? c.media = false) (bytes : Bytes) :
    bodyArgs X bytes (c.header front back) =
      if endsJson (c.header front back) then parseJsonArgs X bytes
      else if multipartType? c.media then parseMultipartArgs bytes (c.header front back)
      else [] := by
  rw [bodyArgs_eq, formType_header, jsonType_header, multipartType_header, hform, hjson]
  rfl

section harmless

variable (X : Crates) {c : ContentType} (hc : Supported c) {front back : List TypeParam}
  (hfront : Params front) (hback : Params back)

include hc hfront hback

/-- Parameters are harmless iff every body has the same arguments with and without them. -/
theorem paramsHarmless_iff_bodyArgs :
    ParamsHarmless X c front back ↔
      ∀ bytes, bodyArgs X bytes (c.header front back) = bodyArgs X bytes (c.header [] []) := by
  have hfull := headerChar_of_mem_header hc hfront hback
  have hbase := headerChar_of_mem_header hc Params.nil Params.nil
  unfold ParamsHarmless
  constructor
  · intro h bytes
    have hsame := h ⟨[], [], none, .empty, ⟨.v4 0#32, none⟩, .notBuffered, .default⟩ bytes
    rw [collectArgs_withBody X _ hfull, collectArgs_withBody X _ hbase] at hsame
    exact List.append_cancel_left hsame
  · intro h ctx bytes
    rw [collectArgs_withBody X _ hfull, collectArgs_withBody X _ hbase, h bytes]

/-- In a multipart type the parameters change nothing exactly if each one before the boundary has
a value. -/
theorem multipart_harmless_iff {p : TypeParam} (hp : p.Boundary) (hboundary : c.boundary = some p) :
    (∀ bytes, parseMultipartArgs bytes (c.header front back) =
        parseMultipartArgs bytes (c.header [] [])) ↔
      ∀ q ∈ front, q.value.isSome = true := by
  have hpieces : ∀ front back, c.pieces front back =
      front.map TypeParam.text ++ p.text :: back.map TypeParam.text := by
    intro front back
    simp [ContentType.pieces, hboundary]
  have hfull : extractBoundary (c.header front back) =
      if ∀ q ∈ front, q.value.isSome = true then some (readBoundary p) else none := by
    rw [extractBoundary_header hc hfront hback, hpieces]
    exact boundaryOf_pieces hfront hp _
  have hbase : extractBoundary (c.header [] []) = some (readBoundary p) := by
    rw [extractBoundary_header hc Params.nil Params.nil, hpieces]
    exact boundaryOf_boundary hp _
  constructor
  · intro h
    by_contra hvalue
    have hsame := h (probeForm (readBoundary p))
    rw [parseMultipartArgs_probe hbase] at hsame
    rw [if_neg hvalue] at hfull
    unfold parseMultipartArgs at hsame
    rw [hfull] at hsame
    cases hsame
  · intro hvalue bytes
    rw [if_pos hvalue] at hfull
    unfold parseMultipartArgs
    rw [hfull, hbase]

omit hc hfront hback in
/-- A media type known by its beginning is read in one way, whatever follows it. -/
theorem bodyArgs_of_known (hknown : formType? c.media = true ∨ jsonType? c.media = true)
    (bytes : Bytes) :
    bodyArgs X bytes (c.header front back) = bodyArgs X bytes (c.header [] []) := by
  rw [bodyArgs_eq, bodyArgs_eq, formType_header, formType_header, jsonType_header,
    jsonType_header]
  rcases hknown with hform | hjson
  · rw [hform]
    rfl
  · rw [hjson]
    rfl

omit hc hfront hback in
/-- The reader of a body that is a number tells whether the header ends in `+json`. -/
theorem endsJson_eq_of_harmless (hform : formType? c.media = false)
    (hjson : jsonType? c.media = false) (hzero : X.jsonFromSlice zeroBody = some (.number "0"))
    (h : ∀ bytes, bodyArgs X bytes (c.header front back) = bodyArgs X bytes (c.header [] [])) :
    endsJson (c.header front back) = endsJson (c.header [] []) := by
  have hread : ∀ front back, bodyArgs X zeroBody (c.header front back) =
      if endsJson (c.header front back) then [([], ("0" : Str))] else [] := by
    intro front back
    have hnumber : parseJsonArgs X zeroBody = [([], ("0" : Str))] := by
      unfold parseJsonArgs
      rw [hzero]
      rfl
    rw [bodyArgs_header X front back hform hjson, hnumber, parseMultipartArgs_zero, ite_self]
  have hsame := h zeroBody
  rw [hread, hread] at hsame
  cases hfull : endsJson (c.header front back) with
  | true =>
      cases hbase : endsJson (c.header [] []) with
      | true => rfl
      | false => simp [hfull, hbase] at hsame
  | false =>
      cases hbase : endsJson (c.header [] []) with
      | true => simp [hfull, hbase] at hsame
      | false => rfl

/-- **Content-type parameters** change nothing, whatever the body, exactly if the media type is
known by its beginning, or the header ends in `+json` with and without them, or neither way and
each one before a boundary has a value. -/
theorem params_harmless_iff (hzero : X.jsonFromSlice zeroBody = some (.number "0")) :
    ParamsHarmless X c front back ↔ HarmlessWhen c front back := by
  rw [paramsHarmless_iff_bodyArgs X hc hfront hback]
  by_cases hknown : formType? c.media = true ∨ jsonType? c.media = true
  · have hwhen : HarmlessWhen c front back := hknown.elim .inl fun h => .inr (.inl h)
    exact iff_of_true (fun bytes => bodyArgs_of_known X hknown bytes) hwhen
  · obtain ⟨hform, hjson⟩ := not_or.mp hknown
    rw [Bool.not_eq_true] at hform hjson
    have hread := bodyArgs_header X front back hform hjson
    have hread' := bodyArgs_header X [] [] hform hjson
    have hends : (∀ bytes, bodyArgs X bytes (c.header front back) =
        bodyArgs X bytes (c.header [] [])) →
        endsJson (c.header front back) = endsJson (c.header [] []) :=
      endsJson_eq_of_harmless X hform hjson hzero
    unfold HarmlessWhen
    simp only [hform, hjson, Bool.false_eq_true, false_or]
    cases hbase : endsJson (c.header [] []) with
    | true =>
        rw [hbase] at hends hread'
        simp only [Bool.true_eq_false, false_and, and_false, or_false, and_true]
        constructor
        · exact hends
        · intro hfull bytes
          rw [hread, hread', hfull]
          rfl
    | false =>
        obtain ⟨p, hp, hboundary, hmultipart⟩ :=
          (hc.cases_of_other hform hjson).resolve_left (by simp [hbase])
        have hiff := multipart_harmless_iff hc hfront hback hp hboundary
        rw [hbase] at hends hread'
        simp only [Bool.false_eq_true, and_false, true_and, false_or]
        rw [← hiff]
        constructor
        · intro h
          have hfull := hends h
          refine ⟨hfull, ?_⟩
          intro bytes
          have hsame := h bytes
          rwa [hread, hread', hfull, hmultipart] at hsame
        · rintro ⟨hfull, h⟩ bytes
          rw [hread, hread', hfull, hmultipart]
          exact h bytes

end harmless

/-! ### Parameters that switch the parser off -/

/-- A plain build whose JSON reader reads this body as a number. -/
def numberBuild : Crates :=
  .plain .none
    { Readers.none with json := fun b => if b = zeroBody then some (.number "0") else none }

/-- A parameter with a blank in front of it. -/
def blankParam (name : Str) (value : Option Str) : TypeParam := ⟨[' '], name, value, []⟩

/-- `charset=utf-8` is a parameter other than the boundary. -/
theorem further_charset : Params [blankParam "charset" (some "utf-8")] := by
  intro p hp
  obtain rfl := List.mem_singleton.mp hp
  refine ⟨⟨?_, ?_, by decide, ?_, ?_⟩, by decide, ?_⟩
  · intro c hc
    exact .inl (List.mem_singleton.mp hc)
  · intro c hc
    cases hc
  · exact List.all_eq_true.mp (by decide)
  · intro v hv c hc
    obtain rfl := Option.some.inj hv
    have hall : (("utf-8" : Str).all fun c => isHeaderChar c && c != ';') = true := by decide
    have hchar := List.all_eq_true.mp hall c hc
    rwa [Bool.and_eq_true, bne_iff_ne] at hchar
  · intro v hv
    obtain rfl := Option.some.inj hv
    decide

/-- The build of the example reads the document `0`. -/
theorem number_read : numberBuild.jsonFromSlice zeroBody = some (.number "0") := by
  show (if zeroBody = zeroBody then some (Json.number "0") else none) = some (.number "0")
  exact if_pos rfl

/-- A charset behind `Application/JSON` is harmless exactly where the condition says so. -/
theorem json_charset_harmless :
    ParamsHarmless numberBuild ⟨"Application/JSON", none⟩ []
        [blankParam "charset" (some "utf-8")] ↔
      HarmlessWhen ⟨"Application/JSON", none⟩ [] [blankParam "charset" (some "utf-8")] :=
  params_harmless_iff numberBuild (.simple (by decide)) Params.nil further_charset
    number_read

/-- The parameter that gives the boundary `B`. -/
def boundaryParam : TypeParam := ⟨[' '], "boundary", some "B", []⟩

/-- A character set behind a `+json` type, a parameter without a value before the boundary, and a
parameter that ends in `+json` behind it each switch the parser off. -/
theorem parameters_switch_off :
    ¬ ParamsHarmless numberBuild ⟨"application/ld+json", none⟩ []
        [blankParam "charset" (some "utf-8")] ∧
      ¬ ParamsHarmless numberBuild ⟨"multipart/form-data", some boundaryParam⟩
        [blankParam "x" none] [] ∧
      ¬ ParamsHarmless numberBuild ⟨"multipart/form-data", some boundaryParam⟩ []
        [blankParam "x" (some "a+json")] := by
  have hdiffer : ∀ (c : ContentType) (front back : List TypeParam) (bytes : Bytes),
      collectArgs numberBuild (withBody ⟨[], [], none, .empty, ⟨.v4 0#32, none⟩, .notBuffered,
          .default⟩ (c.header front back) bytes) ≠
        collectArgs numberBuild (withBody ⟨[], [], none, .empty, ⟨.v4 0#32, none⟩, .notBuffered,
          .default⟩ (c.header [] []) bytes) → ¬ ParamsHarmless numberBuild c front back := by
    intro c front back bytes hne h
    exact hne (h _ bytes)
  refine ⟨hdiffer _ _ _ zeroBody ?_, hdiffer _ _ _ (probeForm "B") ?_,
    hdiffer _ _ _ (probeForm "B") ?_⟩
  · decide +kernel
  · decide +kernel
  · decide +kernel

end BuduWaf.Rules
