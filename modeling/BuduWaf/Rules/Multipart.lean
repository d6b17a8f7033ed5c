import BuduWaf.Lib.Decimal
import BuduWaf.Lib.Split
import BuduWaf.Rules.Fields

/-!
# `budu-rules`: the parameters of a multipart body

Parts of a form are written with a boundary line before each of them; the reader cuts the body
at the boundary wherever it stands, not only at the start of a line.

* **`FormPart`**, **`encodeForm`**: parts, and the body that is sent for them.
* **`splitSub_encodeForm`**: where the reader cuts the body.
* **`multipart_args_iff`**: it gives exactly the parts' names and values, in order, if and only
  if no value has the boundary in it, and what follows a boundary in an uploaded file never reads
  as a part of its own.

The proof follows the bytes of an encoded form. A header block has no delimiter in it, as every part
of it ends in a character that no delimiter has (`not_delimiter_infix_head`), so a part's segment is
cut only where its content is (`splitSub_segment`). Of each segment the reader makes at most one
argument, and of the first one exactly the part's own (`multipartArg_head`). What remains are the
pieces behind a boundary within a content, and the condition is that there are none that count.

Counting lines of arguments settles the other direction: too many or too few pieces never give the
same list (`flatMap_cons_eq_map_iff`).
-/

namespace BuduWaf.Rules

/-! ## Forms -/

/-- One part of a form, as a browser sends it. -/
structure FormPart where
  /-- The field. -/
  name : Str
  /-- The name of an uploaded file. -/
  filename : Option Str
  /-- The media type line. -/
  contentType : Option Str
  /-- The value, or the content of the file. -/
  value : Str
deriving DecidableEq

/-- A character of a boundary that is sent without quotes: visible ASCII, none of the special
ones. -/
def isTokenChar (c : Char) : Bool :=
  0x21 ≤ c.toNat && c.toNat ≤ 0x7E && !List.elem c ("()<>@,;:\\\"/[]?=" : Str)

/-- A boundary that can be written without quotes. -/
structure IsBoundary (boundary : Str) : Prop where
  /-- It is not empty. -/
  nonempty : boundary ≠ []
  /-- It needs no quotes. -/
  token : ∀ c ∈ boundary, isTokenChar c = true

/-- What the reader cuts at: two dashes and the boundary. -/
def delimiter (boundary : Str) : Str := '-' :: '-' :: boundary

/-- The content type of a form with this boundary. -/
def formType (boundary : Str) : Str := ("multipart/form-data; boundary=" : Str) ++ boundary

/-- The end of a line in a form: a carriage return and a line feed. -/
def newline : Str := "\r\n"

/-- A parameter of a header line, with its value in quotes. -/
def quotedParam (key s : Str) : Str := ' ' :: (key ++ '"' :: (s ++ ['"']))

namespace FormPart

/-- The parameters of the disposition line. -/
def params (p : FormPart) : List Str :=
  " form-data" :: quotedParam "name=" p.name :: (p.filename.map (quotedParam "filename=")).toList

/-- The disposition line of a part, with its parameters. -/
def disposition (p : FormPart) : Str :=
  ("Content-Disposition" : Str) ++ ':' :: [';'].intercalate p.params

/-- The header block of a part: its disposition line, and the media type if it has one. -/
def head (p : FormPart) : Str :=
  p.disposition ++ p.contentType.elim [] fun t => newline ++ (("Content-Type: " : Str) ++ t)

example : (FormPart.mk "doc" (some "a.txt") (some "text/plain") "hi").head =
    ("Content-Disposition: form-data; name=\"doc\"; filename=\"a.txt\"\r\n" : Str) ++
      ("Content-Type: text/plain" : Str) := by
  decide

/-- What stands between two boundaries. -/
def segment (p : FormPart) : Str :=
  newline ++ p.head ++ newline ++ newline ++ p.value ++ newline

/-- Name and value, or name and file name. -/
def argument (p : FormPart) : Str × Str := (p.name, p.filename.getD p.value)

/-- A text that may stand in a header line. -/
structure FitsLine (boundary s : Str) : Prop where
  /-- It has no line end in it. -/
  line : '\r' ∉ s ∧ '\n' ∉ s
  /-- It has no boundary in it. -/
  free : ¬ delimiter boundary <:+: s

/-- A text that may stand in a quoted parameter. -/
structure FitsQuotes (boundary s : Str) : Prop extends FitsLine boundary s where
  /-- It has no quote and no semicolon in it. -/
  quoted : '"' ∉ s ∧ ';' ∉ s

/-- The header block of a part can be written, in lines and without a quote in its quoted values. -/
structure WellFormed (boundary : Str) (p : FormPart) : Prop where
  /-- The name. -/
  name : FitsQuotes boundary p.name
  /-- The file name. -/
  filename : ∀ f ∈ p.filename, FitsQuotes boundary f
  /-- The media type. -/
  contentType : ∀ t ∈ p.contentType, FitsLine boundary t

end FormPart

/-- The body of a form: each part behind a delimiter, and a closing delimiter. -/
def encodeForm (boundary : Str) (parts : List FormPart) : Bytes :=
  Str.utf8 ((parts.flatMap fun p => delimiter boundary ++ p.segment) ++
    delimiter boundary ++ ['-', '-'] ++ newline)

/-! ## Boundaries -/

section boundary

variable {boundary : Str} (hboundary : IsBoundary boundary)

include hboundary

/-- A character that is not a token's is not in the delimiter. -/
theorem notMem_delimiter {c : Char} (hdash : c ≠ '-') (hc : isTokenChar c = false) :
    c ∉ delimiter boundary := by
  intro hmem
  rcases List.mem_cons.mp hmem with h | hmem
  · exact hdash h
  · rcases List.mem_cons.mp hmem with h | hmem
    · exact hdash h
    · rw [hboundary.token c hmem] at hc
      cases hc

/-- The reader finds the boundary in the content type. -/
theorem extractBoundary_formType : extractBoundary (formType boundary) = some boundary := by
  have hnotMem : ∀ c, isTokenChar c = false → c ∉ boundary := by
    intro c hc hmem
    rw [hboundary.token c hmem] at hc
    cases hc
  have hvisible : ∀ c ∈ boundary, Str.isWhitespace c = false := by
    intro c hc
    have htoken := hboundary.token c hc
    unfold isTokenChar at htoken
    simp only [Bool.and_eq_true, decide_eq_true_eq] at htoken
    exact Str.isWhitespace_of_visible htoken.1
  have htype : formType boundary =
      ("multipart/form-data" : Str) ++ ';' :: ' ' :: (("boundary" : Str) ++ '=' :: boundary) := by
    have hliteral : ("multipart/form-data; boundary=" : Str) =
        ("multipart/form-data" : Str) ++ ';' :: ' ' :: (("boundary" : Str) ++ ['=']) := by
      decide
    have hassoc : ∀ a k b : Str,
        (a ++ ';' :: ' ' :: (k ++ ['='])) ++ b = a ++ ';' :: ' ' :: (k ++ '=' :: b) := by
      intro a k b
      simp
    exact (congrArg (· ++ boundary) hliteral).trans (hassoc _ _ _)
  have hone : ';' ∉ ' ' :: (("boundary" : Str) ++ '=' :: boundary) := by
    intro hmem
    have hcases : ';' ∈ (" boundary=" : Str) ∨ ';' ∈ boundary := List.mem_append.mp hmem
    rcases hcases with h | h
    · exact absurd h (by decide)
    · exact hnotMem ';' (by decide) h
  have htrim : Str.trim (' ' :: (("boundary" : Str) ++ '=' :: boundary)) =
      ("boundary" : Str) ++ '=' :: boundary := by
    rw [Str.trim_blank]
    refine Str.trim_of_forall ?_
    have hkey : (("boundary=" : Str).all fun c => !Str.isWhitespace c) = true := by decide
    intro c hc
    have hcases : c ∈ ("boundary=" : Str) ∨ c ∈ boundary := List.mem_append.mp hc
    exact hcases.elim (fun h => by simpa using List.all_eq_true.mp hkey c h) (hvisible c)
  have hcut : Str.splitOnce '=' (("boundary" : Str) ++ '=' :: boundary) =
      some (("boundary" : Str), boundary) := Str.splitOnce_append (by decide) boundary
  have hkey : eqIgnoreAsciiCase (Str.trim ("boundary" : Str)) "boundary" = true := by decide
  unfold extractBoundary
  rw [htype, List.splitOn_append_cons_self_of_not_mem (by decide), List.splitOn_eq_singleton hone]
  rw [List.drop_one, List.tail_cons, boundaryOf]
  rw [htrim, hcut]
  simp only [hkey, if_true]
  rw [Str.trim_of_forall hvisible, Str.trimMatches_of_notMem (hnotMem '"' (by decide))]

end boundary

/-! ## The header block -/

/-- A character that is in none of the parameters is not in their list. -/
theorem notMem_intercalate {sep c : Char} (hsep : c ≠ sep) {parts : List Str}
    (h : ∀ part ∈ parts, c ∉ part) : c ∉ [sep].intercalate parts := by
  intro hmem
  have hother : ∀ d ∈ [sep].intercalate parts, c ≠ d :=
    Str.forall_mem_intercalate hsep fun part hpart d hd heq => h part hpart (heq ▸ hd)
  exact hother c hmem rfl

/-- A character that is neither blank nor quote nor in name and value is not in the parameter as it
is written. -/
theorem notMem_quotedParam {c : Char} {key s : Str} (hblank : c ≠ ' ') (hquote : c ≠ '"')
    (hkey : c ∉ key) (hs : c ∉ s) : c ∉ quotedParam key s := by
  simp [quotedParam, hblank, hquote, hkey, hs]

/-- A quoted parameter is read with its key. -/
theorem trim_quotedParam {k : Char} (hk : Str.isWhitespace k = false) (key s : Str) :
    Str.trim (quotedParam (k :: key) s) = (k :: key) ++ '"' :: (s ++ ['"']) := by
  unfold quotedParam
  rw [Str.trim_blank]
  refine Str.trim_of_ends ?_ ?_
  · intro c hc
    obtain rfl := Option.some.inj hc
    exact hk
  · intro c hc
    have hlast : ((k :: key) ++ '"' :: (s ++ ['"'])).getLast? = some '"' := by
      rw [← List.cons_append, ← List.append_assoc]
      exact List.getLast?_concat
    rw [hlast] at hc
    obtain rfl := Option.some.inj hc
    rfl

/-- The parameter `name` is read back, and leaves the file name. -/
theorem dispositionParam_name {s : Str} (hs : '"' ∉ s) (acc : Option Str × Option Str) :
    dispositionParam acc (quotedParam "name=" s) = (some s, acc.2) := by
  have hkey : ("name=" : Str) = 'n' :: ("ame=" : Str) := by decide
  have htrim := trim_quotedParam (show Str.isWhitespace 'n' = false from rfl) ("ame=" : Str) s
  rw [← hkey] at htrim
  unfold dispositionParam
  simp only
  rw [htrim, Str.stripPrefix_append]
  dsimp only
  rw [Str.trimMatches_quoted hs]

/-- The parameter `filename` is read back, and leaves the name. -/
theorem dispositionParam_filename {s : Str} (hs : '"' ∉ s) (acc : Option Str × Option Str) :
    dispositionParam acc (quotedParam "filename=" s) = (acc.1, some s) := by
  have hkey : ("filename=" : Str) = 'f' :: ("ilename=" : Str) := by decide
  have htrim := trim_quotedParam (show Str.isWhitespace 'f' = false from rfl) ("ilename=" : Str) s
  have hname : Str.stripPrefix ("name=" : Str) (("filename=" : Str) ++ '"' :: (s ++ ['"'])) =
      none := by
    rw [hkey]
    rfl
  rw [← hkey] at htrim
  unfold dispositionParam
  simp only
  rw [htrim, Str.stripPrefix_append, hname]
  dsimp only
  rw [Str.trimMatches_quoted hs]

section head

variable {boundary : Str} {p : FormPart} (hp : p.WellFormed boundary)

include hp

/-- A character that no text of a parameter has is not in the parameters. -/
theorem notMem_params {c : Char} (hblank : c ≠ ' ') (hquote : c ≠ '"')
    (hkeys : c ∉ (" form-data" : Str) ∧ c ∉ ("name=" : Str) ∧ c ∉ ("filename=" : Str))
    (hfits : ∀ s, FormPart.FitsQuotes boundary s → c ∉ s) : ∀ part ∈ p.params, c ∉ part := by
  intro part hpart
  unfold FormPart.params at hpart
  rcases List.mem_cons.mp hpart with rfl | hpart
  · exact hkeys.1
  · rcases List.mem_cons.mp hpart with rfl | hpart
    · exact notMem_quotedParam hblank hquote hkeys.2.1 (hfits _ hp.name)
    · obtain ⟨f, hf, rfl⟩ := Option.map_eq_some_iff.mp (Option.mem_toList.mp hpart)
      exact notMem_quotedParam hblank hquote hkeys.2.2 (hfits f (hp.filename f hf))

/-- The disposition line is one line: no carriage return stands in it. -/
theorem cr_notMem_disposition : '\r' ∉ p.disposition := by
  have hparams : '\r' ∉ [';'].intercalate p.params :=
    notMem_intercalate (by decide) (notMem_params hp (by decide) (by decide) (by decide)
      fun _ hs => hs.line.1)
  unfold FormPart.disposition
  intro hmem
  rcases List.mem_append.mp hmem with h | h
  · exact absurd h (by decide)
  · rcases List.mem_cons.mp h with h | h
    · exact absurd h (by decide)
    · exact hparams h

/-- The reader finds name and file name on the disposition line. -/
theorem dispositionOf_disposition (rest : List Str) :
    dispositionOf (p.disposition :: rest) = some (p.name, p.filename) := by
  have hcut : Str.splitOnce ':' p.disposition =
      some (("Content-Disposition" : Str), [';'].intercalate p.params) :=
    Str.splitOnce_append (by decide) _
  have hkey : eqIgnoreAsciiCase (Str.trim ("Content-Disposition" : Str)) "content-disposition" =
      true := by decide
  have hsplit : ([';'].intercalate p.params).splitOn ';' = p.params := by
    refine List.splitOn_intercalate _ ?_ (List.cons_ne_nil _ _)
    exact notMem_params hp (by decide) (by decide) (by decide) fun _ hs => hs.quoted.2
  have hfold : (p.params.drop 1).foldl dispositionParam (none, none) =
      (some p.name, p.filename) := by
    unfold FormPart.params
    rw [List.drop_one, List.tail_cons, List.foldl_cons, dispositionParam_name hp.name.quoted.1]
    cases hf : p.filename with
    | none => rfl
    | some f =>
        exact dispositionParam_filename (hp.filename f hf).quoted.1 _
  unfold dispositionOf
  rw [hcut]
  dsimp only
  rw [hsplit, hfold, if_pos hkey]
  rfl

/-- The reader finds name and file name in the header block. -/
theorem dispositionFields_head :
    dispositionFields (Str.utf8 p.head) = some (p.name, p.filename) := by
  have hcr := cr_notMem_disposition hp
  have hnewline : newline = '\r' :: ['\n'] := by decide
  have hlines : ∃ rest, Str.splitSub newline p.head = p.disposition :: rest := by
    unfold FormPart.head
    cases p.contentType with
    | none =>
        refine ⟨[], ?_⟩
        rw [Option.elim_none, List.append_nil]
        refine Str.splitSub_uncut ?_
        intro hoccurs
        exact hcr (hoccurs.subset (by simp [hnewline]))
    | some t =>
        refine ⟨Str.splitSub newline (("Content-Type: " : Str) ++ t), ?_⟩
        have hne : newline ≠ [] := by simp [hnewline]
        have hfirst := Str.splitSubFrom_needle hne (p.disposition.reverse ++ [])
          (("Content-Type: " : Str) ++ t)
        rw [Option.elim_some, Str.splitSub]
        rw [hnewline] at hfirst ⊢
        rw [Str.splitSubFrom_append hcr, hfirst]
        simp
  obtain ⟨rest, hlines⟩ := hlines
  unfold dispositionFields
  rw [Str.fromUtf8Lossy_utf8]
  exact (congrArg dispositionOf hlines).trans (dispositionOf_disposition hp rest)

end head

/-! ## One segment -/

/-- Looking for a needle from one byte on. -/
theorem findSub_cons {needle : Bytes} (hne : needle ≠ []) (c : UInt8) (hay : Bytes) :
    findSub (c :: hay) needle =
      if needle <+: c :: hay then some 0 else (findSub hay needle).map (· + 1) := by
  have hempty : needle.isEmpty = false := by simpa using hne
  have hpos : 0 < needle.length := List.length_pos_iff.mpr hne
  let test := fun i => ((c :: hay).drop i).take needle.length == needle
  unfold findSub
  rw [hempty, Bool.false_or, Bool.false_or, List.length_cons]
  by_cases hfront : needle <+: c :: hay
  · have hfits := hfront.length_le
    rw [List.length_cons] at hfits
    have htest : test 0 = true :=
      beq_iff_eq.mpr (List.prefix_iff_eq_take.mp hfront).symm
    have hshort : ¬ (decide (hay.length + 1 < needle.length)) = true := by
      simp only [decide_eq_true_eq]
      omega
    rw [if_pos hfront, if_neg hshort, List.range_succ_eq_map,
      List.find?_cons_of_pos (p := test) htest]
  · have htest : ¬ (((c :: hay).drop 0).take needle.length == needle) = true := by
      intro h
      exact hfront (List.prefix_iff_eq_take.mpr (eq_of_beq h).symm)
    rw [if_neg hfront]
    by_cases hshort : hay.length + 1 < needle.length
    · rw [if_pos (decide_eq_true hshort), if_pos (decide_eq_true (by omega))]
      rfl
    · rw [if_neg (by simpa using hshort), List.range_succ_eq_map,
        List.find?_cons_of_neg (p := test) htest, List.find?_map]
      by_cases hexact : hay.length < needle.length
      · have hnone : hay.length + 1 - needle.length = 0 := by omega
        rw [if_pos (decide_eq_true hexact), hnone]
        rfl
      · have hmore : hay.length + 1 - needle.length = hay.length - needle.length + 1 := by omega
        rw [if_neg (by simpa using hexact), hmore]
        rfl

/-- Bytes that are not the needle's first one are passed over. -/
theorem findSub_append {d : UInt8} {line : Bytes} (h : d ∉ line) (needle rest : Bytes) :
    findSub (line ++ rest) (d :: needle) =
      (findSub rest (d :: needle)).map (· + line.length) := by
  induction line with
  | nil => simp
  | cons c line ih =>
      have hfront : ¬ d :: needle <+: c :: (line ++ rest) := by
        intro hstarts
        exact List.ne_of_not_mem_cons h (List.cons_prefix_cons.mp hstarts).1
      rw [List.cons_append, findSub_cons (List.cons_ne_nil _ _), if_neg hfront,
        ih (List.not_mem_of_not_mem_cons h), Option.map_map]
      rfl

/-- The line end of a part is CR and LF. -/
theorem utf8_newline : Str.utf8 newline = crlf := by decide

/-- The line end of a text is that of its bytes. -/
theorem stripSuffix_crlf (v : Str) :
    (Str.stripSuffix crlf (Str.utf8 v)).getD (Str.utf8 v) =
      Str.utf8 ((Str.stripSuffix newline v).getD v) := by
  cases htext : Str.stripSuffix newline v with
  | some w =>
      rw [Str.stripSuffix_eq_some_iff.mp htext, Str.utf8_append, utf8_newline,
        Str.stripSuffix_append]
      rfl
  | none =>
      cases hbytes : Str.stripSuffix crlf (Str.utf8 v) with
      | none => rfl
      | some b =>
          exfalso
          obtain ⟨p, q, rfl, -, hq⟩ :=
            Str.cut_utf8 (x := 0x0D) (by decide) (Str.stripSuffix_eq_some_iff.mp hbytes)
          have hlf : q = ['\n'] := Str.utf8_injective hq
          have hnewline : newline = [Char.ofNat (0x0D : UInt8).toNat, '\n'] := by decide
          rw [hlf, ← hnewline, Str.stripSuffix_append] at htext
          cases htext

section segment

variable {boundary : Str} {p : FormPart} (hp : p.WellFormed boundary)

include hp

/-- The empty line behind a header block is the first one. -/
theorem findSub_head (rest : Bytes) :
    findSub (Str.utf8 p.head ++ (crlf ++ crlf ++ rest)) (crlf ++ crlf) =
      some (Str.utf8 p.head).length := by
  have hcr : ∀ {s : Str}, '\r' ∉ s → (0x0D : UInt8) ∉ Str.utf8 s :=
    fun hs hmem => hs (Str.mem_of_mem_utf8 hmem (by decide))
  have hfound : findSub (crlf ++ crlf ++ rest) (crlf ++ crlf) = some 0 := by
    have hstarts : crlf ++ crlf <+: (0x0D : UInt8) :: (0x0A :: (crlf ++ rest)) := ⟨rest, rfl⟩
    exact (findSub_cons (List.cons_ne_nil _ _) _ _).trans (if_pos hstarts)
  have hdisposition := findSub_append (hcr (cr_notMem_disposition hp)) (0x0A :: crlf)
  unfold FormPart.head
  cases ht : p.contentType with
  | none =>
      rw [Option.elim_none, List.append_nil]
      refine (hdisposition _).trans ?_
      rw [show (0x0D : UInt8) :: 0x0A :: crlf = crlf ++ crlf from rfl, hfound]
      simp
  | some t =>
      have hline : (0x0D : UInt8) ∉ 0x0A :: Str.utf8 (("Content-Type: " : Str) ++ t) := by
        intro hmem
        rcases List.mem_cons.mp hmem with h | h
        · exact absurd h (by decide)
        · refine hcr ?_ h
          intro hmem'
          rcases List.mem_append.mp hmem' with h' | h'
          · exact absurd h' (by decide)
          · exact (hp.contentType t ht).line.1 h'
      obtain ⟨more, hmore⟩ : ∃ more, Str.utf8 (("Content-Type: " : Str) ++ t) = 0x43 :: more := by
        have hkey : ("Content-Type: " : Str) = 'C' :: ("ontent-Type: " : Str) := by decide
        rw [hkey]
        exact ⟨_, rfl⟩
      -- The line end behind the disposition is followed by a letter.
      have hnot : ¬ crlf ++ crlf <+: (0x0D : UInt8) ::
          (0x0A :: Str.utf8 (("Content-Type: " : Str) ++ t) ++ (crlf ++ crlf ++ rest)) := by
        rw [hmore]
        intro hstarts
        have hafter := (List.cons_prefix_cons.mp (List.cons_prefix_cons.mp hstarts).2).2
        exact absurd (List.cons_prefix_cons.mp hafter).1 (by decide)
      have hafter : findSub (crlf ++ Str.utf8 (("Content-Type: " : Str) ++ t) ++
          (crlf ++ crlf ++ rest)) (crlf ++ crlf) =
            some (crlf ++ Str.utf8 (("Content-Type: " : Str) ++ t)).length := by
        refine (findSub_cons (List.cons_ne_nil _ _) _ _).trans ((if_neg hnot).trans ?_)
        have hpass := findSub_append hline (0x0A :: crlf) (crlf ++ crlf ++ rest)
        rw [show (0x0D : UInt8) :: 0x0A :: crlf = crlf ++ crlf from rfl, hfound] at hpass
        refine (congrArg (Option.map (· + 1)) hpass).trans ?_
        simp [crlf]
      rw [Option.elim_some, Str.utf8_append, Str.utf8_append, utf8_newline, List.append_assoc]
      refine (hdisposition _).trans ?_
      rw [show (0x0D : UInt8) :: 0x0A :: crlf = crlf ++ crlf from rfl, hafter, Option.map_some,
        @List.length_append _ (Str.utf8 p.disposition), Nat.add_comm]

/-- What the reader makes of a segment that begins with the header block of a part. -/
theorem multipartArg_head (v : Str) :
    multipartArg (Str.utf8 (newline ++ (p.head ++ (newline ++ (newline ++ v))))) =
      some (p.name, p.filename.getD ((Str.stripSuffix newline v).getD v)) := by
  have hbytes : Str.utf8 (newline ++ (p.head ++ (newline ++ (newline ++ v)))) =
      crlf ++ (Str.utf8 p.head ++ (crlf ++ crlf ++ Str.utf8 v)) := by
    simp only [Str.utf8_append, utf8_newline, List.append_assoc]
  obtain ⟨more, hmore⟩ : ∃ more, Str.utf8 p.head = 0x43 :: more := by
    have hkey : ("Content-Disposition" : Str) = 'C' :: ("ontent-Disposition" : Str) := by decide
    unfold FormPart.head FormPart.disposition
    rw [hkey]
    exact ⟨_, rfl⟩
  have hnonempty : ((Str.utf8 p.head ++ (crlf ++ crlf ++ Str.utf8 v)).isEmpty ||
      dashes.isPrefixOf (Str.utf8 p.head ++ (crlf ++ crlf ++ Str.utf8 v))) = false := by
    rw [hmore]
    rfl
  have hdrop : (Str.utf8 p.head ++ (crlf ++ crlf ++ Str.utf8 v)).drop
      ((Str.utf8 p.head).length + 4) = Str.utf8 v := by
    rw [← List.append_assoc]
    exact List.drop_left' (by simp [crlf])
  unfold multipartArg
  rw [hbytes, Str.stripPrefix_append]
  dsimp only [Option.getD_some]
  rw [if_neg (by rw [hnonempty]; exact Bool.false_ne_true), findSub_head hp, Option.bind_some,
    hdrop, List.take_left' rfl, dispositionFields_head hp, stripSuffix_crlf]
  rw [Option.map_some, Str.fromUtf8Lossy_utf8]

end segment

/-! ## Where the body is cut -/

section cuts

variable {boundary : Str} (hboundary : IsBoundary boundary)

include hboundary

/-- No occurrence of the delimiter reaches across such a character. -/
theorem delimiter_infix_iff {c : Char} (hdash : c ≠ '-') (hc : isTokenChar c = false)
    (a b : Str) :
    delimiter boundary <:+: a ++ c :: b ↔
      delimiter boundary <:+: a ∨ delimiter boundary <:+: b :=
  Str.infix_append_cons_iff (notMem_delimiter hboundary hdash hc) a b

omit hboundary in
/-- A text without two dashes has no delimiter in it. -/
theorem not_delimiter_infix_of_dashes {s : Str} (h : ¬ ['-', '-'] <:+: s) :
    ¬ delimiter boundary <:+: s := by
  intro hoccurs
  have hdashes : ['-', '-'] <+: delimiter boundary := ⟨boundary, rfl⟩
  exact h (hdashes.isInfix.trans hoccurs)

/-- A list of parameters has the delimiter in it only if one of them does. -/
theorem not_delimiter_infix_intercalate {parts : List Str}
    (h : ∀ part ∈ parts, ¬ delimiter boundary <:+: part) :
    ¬ delimiter boundary <:+: [';'].intercalate parts := by
  induction parts with
  | nil => exact not_delimiter_infix_of_dashes (by decide)
  | cons part parts ih =>
      have hpart := h part List.mem_cons_self
      have hrest := ih fun other hother => h other (List.mem_cons_of_mem part hother)
      cases parts with
      | nil => simpa using hpart
      | cons other parts =>
          rw [List.intercalate_cons_cons, List.append_assoc, List.singleton_append,
            delimiter_infix_iff hboundary (by decide) (by decide)]
          exact not_or.mpr ⟨hpart, hrest⟩

/-- A parameter has the delimiter in it only if its key or its value does. -/
theorem not_delimiter_infix_quotedParam {key s : Str} (hkey : ¬ delimiter boundary <:+: key)
    (hs : ¬ delimiter boundary <:+: s) : ¬ delimiter boundary <:+: quotedParam key s := by
  have hempty : ¬ delimiter boundary <:+: ([] : Str) := not_delimiter_infix_of_dashes (by decide)
  have hblank := delimiter_infix_iff hboundary (c := ' ') (by decide) (by decide) []
  have hquote := fun a b => delimiter_infix_iff hboundary (c := '"') (by decide) (by decide) a b
  unfold quotedParam
  rw [← List.nil_append (' ' :: _), hblank, hquote, hquote]
  exact not_or.mpr ⟨hempty, not_or.mpr ⟨hkey, not_or.mpr ⟨hs, hempty⟩⟩⟩

/-- A header block has no delimiter in it. -/
theorem not_delimiter_infix_head {p : FormPart} (hp : p.WellFormed boundary) :
    ¬ delimiter boundary <:+: p.head := by
  have hempty : ¬ delimiter boundary <:+: ([] : Str) := not_delimiter_infix_of_dashes (by decide)
  have hparams : ∀ part ∈ p.params, ¬ delimiter boundary <:+: part := by
    intro part hpart
    unfold FormPart.params at hpart
    rcases List.mem_cons.mp hpart with rfl | hpart
    · exact not_delimiter_infix_of_dashes (by decide)
    · rcases List.mem_cons.mp hpart with rfl | hpart
      · exact not_delimiter_infix_quotedParam hboundary (not_delimiter_infix_of_dashes (by decide))
          hp.name.free
      · obtain ⟨f, hf, rfl⟩ := Option.map_eq_some_iff.mp (Option.mem_toList.mp hpart)
        exact not_delimiter_infix_quotedParam hboundary (not_delimiter_infix_of_dashes (by decide))
          (hp.filename f hf).free
  have hdisposition : ¬ delimiter boundary <:+: p.disposition := by
    unfold FormPart.disposition
    rw [delimiter_infix_iff hboundary (by decide) (by decide)]
    exact not_or.mpr ⟨not_delimiter_infix_of_dashes (by decide),
      not_delimiter_infix_intercalate hboundary hparams⟩
  unfold FormPart.head
  cases ht : p.contentType with
  | none => rwa [Option.elim_none, List.append_nil]
  | some t =>
      have hline : newline ++ (("Content-Type: " : Str) ++ t) =
          '\r' :: ([] ++ '\n' :: (("Content-Type:" : Str) ++ ' ' :: t)) := by
        have hkey : newline ++ ("Content-Type: " : Str) =
            '\r' :: '\n' :: (("Content-Type:" : Str) ++ [' ']) := by decide
        have hassoc : ∀ n k k' t : Str, n ++ k = '\r' :: '\n' :: (k' ++ [' ']) →
            n ++ (k ++ t) = '\r' :: ([] ++ '\n' :: (k' ++ ' ' :: t)) := by
          intro n k k' t h
          rw [← List.append_assoc, h]
          simp
        exact hassoc _ _ _ t hkey
      rw [Option.elim_some, hline, delimiter_infix_iff hboundary (by decide) (by decide),
        delimiter_infix_iff hboundary (by decide) (by decide),
        delimiter_infix_iff hboundary (by decide) (by decide)]
      exact not_or.mpr ⟨hdisposition, not_or.mpr ⟨hempty,
        not_or.mpr ⟨not_delimiter_infix_of_dashes (by decide), (hp.contentType t ht).free⟩⟩⟩

/-- A segment is cut where its value is. -/
theorem splitSub_segment {p : FormPart} (hp : p.WellFormed boundary) :
    ∃ piece pieces,
      Str.splitSub (delimiter boundary) (p.value ++ newline) = piece :: pieces ∧
      Str.splitSub (delimiter boundary) p.segment =
        (newline ++ (p.head ++ (newline ++ (newline ++ piece)))) :: pieces := by
  obtain ⟨piece, pieces, hcur⟩ :=
    Str.splitSubFrom_cur (delimiter boundary) (p.value ++ newline) 0
  refine ⟨piece, pieces, hcur [], ?_⟩
  have hempty : ¬ delimiter boundary <:+: ([] : Str) := not_delimiter_infix_of_dashes (by decide)
  have hfree : ¬ delimiter boundary <:+:
      [] ++ '\r' :: ([] ++ '\n' :: (p.head ++ '\r' :: ([] ++ '\n' :: ([] ++ '\r' :: [])))) := by
    have hcr := fun a b => delimiter_infix_iff hboundary (c := '\r') (by decide) (by decide) a b
    have hlf := fun a b => delimiter_infix_iff hboundary (c := '\n') (by decide) (by decide) a b
    rw [hcr, hlf, hcr, hlf, hcr]
    have hhead := not_delimiter_infix_head hboundary hp
    simp only [hempty, hhead, or_self, not_false_eq_true]
  have hnewline : newline = ['\r', '\n'] := by decide
  have hsegment : p.segment =
      ([] ++ '\r' :: ([] ++ '\n' :: (p.head ++ '\r' :: ([] ++ '\n' :: ([] ++ '\r' :: []))))) ++
        '\n' :: (p.value ++ newline) := by
    unfold FormPart.segment
    rw [hnewline]
    simp
  have hlf : '\n' ∉ delimiter boundary := notMem_delimiter hboundary (by decide) (by decide)
  rw [hsegment, Str.splitSub, Str.splitSubFrom_free hlf hfree, hcur, hnewline]
  simp

/-- **Where the reader cuts the body of a form**: each part's segment is cut by itself. -/
theorem splitSub_encodeForm (parts : List FormPart) :
    Str.splitSub (Str.utf8 (delimiter boundary)) (encodeForm boundary parts) =
      ([] :: ((parts.flatMap fun p => Str.splitSub (delimiter boundary) p.segment) ++
        [['-', '-'] ++ newline])).map Str.utf8 := by
  have hne : delimiter boundary ≠ [] := List.cons_ne_nil _ _
  have hlf : '\n' ∉ delimiter boundary := notMem_delimiter hboundary (by decide) (by decide)
  have hcuts : ∃ more,
      (parts.flatMap fun p => delimiter boundary ++ p.segment) ++ delimiter boundary ++
          ['-', '-'] ++ newline = delimiter boundary ++ more ∧
        Str.splitSub (delimiter boundary) more =
          (parts.flatMap fun p => Str.splitSub (delimiter boundary) p.segment) ++
            [['-', '-'] ++ newline] := by
    induction parts with
    | nil =>
        refine ⟨['-', '-'] ++ newline, by simp, Str.splitSub_uncut ?_⟩
        have hclose : ['-', '-'] ++ newline = ['-', '-'] ++ '\r' :: ['\n'] := by decide
        rw [hclose, delimiter_infix_iff hboundary (by decide) (by decide), not_or]
        refine ⟨fun h => ?_, not_delimiter_infix_of_dashes (by decide)⟩
        have hlength := h.length_le
        have hpos := List.length_pos_iff.mpr hboundary.nonempty
        simp only [delimiter, List.length_cons, List.length_nil] at hlength
        omega
    | cons p parts ih =>
        obtain ⟨more, hmore, hsplit⟩ := ih
        obtain ⟨front, hsegment⟩ : ∃ front, p.segment = front ++ ['\n'] := by
          have hnewline : newline = ['\r'] ++ ['\n'] := by decide
          refine ⟨newline ++ p.head ++ newline ++ newline ++ p.value ++ ['\r'], ?_⟩
          rw [List.append_assoc _ ['\r'], ← hnewline]
          rfl
        refine ⟨p.segment ++ (delimiter boundary ++ more), ?_, ?_⟩
        · rw [List.flatMap_cons, ← hmore]
          simp only [List.append_assoc]
        · have hcut := Str.splitSub_append_needle hne hlf front more
          rw [List.flatMap_cons, List.append_assoc, ← hsplit, hsegment, ← hcut,
            List.append_assoc, List.singleton_append]
  obtain ⟨more, hmore, hsplit⟩ := hcuts
  unfold encodeForm
  rw [hmore]
  refine (Str.splitSub_utf8 (by decide) _ _).trans (congrArg (List.map Str.utf8) ?_)
  rw [← hsplit]
  exact Str.splitSubFrom_needle hne [] more

end cuts

/-! ## The parameters -/

/-- What the reader hands on is what was sent: a value has no delimiter in it, and nothing behind
a delimiter in the content of a file reads as a part. -/
def FormPart.Unsplit (boundary : Str) (p : FormPart) : Prop :=
  match p.filename with
  | none => ¬ delimiter boundary <:+: p.value
  | some _ => ∀ piece ∈ (Str.splitSub (delimiter boundary) (p.value ++ newline)).tail,
      multipartArg (Str.utf8 piece) = none

/-- Lists that begin alike are as long as one another only if nothing follows. -/
theorem flatMap_cons_eq_map_iff {α β : Type} (f g : α → β) (more : α → List β) (xs : List α) :
    (xs.flatMap fun x => f x :: more x) = xs.map g ↔ ∀ x ∈ xs, f x = g x ∧ more x = [] := by
  induction xs with
  | nil => simp
  | cons x xs ih =>
      rw [List.flatMap_cons, List.map_cons, List.cons_append, List.cons.injEq, List.forall_mem_cons,
        ← ih]
      have hlength : ∀ ys : List α, ys.length ≤ (ys.flatMap fun y => f y :: more y).length := by
        intro ys
        induction ys with
        | nil => simp
        | cons y ys ih =>
            rw [List.flatMap_cons, List.length_append, List.length_cons, List.length_cons]
            omega
      have hrest := hlength xs
      constructor
      · rintro ⟨hx, hsame⟩
        have hmore : more x = [] := by
          have h := congrArg List.length hsame
          rw [List.length_append, List.length_map] at h
          exact List.length_eq_zero_iff.mp (by omega)
        rw [hmore, List.nil_append] at hsame
        exact ⟨⟨hx, hmore⟩, hsame⟩
      · rintro ⟨⟨hx, hmore⟩, hsame⟩
        rw [hmore, List.nil_append]
        exact ⟨hx, hsame⟩

section arguments

variable {boundary : Str} (hboundary : IsBoundary boundary)

include hboundary

/-- What the reader makes of one part: its argument alone if nothing in the part is cut, and
something else otherwise. -/
theorem filterMap_segment {p : FormPart} (hp : p.WellFormed boundary) :
    ∃ first more, (Str.splitSub (delimiter boundary) p.segment).filterMap
        (fun piece => multipartArg (Str.utf8 piece)) = first :: more ∧
      (first = p.argument ∧ more = [] ↔ p.Unsplit boundary) := by
  obtain ⟨piece, pieces, hvalue, hsegment⟩ := splitSub_segment hboundary hp
  have hne : delimiter boundary ≠ [] := List.cons_ne_nil _ _
  have hcr : '\r' ∉ delimiter boundary := notMem_delimiter hboundary (by decide) (by decide)
  have hnewline : newline = '\r' :: ['\n'] := by decide
  have hoccurs : delimiter boundary <:+: p.value ++ newline ↔ delimiter boundary <:+: p.value := by
    rw [hnewline, Str.infix_append_cons_iff hcr]
    exact or_iff_left (not_delimiter_infix_of_dashes (by decide))
  refine ⟨(p.name, p.filename.getD ((Str.stripSuffix newline piece).getD piece)),
    pieces.filterMap fun piece => multipartArg (Str.utf8 piece), ?_, ?_⟩
  · rw [hsegment, List.filterMap_cons, multipartArg_head hp]
  · unfold FormPart.Unsplit FormPart.argument
    cases p.filename with
    | some f =>
        rw [hvalue]
        simp only [Option.getD_some, true_and, List.tail_cons, List.filterMap_eq_nil_iff]
    | none =>
        simp only [Option.getD_none, Prod.mk.injEq, true_and]
        constructor
        · rintro ⟨hsame, -⟩ hmem
          -- The value was cut off before the delimiter.
          obtain ⟨front, rest, hcut, hpieces⟩ := Str.splitSub_cut hne (hoccurs.mpr hmem)
          obtain rfl : piece = front := (List.cons.inj (hvalue.symm.trans hpieces)).1
          have hshort := Str.length_stripSuffix_le newline piece
          have hlength := congrArg List.length hcut
          have hpos := List.length_pos_iff.mpr hboundary.nonempty
          rw [hsame] at hshort
          simp only [List.length_append, delimiter, hnewline, List.length_cons, List.length_nil]
            at hlength
          omega
        · intro hfree
          rw [Str.splitSub_uncut fun h => hfree (hoccurs.mp h)] at hvalue
          obtain ⟨rfl, rfl⟩ := List.cons.inj hvalue
          rw [Str.stripSuffix_append]
          exact ⟨rfl, rfl⟩

/-- **When no parameter of a form is hidden.** The reader gives exactly the names and values of
the parts, in order, if and only if no value holds the delimiter, at the start of a line or
anywhere else, and no file's content holds one with what reads as a part behind it. -/
theorem multipart_args_iff {parts : List FormPart}
    (hparts : ∀ p ∈ parts, p.WellFormed boundary) :
    parseMultipartArgs (encodeForm boundary parts) (formType boundary) =
        parts.map FormPart.argument ↔
      ∀ p ∈ parts, p.Unsplit boundary := by
  let read (p : FormPart) : List (Str × Str) :=
    (Str.splitSub (delimiter boundary) p.segment).filterMap
      fun piece => multipartArg (Str.utf8 piece)
  have hread : parseMultipartArgs (encodeForm boundary parts) (formType boundary) =
      parts.flatMap read := by
    have hclose : (multipartArg ∘ Str.utf8) (['-', '-'] ++ newline) = none := by decide
    have hbegin : (multipartArg ∘ Str.utf8) [] = none := by decide
    unfold parseMultipartArgs
    rw [extractBoundary_formType hboundary]
    dsimp only
    have hcuts : splitOn (encodeForm boundary parts) (dashes ++ Str.utf8 boundary) =
        Str.splitSub (Str.utf8 (delimiter boundary)) (encodeForm boundary parts) := rfl
    rw [hcuts, splitSub_encodeForm hboundary, List.filterMap_map, List.filterMap_cons_none hbegin,
      List.filterMap_append, List.filterMap_cons_none hclose, List.filterMap_nil, List.append_nil,
      List.filterMap_flatMap]
    rfl
  have hfirst : parts.flatMap read =
      parts.flatMap fun p => (read p).headD p.argument :: (read p).tail := by
    refine List.flatMap_congr fun p hp => ?_
    obtain ⟨first, more, hpart, -⟩ := filterMap_segment hboundary (hparts p hp)
    have hpart : read p = first :: more := hpart
    rw [hpart]
    rfl
  rw [hread, hfirst, flatMap_cons_eq_map_iff]
  refine forall₂_congr fun p hp => ?_
  obtain ⟨first, more, hpart, hiff⟩ := filterMap_segment hboundary (hparts p hp)
  have hpart : read p = first :: more := hpart
  rw [hpart]
  exact hiff

end arguments

/-! ## A comment with the boundary in it -/

/-- `XYZ` is a boundary that needs no quotes. -/
theorem isBoundary_xyz : IsBoundary "XYZ" :=
  ⟨by decide, List.all_eq_true.mp (by decide)⟩

/-- A part with the text of a comment. -/
def commentPart (value : Str) : FormPart := ⟨"comment", none, none, value⟩

/-- A part with an uploaded file, which has a name and a media type. -/
def avatarPart (content : Str) : FormPart :=
  ⟨"avatar", some "shell.php", some "application/octet-stream", content⟩

/-- The text part of the example is well formed, whatever its value. -/
theorem commentPart_wellFormed (value : Str) : (commentPart value).WellFormed "XYZ" where
  name :=
    have hname : FormPart.FitsQuotes "XYZ" "comment" := ⟨⟨by decide, by decide⟩, by decide⟩
    hname
  filename _ h := by cases h
  contentType _ h := by cases h

/-- The file part of the example is well formed, whatever its content. -/
theorem avatarPart_wellFormed (content : Str) : (avatarPart content).WellFormed "XYZ" where
  name :=
    have hname : FormPart.FitsQuotes "XYZ" "avatar" := ⟨⟨by decide, by decide⟩, by decide⟩
    hname
  filename f h := by
    obtain rfl := Option.some.inj h
    exact ⟨⟨by decide, by decide⟩, by decide⟩
  contentType t h := by
    obtain rfl := Option.some.inj h
    exact ⟨by decide, by decide⟩

/-- A comment and a file, even one with the boundary in it, are read as they were sent. -/
theorem comment_and_avatar_read :
    parseMultipartArgs (encodeForm "XYZ" [commentPart "hi", avatarPart "<?php --XYZ ?>"])
        (formType "XYZ") =
      [commentPart "hi", avatarPart "<?php --XYZ ?>"].map FormPart.argument := by
  refine (multipart_args_iff isBoundary_xyz ?_).mpr ?_
  · intro p hp
    rcases List.mem_cons.mp hp with rfl | hp
    · exact commentPart_wellFormed _
    · obtain rfl := List.mem_singleton.mp hp
      exact avatarPart_wellFormed _
  · intro p hp
    rcases List.mem_cons.mp hp with rfl | hp
    · show ¬ delimiter "XYZ" <:+: ("hi" : Str)
      decide
    · obtain rfl := List.mem_singleton.mp hp
      show ∀ piece ∈ (Str.splitSub (delimiter "XYZ") (("<?php --XYZ ?>" : Str) ++ newline)).tail,
        multipartArg (Str.utf8 piece) = none
      decide

/-- What a comment says behind the boundary, within a line, is not read. -/
theorem comment_cut_at_boundary :
    (commentPart "a--XYZ<script>").WellFormed "XYZ" ∧
      ¬ newline ++ delimiter "XYZ" <:+: (commentPart "a--XYZ<script>").value ∧
      ¬ delimiter "XYZ" <+: (commentPart "a--XYZ<script>").value ∧
      parseMultipartArgs (encodeForm "XYZ" [commentPart "a--XYZ<script>"]) (formType "XYZ") ≠
        [commentPart "a--XYZ<script>"].map FormPart.argument := by
  refine ⟨commentPart_wellFormed _, by decide, by decide, by decide⟩

end BuduWaf.Rules
