import BuduWaf.Rules.CanonicalQuery
import BuduWaf.Rules.ContentTypes
import BuduWaf.Rules.Exact
import BuduWaf.Rules.SourceText

/-!
# `budu-rules`: what a `SecRule` says

The meaning of a rule without `chain` in its file, with none of it taken from the importer's own
record of the rule: operator, argument, `!` and transformations are those of the text.

* **`SecRule`**: a rule as it is written, and `SecRule.WrittenAs`: the texts that write it.
* **`ModSecurity`**: the engine the rule was written for, which is no part of this repository: the
  values its variables have on a request, its transformations by the names they are written with,
  and what its patterns find. `ModSecurity.Documented` is what its manual says of the
  transformations on ASCII texts.
* **`SecRule.Matches`**: the rule matches if a value of some variable, transformed, satisfies the
  operator; with `!`, if one does not.
* **`SecRule.Accepted`**: the test the importer puts in its place. `t:trimLeft` and `t:trimRight`
  become `trim`, `t:compressWhitespace` becomes `compress_ws`, which also trims, and
  `t:urlDecodeUni` becomes `url_decode`.
* **`accepted_iff_satisfied`**: where the two tests agree, as a condition on the value.
-/

namespace BuduWaf.Rules.Modsec

open BuduWaf.Parser

/-! ## Rules as they are written -/

/-- A `SecRule` as it is written, with nothing left out or mapped. -/
structure SecRule where
  /-- The variables. -/
  vars : List RawVar
  /-- Whether the operator is written with `!`. -/
  negated : Bool
  /-- The operator, without its `@`. -/
  operator : Str
  /-- What follows it, from the first character that is no white space. -/
  argument : Str
  /-- The transformations its `t` actions name, in order. -/
  transforms : List Str
deriving DecidableEq

namespace SecRule

/-- The second word of a rule, with white space wherever there may be some. -/
def WritesOperator (s : SecRule) (word : Str) : Prop :=
  ∃ lead gap mid : Str, word = lead ++ ((if s.negated then '!' :: gap else []) ++
      '@' :: (s.operator ++ (mid ++ s.argument))) ∧
    (∀ c ∈ lead ++ gap ++ mid, Str.isWhitespace c = true) ∧
    (∀ c ∈ s.operator, Str.isWhitespace c = false) ∧
    (∀ c ∈ s.argument.head?, Str.isWhitespace c = false) ∧ (mid = [] → s.argument = [])

/-- What follows `SecRule` on a line writes the rule: variables, operator, actions. -/
def WrittenAs (s : SecRule) (arg : Str) : Prop :=
  ∃ vars operator more, tokenize arg = vars :: operator :: more ∧ s.vars = parseVars vars ∧
    s.WritesOperator operator ∧
    s.transforms = (transformsIn (splitActions (more.head?.getD []))).map Str.trim

/-- The transformations in force: those behind the last `t:none`. -/
def effective (s : SecRule) : List Str :=
  (s.transforms.reverse.takeWhile fun t => t ≠ ("none" : Str)).reverse

end SecRule

/-! ## The engine they are written for -/

/-- The test of a text by an operator whose argument is a text or, of `rx`, a pattern. -/
def OperatorHolds (finds : Str → Str → Prop) (name arg x : Str) : Prop :=
  if name = ("rx" : Str) then finds arg x
  else if name = ("contains" : Str) then arg <:+: x
  else if name = ("beginsWith" : Str) then arg <+: x
  else if name = ("endsWith" : Str) then arg <:+ x
  else x = arg

/-- What ModSecurity makes of one request. -/
structure ModSecurity where
  /-- The values of a variable. -/
  values : RawVar → List Str
  /-- A transformation, by the name it is written with. -/
  transformation : Str → Str → Str
  /-- A pattern finds something in a text. -/
  finds : Str → Str → Prop

namespace ModSecurity

/-- A value after transformations, one after the other. -/
def transformed (E : ModSecurity) (names : List Str) (x : Str) : Str :=
  names.foldl (fun x t => E.transformation t x) x

end ModSecurity

/-- A value satisfies the operator of a rule after its transformations; `!` is left aside. -/
def SecRule.Satisfied (s : SecRule) (E : ModSecurity) (x : Str) : Prop :=
  OperatorHolds E.finds s.operator s.argument (E.transformed s.effective x)

/-- **The meaning of a rule in its file**: some value of some variable satisfies the operator or,
with `!`, does not. -/
def SecRule.Matches (s : SecRule) (E : ModSecurity) : Prop :=
  ∃ v ∈ s.vars, ∃ x ∈ E.values v, if s.negated then ¬ s.Satisfied E x else s.Satisfied E x

/-! ## Documented transformations -/

/-- `compressWhitespace`, with `between` saying that the last character was white space: each run of
white space becomes one space, also at the ends. -/
def compressRuns : (between : Bool) → Str → Str
  | _, [] => []
  | between, c :: rest =>
    if Str.isWhitespace c then
      if between then compressRuns true rest else ' ' :: compressRuns true rest
    else c :: compressRuns false rest

/-- All characters of a text are ASCII. -/
def AsciiText (x : Str) : Prop := ∀ c ∈ x, c.toNat < 0x80

/-- What the manual of ModSecurity says of the transformations, on ASCII texts. An escape with two
hexadecimal digits is decoded, any other `%` stays as it is; `urlDecodeUni` differs where `%u`
occurs. -/
structure ModSecurity.Documented (E : ModSecurity) : Prop where
  /-- Letters become lower case. -/
  lowercase : ∀ x, AsciiText x → E.transformation "lowercase" x = Str.toAsciiLowercase x
  /-- Letters become upper case. -/
  uppercase : ∀ x, AsciiText x → E.transformation "uppercase" x = Str.toAsciiUppercase x
  /-- The zero bytes are left out. -/
  removeNulls : ∀ x, AsciiText x →
    E.transformation "removeNulls" x = x.filter fun c => c ≠ Char.ofNat 0
  /-- White space at the beginning is left out. -/
  trimLeft : ∀ x, AsciiText x → E.transformation "trimLeft" x = x.dropWhile Str.isWhitespace
  /-- White space at the end is left out. -/
  trimRight : ∀ x, AsciiText x → E.transformation "trimRight" x = x.rdropWhile Str.isWhitespace
  /-- White space at both ends is left out. -/
  trim : ∀ x, AsciiText x →
    E.transformation "trim" x = (x.dropWhile Str.isWhitespace).rdropWhile Str.isWhitespace
  /-- Runs of white space become one space. -/
  compressWhitespace : ∀ x, AsciiText x →
    E.transformation "compressWhitespace" x = compressRuns false x
  /-- Escapes are decoded, and `+` is a space. -/
  urlDecode : ∀ x b, AsciiText x → Decodes true (Str.utf8 x) b → IsAscii b →
    E.transformation "urlDecode" x = asciiText b
  /-- Where there is no `%u`, escapes are decoded as `urlDecode` does. -/
  urlDecodeUni : ∀ x, AsciiText x → ¬ ("%u" : Str) <:+: x → ¬ ("%U" : Str) <:+: x →
    E.transformation "urlDecodeUni" x = E.transformation "urlDecode" x

/-! ## What is put in their place -/

/-- The transformations that are supported, and what each becomes. -/
def translations : List (Str × Transform) :=
  [("lowercase", .lowercase), ("uppercase", .uppercase), ("urlDecode", .urlDecode),
    ("urlDecodeUni", .urlDecode), ("compressWhitespace", .compressWs),
    ("removeNulls", .removeNulls), ("trim", .trim), ("trimLeft", .trim), ("trimRight", .trim)]

/-- A value after what the transformations become. -/
def translated (names : List Str) (x : Str) : Str :=
  transformed (names.filterMap fun t => translations.lookup t) x

/-- A pattern of the `regex` crate compiles, and finds something in a text. -/
def CrateFinds (X : Crates) (pattern x : Str) : Prop :=
  ∃ re, X.regexNew pattern = .ok re ∧ X.isMatch re x = true

/-- A value passes the test that stands for the operator of a rule: after what its transformations
become, and with the argument trimmed. -/
def SecRule.Accepted (X : Crates) (s : SecRule) (x : Str) : Prop :=
  OperatorHolds (CrateFinds X) s.operator (Str.trim s.argument) (translated s.effective x)

/-- A value on which a transformation does what it becomes does. -/
structure KeptBy (t x : Str) : Prop where
  /-- It is ASCII. -/
  ascii : AsciiText x
  /-- `trim` does the work of `trimLeft`, and `compress_ws` that of `compressWhitespace`, where no
  white space is at the end. -/
  last : t = ("trimLeft" : Str) ∨ t = ("compressWhitespace" : Str) →
    ∀ c ∈ x.getLast?, Str.isWhitespace c = false
  /-- `trim` does the work of `trimRight`, and `compress_ws` that of `compressWhitespace`, where no
  white space is at the beginning. -/
  first : t = ("trimRight" : Str) ∨ t = ("compressWhitespace" : Str) →
    ∀ c ∈ x.head?, Str.isWhitespace c = false
  /-- `url_decode` does the work of `urlDecode` on what is ASCII afterwards. -/
  decodes : t = ("urlDecode" : Str) ∨ t = ("urlDecodeUni" : Str) →
    ∃ b, Decodes true (Str.utf8 x) b ∧ IsAscii b
  /-- It does the work of `urlDecodeUni` where there is no `%u`. -/
  unicode : t = ("urlDecodeUni" : Str) → ¬ ("%u" : Str) <:+: x ∧ ¬ ("%U" : Str) <:+: x

/-- Each transformation in turn is given such a value. -/
def KeptOn (E : ModSecurity) : List Str → Str → Prop
  | [], _ => True
  | t :: names, x => KeptBy t x ∧ KeptOn E names (E.transformation t x)

/-! ## The transformations agree -/

/-- A text that does not end with white space has no rest that does. -/
theorem last_of_cons {c : Char} {x : Str}
    (hlast : ∀ d ∈ (c :: x).getLast?, Str.isWhitespace d = false) :
    ∀ d ∈ x.getLast?, Str.isWhitespace d = false := by
  intro d hd
  cases x with
  | nil => cases hd
  | cons e x => exact hlast d (by rwa [List.getLast?_cons_cons])

/-- Compressing runs joins the words, in the middle of a word `cur` and between two: one character
after another is read, and the white space behind a word is the one space before the next. -/
theorem compressRuns_splitWhitespaceFrom {x : Str}
    (hlast : ∀ c ∈ x.getLast?, Str.isWhitespace c = false) :
    (∀ cur ≠ [], Str.join " " (Str.splitWhitespaceFrom cur x) =
      cur.reverse ++ compressRuns false x) ∧
    Str.join " " (Str.splitWhitespaceFrom [] x) = compressRuns true x := by
  induction x with
  | nil =>
      refine ⟨fun cur hcur => ?_, rfl⟩
      cases cur with
      | nil => exact absurd rfl hcur
      | cons c cur => exact List.intercalate_singleton.trans (List.append_nil _).symm
  | cons c x ih =>
      obtain ⟨hword, hbetween⟩ := ih (last_of_cons hlast)
      by_cases hc : Str.isWhitespace c = true
      · -- The rest has a word: the text does not end here.
        have hrest : Str.splitWhitespaceFrom [] x ≠ [] := by
          intro hnil
          have hall := Str.splitWhitespace_eq_nil_iff.mp hnil
          have hend := hlast _ (List.getLast?_eq_some_getLast (List.cons_ne_nil c x))
          rcases List.mem_cons.mp (List.getLast_mem (List.cons_ne_nil c x)) with heq | hmem
          · rw [heq, hc] at hend
            cases hend
          · rw [hall _ hmem] at hend
            cases hend
        refine ⟨fun cur hcur => ?_, ?_⟩
        · have hcons : Str.splitWhitespaceFrom cur (c :: x) =
              cur.reverse :: Str.splitWhitespaceFrom [] x := by
            rw [Str.splitWhitespaceFrom.eq_def]
            simp only
            rw [if_pos hc, if_neg (by simpa using hcur)]
          have hspace : compressRuns false (c :: x) = ' ' :: compressRuns true x := by
            rw [compressRuns, if_pos hc, if_neg Bool.false_ne_true]
          rw [hcons, hspace, ← hbetween]
          unfold Str.join
          rw [List.intercalate_cons_of_ne_nil hrest, List.append_assoc]
          rfl
        · rw [Str.splitWhitespaceFrom.eq_def, compressRuns, if_pos hc, if_pos rfl]
          simp only
          rw [if_pos hc, if_pos List.isEmpty_nil]
          exact hbetween
      · have hstep : ∀ cur, Str.splitWhitespaceFrom cur (c :: x) =
            Str.splitWhitespaceFrom (c :: cur) x := by
          intro cur
          rw [Str.splitWhitespaceFrom.eq_def]
          simp only
          rw [if_neg hc]
        have hkeep : ∀ between, compressRuns between (c :: x) = c :: compressRuns false x := by
          intro between
          rw [compressRuns, if_neg hc]
        refine ⟨fun cur _ => ?_, ?_⟩
        · rw [hstep, hkeep, hword (c :: cur) (List.cons_ne_nil c cur), List.reverse_cons,
            List.append_assoc]
          rfl
        · rw [hstep, hkeep, hword [c] (List.cons_ne_nil c [])]
          rfl

/-- Compressing runs joins the words of a text that neither begins nor ends with white space. -/
theorem compressRuns_eq {x : Str} (hfirst : ∀ c ∈ x.head?, Str.isWhitespace c = false)
    (hlast : ∀ c ∈ x.getLast?, Str.isWhitespace c = false) :
    compressRuns false x = Str.join " " (Str.splitWhitespace x) := by
  cases x with
  | nil => rfl
  | cons c x =>
      have hc : ¬ Str.isWhitespace c = true := by simp [hfirst c rfl]
      have hword := (compressRuns_splitWhitespaceFrom (last_of_cons hlast)).1 [c]
        (List.cons_ne_nil c [])
      unfold Str.splitWhitespace
      rw [compressRuns, if_neg hc, Str.splitWhitespaceFrom.eq_def]
      simp only
      rw [if_neg hc, hword]
      rfl

/-- A text that does not begin with white space. -/
theorem dropWhile_of_first {x : Str} (hfirst : ∀ c ∈ x.head?, Str.isWhitespace c = false) :
    x.dropWhile Str.isWhitespace = x := by
  cases x with
  | nil => rfl
  | cons c x => rw [List.dropWhile_cons_of_neg (by simp [hfirst c rfl])]

/-- A text that does not end with white space. -/
theorem rdropWhile_of_last {x : Str} (hlast : ∀ c ∈ x.getLast?, Str.isWhitespace c = false) :
    x.rdropWhile Str.isWhitespace = x := by
  rw [List.rdropWhile_eq_self_iff]
  intro hne hspace
  rw [hlast _ (List.getLast?_eq_some_getLast hne)] at hspace
  cases hspace

/-- A text that does not end with white space does not do so either without what it begins with. -/
theorem last_dropWhile {x : Str} (hlast : ∀ c ∈ x.getLast?, Str.isWhitespace c = false) :
    ∀ c ∈ (x.dropWhile Str.isWhitespace).getLast?, Str.isWhitespace c = false := by
  intro c hc
  obtain ⟨front, hfront⟩ := List.dropWhile_suffix (l := x) Str.isWhitespace
  refine hlast c ?_
  rw [← hfront, List.getLast?_append, Option.mem_def.mp hc]
  rfl

/-- Decoding an ASCII text to ASCII bytes gives their text. -/
theorem decodeInto_of_decodes {e b : Bytes} (h : Decodes true e b) (hb : IsAscii b) :
    decodeInto e true = asciiText b := by
  rw [decodeInto, h.decodeFoldInto_eq false]
  apply List.map_congr_left
  intro c hc
  rw [pushByte_ascii (hb c hc)]
  rfl

/-- **A transformation does on such a value what it becomes does.** -/
theorem transformation_eq {E : ModSecurity} (hE : E.Documented) {t x : Str} {transform : Transform}
    (ht : translations.lookup t = some transform) (hkept : KeptBy t x) :
    E.transformation t x = applyTransform transform x := by
  have hdecoded : t = ("urlDecode" : Str) ∨ t = ("urlDecodeUni" : Str) →
      E.transformation "urlDecode" x = applyTransform .urlDecode x := by
    intro hname
    obtain ⟨b, hb, hascii⟩ := hkept.decodes hname
    rw [hE.urlDecode x b hkept.ascii hb hascii]
    exact (decodeInto_of_decodes hb hascii).symm
  have hrow := mem_of_lookup ht
  simp only [translations, List.mem_cons, Prod.mk.injEq, List.not_mem_nil, or_false] at hrow
  rcases hrow with ⟨rfl, rfl⟩ | ⟨rfl, rfl⟩ | ⟨rfl, rfl⟩ | ⟨rfl, rfl⟩ | ⟨rfl, rfl⟩ | ⟨rfl, rfl⟩ |
    ⟨rfl, rfl⟩ | ⟨rfl, rfl⟩ | ⟨rfl, rfl⟩
  · exact hE.lowercase x hkept.ascii
  · exact hE.uppercase x hkept.ascii
  · exact hdecoded (.inl rfl)
  · obtain ⟨hlower, hupper⟩ := hkept.unicode rfl
    rw [hE.urlDecodeUni x hkept.ascii hlower hupper]
    exact hdecoded (.inr rfl)
  · rw [hE.compressWhitespace x hkept.ascii]
    exact compressRuns_eq (hkept.first (.inr rfl)) (hkept.last (.inr rfl))
  · exact hE.removeNulls x hkept.ascii
  · exact hE.trim x hkept.ascii
  · rw [hE.trimLeft x hkept.ascii]
    exact (rdropWhile_of_last (last_dropWhile (hkept.last (.inl rfl)))).symm
  · rw [hE.trimRight x hkept.ascii]
    change _ = (x.dropWhile Str.isWhitespace).rdropWhile Str.isWhitespace
    rw [dropWhile_of_first (hkept.first (.inl rfl))]

/-- One after the other, the transformations do what they become do. -/
theorem transformed_eq {E : ModSecurity} (hE : E.Documented) {names : List Str} {x : Str}
    (hnames : ∀ t ∈ names, (translations.lookup t).isSome = true) (hkept : KeptOn E names x) :
    E.transformed names x = translated names x := by
  induction names generalizing x with
  | nil => rfl
  | cons t names ih =>
      obtain ⟨hfirst, hrest⟩ := hkept
      obtain ⟨transform, ht⟩ := Option.isSome_iff_exists.mp (hnames t List.mem_cons_self)
      have hstep := ih (fun u hu => hnames u (List.mem_cons_of_mem t hu)) hrest
      unfold ModSecurity.transformed at hstep ⊢
      unfold translated transformed at hstep ⊢
      rw [List.foldl_cons, hstep, @List.filterMap_cons_some _ _ _ _ names _ ht, List.foldl_cons,
        transformation_eq hE ht hfirst]

/-- **The two tests agree** on a value the transformations are kept on, where no white space ends
the argument and a pattern finds in the value, transformed, what it finds there for the `regex`
crate. -/
theorem accepted_iff_satisfied {X : Crates} {E : ModSecurity} (hE : E.Documented) {s : SecRule}
    (hnames : ∀ t ∈ s.effective, (translations.lookup t).isSome = true)
    (hargument : Str.trim s.argument = s.argument) {x : Str} (hkept : KeptOn E s.effective x)
    (hpattern : s.operator = ("rx" : Str) → (E.finds s.argument (E.transformed s.effective x) ↔
      CrateFinds X s.argument (E.transformed s.effective x))) :
    s.Accepted X x ↔ s.Satisfied E x := by
  unfold SecRule.Accepted SecRule.Satisfied
  rw [hargument, ← transformed_eq hE hnames hkept]
  unfold OperatorHolds
  by_cases hrx : s.operator = ("rx" : Str)
  · rw [if_pos hrx, if_pos hrx, hpattern hrx]
  · rw [if_neg hrx, if_neg hrx]

-- A blank in front of a value is kept there, and trimmed off here.
example : compressRuns false (" x" : Str) = (" x" : Str) ∧
    applyTransform .compressWs (" x" : Str) = ("x" : Str) := by decide

/-! ## What the importer reads -/

namespace SecRule

variable {s : SecRule}

/-- White space at both ends does not matter to a text trimmed. -/
theorem trim_append {w x : Str} (h : ∀ c ∈ w, Str.isWhitespace c = true) :
    Str.trim (w ++ x) = Str.trim x := by
  unfold Str.trim
  rw [List.dropWhile_append_of_pos h]

/-- A text of white space and an argument that begins with none, without the white space at its
end: nothing, if the argument has nothing else; or it begins as before. -/
theorem rdropWhile_argument {mid arg : Str} (hmid : ∀ c ∈ mid, Str.isWhitespace c = true)
    (hne : mid = [] → arg = []) :
    ((mid ++ arg).rdropWhile Str.isWhitespace = [] ∧ Str.trim arg = []) ∨
      ∃ c rest, (mid ++ arg).rdropWhile Str.isWhitespace = c :: rest ∧
        Str.isWhitespace c = true ∧ Str.trim rest = Str.trim arg := by
  have htrim : Str.trim ((mid ++ arg).rdropWhile Str.isWhitespace) = Str.trim arg := by
    have hback : ∀ c ∈ (mid ++ arg).rtakeWhile Str.isWhitespace, Str.isWhitespace c = true :=
      fun c hc => List.mem_rtakeWhile_imp hc
    rw [← Str.trim_append_of_forall _ hback, List.rdropWhile_append_rtakeWhile]
    exact trim_append hmid
  cases hcut : (mid ++ arg).rdropWhile Str.isWhitespace with
  | nil =>
      rw [hcut] at htrim
      exact .inl ⟨rfl, htrim.symm⟩
  | cons c rest =>
      have hc : Str.isWhitespace c = true := by
        obtain ⟨back, hback⟩ := List.rdropWhile_prefix Str.isWhitespace (mid ++ arg)
        rw [hcut] at hback
        cases mid with
        | nil =>
            rw [hne rfl] at hback
            cases hback
        | cons d mid =>
            obtain ⟨rfl, -⟩ := List.cons.inj hback
            exact hmid c List.mem_cons_self
      rw [hcut] at htrim
      refine .inr ⟨c, rest, rfl, hc, ?_⟩
      rw [← htrim]
      exact (trim_append (List.forall_mem_singleton.mpr hc)).symm

/-- The operator, with its argument, behind the `@`. -/
theorem span_operator {op : Str} (hop : ∀ c ∈ op, Str.isWhitespace c = false) (rest : Str)
    (hrest : ∀ c ∈ rest.head?, Str.isWhitespace c = true) :
    (op ++ rest).span (fun c => !Str.isWhitespace c) = (op, rest) := by
  have hall : ∀ c ∈ op, (!Str.isWhitespace c) = true := by
    intro c hc
    rw [hop c hc]
    rfl
  rw [List.span_eq_takeWhile_dropWhile, List.takeWhile_append_of_pos hall,
    List.dropWhile_append_of_pos hall]
  cases rest with
  | nil => simp
  | cons c rest => simp [hrest c rfl]

/-- What begins with an `@` or an `!` is trimmed at its end only, and there not into the
operator. -/
theorem trim_operator {lead : Str} (hlead : ∀ c ∈ lead, Str.isWhitespace c = true) {op : Str}
    (hop : ∀ c ∈ op, Str.isWhitespace c = false) {front : Str}
    (hfront : ∀ c ∈ front.head?, Str.isWhitespace c = false) (rest : Str) :
    Str.trim (lead ++ (front ++ '@' :: (op ++ rest))) =
      front ++ '@' :: (op ++ rest.rdropWhile Str.isWhitespace) := by
  have hdrop : (front ++ '@' :: (op ++ rest)).dropWhile Str.isWhitespace =
      front ++ '@' :: (op ++ rest) := by
    apply dropWhile_of_first
    cases front with
    | nil => exact fun c hc => Option.some.inj hc ▸ rfl
    | cons d front => exact hfront
  have hback : (op ++ rest).rdropWhile Str.isWhitespace =
      op ++ rest.rdropWhile Str.isWhitespace := by
    cases op using List.reverseRecOn with
    | nil => rfl
    | append_singleton op c =>
        rw [List.append_assoc, List.append_assoc]
        exact rdropWhile_append_cons (hop c (by simp)) op rest
  rw [trim_append hlead, Str.trim, hdrop, rdropWhile_append_cons rfl, hback]

/-- **The importer reads the operator word as it is meant**: operator, argument up to the white
space at its end, and `!`. -/
theorem parseOperator_of_writes {word : Str} (h : s.WritesOperator word) :
    parseOperator word = (s.operator, Str.trim s.argument, s.negated) := by
  obtain ⟨lead, gap, mid, rfl, hspace, hop, -, hne⟩ := h
  have hlead : ∀ c ∈ lead, Str.isWhitespace c = true := fun c hc => hspace c (by simp [hc])
  have hgap : ∀ c ∈ gap, Str.isWhitespace c = true := fun c hc => hspace c (by simp [hc])
  have hmid : ∀ c ∈ mid, Str.isWhitespace c = true := fun c hc => hspace c (by simp [hc])
  have hfront : ∀ c ∈ (if s.negated then '!' :: gap else []).head?,
      Str.isWhitespace c = false := by
    cases s.negated with
    | false => rintro c ⟨⟩
    | true => exact fun c hc => Option.some.inj hc ▸ rfl
  have htrim := trim_operator hlead hop hfront (mid ++ s.argument)
  have hsign : ∀ y : Str, Str.stripPrefix ['!'] ('!' :: y) = some y := fun _ => rfl
  have hnoSign : ∀ y : Str, Str.stripPrefix ['!'] ('@' :: y) = none := fun _ => rfl
  have hat : ∀ y : Str, Str.stripPrefix ['@'] ('@' :: y) = some y := fun _ => rfl
  have hstart : ∀ y : Str, Str.trimStart (gap ++ '@' :: y) = '@' :: y := by
    intro y
    unfold Str.trimStart
    rw [List.dropWhile_append_of_pos hgap, List.dropWhile_cons_of_neg (by decide)]
  unfold parseOperator
  rw [htrim]
  rcases rdropWhile_argument hmid hne with ⟨hcut, harg⟩ | ⟨c, rest, hcut, hc, harg⟩
  · have hspan := span_operator hop [] (by rintro c ⟨⟩)
    rw [List.append_nil] at hspan
    cases s.negated with
    | false =>
        simp only [Bool.false_eq_true, if_false, List.nil_append, List.append_nil, hnoSign, hat,
          hcut, hspan, harg]
    | true =>
        simp only [if_true, List.cons_append, List.append_nil, hsign, hstart, hat, hcut, hspan,
          harg]
  · have hspan := span_operator hop (c :: rest) fun d hd => Option.some.inj hd ▸ hc
    cases s.negated with
    | false =>
        simp only [Bool.false_eq_true, if_false, List.nil_append, hnoSign, hat, hcut, hspan, harg]
    | true => simp only [if_true, List.cons_append, hsign, hstart, hat, hcut, hspan, harg]

end SecRule

/-- The actions leave variables, operator, argument and sign as they were read. -/
theorem operator_addAction (rule : ParsedRule) (action : Str × Option Str) :
    ((rule.addAction action).vars, (rule.addAction action).opName, (rule.addAction action).opArg,
      (rule.addAction action).negate) = (rule.vars, rule.opName, rule.opArg, rule.negate) := by
  let read : ParsedRule → List RawVar × Str × Str × Bool :=
    fun rule => (rule.vars, rule.opName, rule.opArg, rule.negate)
  have hif := @field_ite _ read (read rule)
  obtain ⟨key, val⟩ := action
  change read (rule.addAction (key, val)) = read rule
  unfold ParsedRule.addAction
  dsimp only
  refine hif rfl <| hif rfl <| hif rfl <| hif rfl <| hif rfl <| hif ?_ <| hif rfl <| hif ?_ <|
    hif ?_ <| hif rfl rfl
  · cases val.bind fun v => Str.parseUInt 16 (Str.trim v) with
    | none => rfl
    | some status => rfl
  · cases val with
    | none => rfl
    | some t =>
        unfold ParsedRule.addTransform
        dsimp only
        cases mapTransform t <;> rfl
  · cases anomalyScore (val.getD []) with
    | none => rfl
    | some points => rfl

/-- All actions of a rule leave its variables, operator, argument and sign. -/
theorem operator_foldl_addAction (actions : List (Str × Option Str)) (rule : ParsedRule) :
    let read := actions.foldl ParsedRule.addAction rule
    (read.vars, read.opName, read.opArg, read.negate) =
      (rule.vars, rule.opName, rule.opArg, rule.negate) := by
  induction actions generalizing rule with
  | nil => rfl
  | cons action actions ih =>
      exact (ih (rule.addAction action)).trans (operator_addAction rule action)

/-- Looking up in a table whose values were worked on gives the value, worked on. -/
theorem lookup_map {α β γ : Type} [BEq α] (f : β → γ) (k : α) (l : List (α × β)) :
    (l.map fun p => (p.1, f p.2)).lookup k = (l.lookup k).map f := by
  induction l with
  | nil => rfl
  | cons p l ih =>
      rw [List.map_cons, List.lookup_cons, List.lookup_cons, ih]
      cases k == p.1 <;> rfl

/-- The name a transformation is kept under stands for what it becomes. -/
theorem lookup_kept (t : Str) :
    (mapTransform t).kept.bind (fun name => transformNames.lookup name) =
      translations.lookup (Str.trim t) := by
  have htable : (keptTransforms.map fun p => (p.1, transformNames.lookup p.2)) =
      translations.map fun p => (p.1, some p.2) := by decide
  have hrow : (keptTransforms.lookup (Str.trim t)).map (fun name => transformNames.lookup name) =
      (translations.lookup (Str.trim t)).map some := by
    rw [← lookup_map, ← lookup_map, htable]
  unfold mapTransform
  by_cases hnone : Str.trim t = ("none" : Str)
  · simp only [hnone, if_true]
    rfl
  · simp only [if_neg hnone]
    cases hkept : keptTransforms.lookup (Str.trim t) with
    | none =>
        rw [hkept, Option.map_none, eq_comm, Option.map_eq_none_iff] at hrow
        rw [hrow]
        rfl
    | some name =>
        rw [hkept] at hrow
        cases hlookup : translations.lookup (Str.trim t) with
        | none =>
            rw [hlookup] at hrow
            cases hrow
        | some transform =>
            rw [hlookup] at hrow
            exact Option.some.inj hrow

namespace SecRule

variable {s : SecRule} {arg : Str} {m : ParsedRule}

/-- **What is read of a rule**: variables, operator, argument and sign. -/
theorem WrittenAs.read (hwritten : s.WrittenAs arg) (hparsed : parseSecrule arg = .ok m) :
    m.vars = s.vars ∧ m.opName = s.operator ∧ m.opArg = Str.trim s.argument ∧
      m.negate = s.negated := by
  obtain ⟨vars, operator, more, htokens, hvars, hoperator, -⟩ := hwritten
  unfold parseSecrule at hparsed
  rw [htokens] at hparsed
  dsimp only at hparsed
  rw [parseOperator_of_writes hoperator] at hparsed
  have hread := operator_foldl_addAction (splitActions (more.head?.getD []))
    { vars := parseVars vars, opName := s.operator, opArg := Str.trim s.argument,
      negate := s.negated }
  rw [Except.ok.inj hparsed] at hread
  simp only [Prod.mk.injEq] at hread
  rw [hvars]
  exact hread

/-- The transformations in force are those the importer takes to be. -/
theorem WrittenAs.effective_eq (hwritten : s.WrittenAs arg) :
    s.effective = (effectiveTransforms arg).map Str.trim := by
  obtain ⟨vars, operator, more, htokens, -, -, htransforms⟩ := hwritten
  have hnone : ∀ t : Str, decide (Str.trim t ≠ ("none" : Str)) =
      decide (mapTransform t ≠ .none) := by
    intro t
    refine decide_eq_decide.mpr (not_congr ?_)
    unfold mapTransform
    by_cases heq : Str.trim t = ("none" : Str)
    · exact iff_of_true heq (if_pos heq)
    · refine iff_of_false heq ?_
      rw [if_neg heq]
      cases keptTransforms.lookup (Str.trim t) <;> simp
  unfold effective effectiveTransforms inForce
  rw [htransforms, htokens, ← List.map_reverse, List.takeWhile_map, ← List.map_reverse]
  exact congrArg (fun p => (List.map Str.trim (List.takeWhile p _).reverse)) (funext hnone)

/-- **The transforms that are read of a rule** are what its transformations become. -/
theorem WrittenAs.transforms (hwritten : s.WrittenAs arg) (hparsed : parseSecrule arg = .ok m)
    (x : Str) : transformed (m.transforms.filterMap fun t => transformNames.lookup t) x =
      translated s.effective x := by
  unfold translated
  rw [transforms_eq_effective hparsed, hwritten.effective_eq, List.filterMap_filterMap,
    List.filterMap_map]
  exact congrArg (fun f => transformed (List.filterMap f _) x) (funext lookup_kept)

end SecRule

end BuduWaf.Rules.Modsec
