import BuduWaf.Lib.Alternation
import BuduWaf.Rules.Imported

/-!
# `budu-rules`: imported phrase lists

What the pattern that is written for `@pm` finds.

* **`RegexMatches`**: a pattern matches a text, read with the syntax and the flags of the pattern
  language.
* **`phrases_regex_iff`**: the pattern of a phrase list matches where one of the phrases occurs, up
  to the case of ASCII letters; that of an empty list matches everywhere.
* **`pm_kept_iff`**: so the meaning is kept exactly of the lists that are not empty.
* **`compiled_phrases_iff`**: what the condition that is loaded for a list tests.

The emitted pattern is read by the reader of the pattern language (`Lib/Alternation`), so that the
theorem is about the text in the rule file and not about a way to generate it. The import's escaping
is compared with the library's once (`regexEscape_eq`).

Scope: phrases are ASCII. For other ones the pattern's `unicode(false)` flag decides what a
character class or a case fold is, and nothing is said.
-/

namespace BuduWaf.Rules.Modsec

open BuduWaf.RateLimit

/-- A pattern matches a text: it can be read, and occurs there. -/
def RegexMatches (pattern value : Str) : Prop :=
  ∃ p, Flagged.read pattern = some p ∧ p.Occurs value

/-- **The meaning of `@pm`**: some phrase occurs in a text, up to the case of ASCII letters. -/
def PhraseOccurs (arg value : Str) : Prop :=
  ∃ phrase ∈ Str.splitWhitespace arg, Str.toAsciiLowercase phrase <:+: Str.toAsciiLowercase value

/-- The phrases of an argument are ASCII. -/
def AsciiPhrases (arg : Str) : Prop :=
  ∀ phrase ∈ Str.splitWhitespace arg, ∀ c ∈ phrase, c.toNat < 0x80

instance (arg : Str) : Decidable (AsciiPhrases arg) :=
  @List.decidableBAll Str (fun phrase => ∀ c ∈ phrase, c.toNat < 0x80)
    (List.decidableBAll fun c : Char => c.toNat < 0x80) (Str.splitWhitespace arg)

instance (arg value : Str) : Decidable (PhraseOccurs arg value) :=
  decidable_of_iff (∃ phrase ∈ Str.splitWhitespace arg,
      Str.contains (Str.toAsciiLowercase phrase) (Str.toAsciiLowercase value) = true)
    (exists_congr fun _ => and_congr_right fun _ => Str.contains_iff)

/-- The import escapes the metacharacters of the pattern language, all of them. -/
theorem regexEscape_eq (s : Str) : regexEscape s = Flagged.escape s := rfl

/-- A phrase is not escaped to nothing. -/
theorem escape_ne_nil {s : Str} (hne : s ≠ []) : Flagged.escape s ≠ [] := by
  cases s with
  | nil => exact absurd rfl hne
  | cons c s =>
      unfold Flagged.escape
      rw [List.flatMap_cons]
      split <;> exact List.cons_ne_nil _ _

/-- The pattern of a phrase list: its phrases, escaped. -/
theorem phrasesToRegex_eq (arg : Str) : phrasesToRegex arg =
    ("(?i)(" : Str) ++ Str.join ['|'] ((Str.splitWhitespace arg).map Flagged.escape) ++
      (")" : Str) := by
  have hkept : ∀ alt ∈ (Str.splitWhitespace arg).map regexEscape, (!alt.isEmpty) = true := by
    intro alt halt
    obtain ⟨phrase, hphrase, rfl⟩ := List.mem_map.mp halt
    have hne := escape_ne_nil (Str.of_mem_splitWhitespace hphrase).1
    rw [regexEscape_eq]
    simpa using hne
  unfold phrasesToRegex
  rw [List.filter_eq_self.mpr hkept]
  rfl

/-- **The pattern of a phrase list** matches where one of the phrases occurs, and everywhere if
there is none. -/
theorem phrases_regex_iff {arg : Str} (h : AsciiPhrases arg) (value : Str) :
    RegexMatches (phrasesToRegex arg) value ↔
      Str.splitWhitespace arg = [] ∨ PhraseOccurs arg value := by
  obtain ⟨p, hread, hoccurs⟩ := Flagged.occurs_alternatives_iff h
  rw [← phrasesToRegex_eq] at hread
  unfold RegexMatches PhraseOccurs
  rw [hread, ← hoccurs]
  simp only [Option.some.injEq, exists_eq_left']

/-! ## The condition that is loaded -/

variable {X : Crates}

/-- What the documentation of `regex` says of the patterns that are read here. -/
def ReadsAsDocumented (X : Crates) : Prop :=
  ∀ {pattern : Str} {re : X.Regex} {p : Flagged}, X.regexNew pattern = .ok re →
    Flagged.read pattern = some p → ∀ value : Str, X.isMatch re value = true ↔ p.Occurs value

/-- The condition that is loaded for `@pm` tests whether a phrase occurs, if there is one. -/
theorem compiled_phrases_iff (hX : ReadsAsDocumented X) {m : ParsedRule}
    (hname : m.opName = ("pm" : Str)) (hascii : AsciiPhrases m.opArg) {op : Str × Option Str}
    (hop : (mapOperator X m.opName m.opArg).1 = .ok op) {target : Str × Option Str} {rule : Str}
    {defaultTz : Int} {cond : CompiledCond X}
    (h : compileCond X rule (emitCond m op target).toDef defaultTz = .ok cond) (value : Str) :
    evalOp cond.op value = true ↔
      Str.splitWhitespace m.opArg = [] ∨ PhraseOccurs m.opArg value := by
  have hpattern : op = (("regex" : Str), some (phrasesToRegex m.opArg)) := by
    unfold mapOperator at hop
    rw [hname] at hop
    by_cases hmacro : Str.contains ("%\x7b" : Str) m.opArg = true
    · rw [if_pos hmacro] at hop
      cases hop
    · rw [if_neg hmacro] at hop
      exact (Except.ok.inj hop).symm
  subst hpattern
  obtain ⟨-, hcompiled, -, -⟩ := compileCond_spec h
  obtain ⟨re, hre, hcond⟩ := compileOp_regex rfl hcompiled
  obtain ⟨p, hread, hoccurs⟩ := Flagged.occurs_alternatives_iff hascii
  rw [← phrasesToRegex_eq] at hread
  rw [hcond]
  exact (hX hre hread value).trans (hoccurs value)

/-! ## Which argument lists keep their meaning -/

/-- An empty list has no phrase that occurs. -/
theorem not_phraseOccurs {arg : Str} (h : Str.splitWhitespace arg = []) (value : Str) :
    ¬ PhraseOccurs arg value := by
  rintro ⟨phrase, hphrase, -⟩
  rw [h] at hphrase
  cases hphrase

/-- A test that matches where a phrase occurs, and everywhere if there is none, keeps the meaning of
a list exactly if the list has a phrase. -/
theorem phrases_kept_iff {arg : Str} {matches_ : Str → Prop}
    (h : ∀ value, matches_ value ↔ Str.splitWhitespace arg = [] ∨ PhraseOccurs arg value) :
    (∀ value, matches_ value ↔ PhraseOccurs arg value) ↔
      ∃ c ∈ arg, Str.isWhitespace c = false := by
  have hphrases : (∃ c ∈ arg, Str.isWhitespace c = false) ↔ Str.splitWhitespace arg ≠ [] := by
    rw [Ne, Str.splitWhitespace_eq_nil_iff]
    simp
  rw [hphrases]
  constructor
  · intro hkept hnone
    exact not_phraseOccurs hnone [] ((hkept []).mp ((h []).mpr (.inl hnone)))
  · intro hne value
    rw [h]
    exact or_iff_right hne

/-- **`@pm` keeps its meaning** exactly if its argument has a phrase, that is, a character that is
no white space. The same holds of the condition that is loaded for it, where `regex` matches as
documented. -/
theorem pm_kept_iff {arg : Str} (h : AsciiPhrases arg) :
    ((∀ value, RegexMatches (phrasesToRegex arg) value ↔ PhraseOccurs arg value) ↔
      ∃ c ∈ arg, Str.isWhitespace c = false) ∧
    ∀ {X : Crates}, ReadsAsDocumented X → ∀ {m : ParsedRule}, m.opName = ("pm" : Str) →
      m.opArg = arg → ∀ {op : Str × Option Str} {target : Str × Option Str} {rule : Str}
        {defaultTz : Int} {cond : CompiledCond X}, (mapOperator X m.opName m.opArg).1 = .ok op →
      compileCond X rule (emitCond m op target).toDef defaultTz = .ok cond →
      ((∀ value, evalOp cond.op value = true ↔ PhraseOccurs arg value) ↔
        ∃ c ∈ arg, Str.isWhitespace c = false) := by
  refine ⟨phrases_kept_iff fun value => phrases_regex_iff h value, ?_⟩
  rintro X hX m hname rfl op target rule defaultTz cond hop hcond
  exact phrases_kept_iff fun value => compiled_phrases_iff hX hname h hop hcond value

/-- The phrases of the tests of the source, in another case. -/
theorem etc_passwd_kept :
    RegexMatches (phrasesToRegex "/etc/passwd cmd.exe") "a=CMD.EXE" ∧
      ¬ RegexMatches (phrasesToRegex "/etc/passwd cmd.exe") "a=cmd_exe" := by
  have hascii : AsciiPhrases "/etc/passwd cmd.exe" := by decide +kernel
  have hkept := (pm_kept_iff hascii).1.mpr ⟨'/', by decide, by decide⟩
  constructor
  · exact (hkept _).mpr (by decide +kernel)
  · intro h
    exact absurd ((hkept _).mp h) (by decide +kernel)

/-- Without a phrase the pattern matches a text in which nothing was to be found. -/
theorem empty_phrase_list_matches :
    AsciiPhrases [] ∧ RegexMatches (phrasesToRegex []) "x" ∧ ¬ PhraseOccurs [] "x" ∧
      ¬ ∀ value, RegexMatches (phrasesToRegex []) value ↔ PhraseOccurs [] value := by
  have hascii : AsciiPhrases [] := fun _ h => absurd h List.not_mem_nil
  have hmatches : RegexMatches (phrasesToRegex []) "x" :=
    (phrases_regex_iff hascii _).mpr (.inl rfl)
  have hnone : ¬ PhraseOccurs [] "x" := not_phraseOccurs rfl _
  exact ⟨hascii, hmatches, hnone, fun hkept => hnone ((hkept _).mp hmatches)⟩

end BuduWaf.Rules.Modsec
