import BuduWaf.Lib.Case
import BuduWaf.Lib.Pattern

/-!
# Alternatives of escaped texts

Patterns that are written as texts with their metacharacters escaped, separated by bars.

* **`Flagged`**: a regular expression and whether it ignores the case of ASCII letters.
* **`Flagged.read`**: a part of the written syntax. The flag `(?i)` in front, literal ASCII
  characters, escapes, groups that capture, `*`, `+`, `|`.
* **`lex_escape`**: an escaped text is read as its characters, whatever they are.
* **`occurs_alternatives_iff`**: alternatives are found where one of the texts occurs; no
  alternatives at all, everywhere.

The proof follows a pattern through the two stages that read it. The lexer turns an escaped text
into one literal token for each of its characters (`lex_escape`), so a bar between two texts is the
only metacharacter left; the reader then takes the tokens up into a group, literal by literal, and
a bar starts the group's next alternative (`readTokens_alternatives`). What the group matches is
read off its two components, the alternatives that are finished and the items of the last one
(`mem_expr_iff`).

Scope: ASCII patterns. A pattern that uses any other construct (classes, anchors, counted
repetitions, other flags) is not read, and `Flagged.read` says so by `none`.
-/

namespace BuduWaf

/-- A regular expression, and whether it ignores case. -/
structure Flagged where
  /-- Whether it was written behind `(?i)`. -/
  ignoreCase : Bool
  /-- The expression. -/
  expr : RegularExpression Char

namespace Flagged

open Pattern Str

/-- Texts that are the same, up to the case of ASCII letters where it is ignored. -/
def Same (ignoreCase : Bool) (v w : List Char) : Prop :=
  if ignoreCase then toAsciiLowercase v = toAsciiLowercase w else v = w

/-- A part of a text is the same as some word of the expression. -/
def Occurs (p : Flagged) (hay : List Char) : Prop :=
  ∃ w ∈ p.expr.matches', ∃ v, v <:+: hay ∧ Same p.ignoreCase v w

/-- Where case is ignored, words are looked for in the lower case of the text. -/
theorem occurs_ignoreCase_iff {e : RegularExpression Char} {hay : List Char} :
    Occurs ⟨true, e⟩ hay ↔ ∃ w ∈ e.matches', toAsciiLowercase w <:+: toAsciiLowercase hay := by
  unfold Occurs Same
  refine exists_congr fun w => and_congr_right fun _ => ?_
  simp only [if_true]
  unfold toAsciiLowercase
  rw [List.infix_map_iff]
  exact exists_congr fun v => and_congr_right fun _ => eq_comm

/-! ## Reading -/

/-- What a pattern of this subset is written with: characters that stand for themselves, brackets,
the bar, and the signs of repetition. -/
inductive Token where
  | literal (c : Char)
  | opening | closing | bar | star | plus
deriving DecidableEq

/-- The token of a character that no backslash precedes. Other metacharacters than these are outside
the subset. -/
def token (c : Char) : Option Token :=
  if c = '(' then some .opening
  else if c = ')' then some .closing
  else if c = '|' then some .bar
  else if c = '*' then some .star
  else if c = '+' then some .plus
  else if metacharacters.contains c || 0x80 ≤ c.toNat then none
  else some (.literal c)

/-- The tokens of a pattern. A backslash is read together with the character it escapes. -/
def lex : List Char → Option (List Token)
  | [] => some []
  | '\\' :: c :: rest =>
    if metacharacters.contains c then (lex rest).map (.literal c :: ·) else none
  | c :: rest => (token c).bind fun t => (lex rest).map (t :: ·)

/-- The rest of a pattern, in a group and those around it. -/
def readTokens : Group → List Group → List Token → Option (RegularExpression Char)
  | g, [], [] => some g.expr
  | _, _ :: _, [] => none
  | g, outer, .literal c :: rest => readTokens (g.push (.char c)) outer rest
  | g, outer, .opening :: rest => readTokens .empty (g :: outer) rest
  | _, [], .closing :: _ => none
  | g, around :: outer, .closing :: rest => readTokens (around.push g.expr) outer rest
  | g, outer, .bar :: rest => readTokens g.next outer rest
  | g, outer, .star :: rest => (g.repeated .star).bind fun g => readTokens g outer rest
  | g, outer, .plus :: rest =>
    (g.repeated fun e => e * .star e).bind fun g => readTokens g outer rest

/-- A pattern as it is written: `(?i)` at its begin makes it ignore case, and the rest is read as
alternatives. -/
def read (text : List Char) : Option Flagged :=
  match stripPrefix ("(?i)" : Str) text with
  | some rest => ((lex rest).bind (readTokens .empty [])).map (⟨true, ·⟩)
  | none => ((lex text).bind (readTokens .empty [])).map (⟨false, ·⟩)

/-! ## Escaped texts -/

/-- A text with its metacharacters escaped. -/
def escape (s : List Char) : List Char :=
  s.flatMap fun c => if metacharacters.contains c then ['\\', c] else [c]

/-- Any ASCII character is read back from its escaped form. -/
theorem lex_escape_char {c : Char} (hc : c.toNat < 0x80) (rest : List Char) :
    lex ((if metacharacters.contains c then ['\\', c] else [c]) ++ rest) =
      (lex rest).map (.literal c :: ·) := by
  by_cases hmeta : metacharacters.contains c = true
  · rw [if_pos hmeta]
    show (if metacharacters.contains c then _ else _) = _
    rw [if_pos hmeta]
    rfl
  · have hother : ∀ d ∈ metacharacters, c ≠ d := by
      rintro d hd rfl
      exact hmeta (List.contains_iff_mem.mpr hd)
    have htoken : token c = some (.literal c) := by
      unfold token
      rw [if_neg (hother '(' (by decide)), if_neg (hother ')' (by decide)),
        if_neg (hother '|' (by decide)), if_neg (hother '*' (by decide)),
        if_neg (hother '+' (by decide)), if_neg]
      rw [Bool.or_eq_true, decide_eq_true_eq]
      rintro (h | h)
      · exact hmeta h
      · omega
    rw [if_neg hmeta, List.singleton_append, lex, htoken]
    · rfl
    · intro d rest' hback
      exact absurd hback (hother '\\' (by decide))

/-- **An escaped text is read as its characters.** -/
theorem lex_escape {s : List Char} (h : ∀ c ∈ s, c.toNat < 0x80) (rest : List Char) :
    lex (escape s ++ rest) = (lex rest).map (s.map .literal ++ ·) := by
  induction s with
  | nil =>
      show lex rest = (lex rest).map fun ts => ts
      rw [Option.map_id']
  | cons c s ih =>
      have hc := h c List.mem_cons_self
      have hs := ih fun d hd => h d (List.mem_cons_of_mem c hd)
      have hcons : escape (c :: s) =
          (if metacharacters.contains c then ['\\', c] else [c]) ++ escape s := rfl
      rw [hcons, List.append_assoc, lex_escape_char hc, hs, Option.map_map]
      rfl

/-! ## Alternatives -/

/-- The tokens of texts separated by bars. -/
def alternatives (texts : List (List Char)) : List Token :=
  [Token.bar].intercalate (texts.map fun s => s.map .literal)

/-- Texts that are escaped and separated by bars are read as such. -/
theorem lex_alternatives {texts : List (List Char)} (h : ∀ s ∈ texts, ∀ c ∈ s, c.toNat < 0x80)
    (rest : List Char) :
    lex (join ['|'] (texts.map escape) ++ rest) =
      (lex rest).map (alternatives texts ++ ·) := by
  induction texts with
  | nil =>
      show lex rest = (lex rest).map fun ts => ts
      rw [Option.map_id']
  | cons s texts ih =>
      have hs := h s List.mem_cons_self
      have hrest := ih fun s' hs' => h s' (List.mem_cons_of_mem s hs')
      cases texts with
      | nil =>
          simp only [join, alternatives, List.map_cons, List.map_nil, List.intercalate_singleton]
          exact lex_escape hs rest
      | cons s' texts =>
          have hbar : ∀ tail, lex ('|' :: tail) = (lex tail).map (Token.bar :: ·) := by
            intro tail
            rw [lex]
            · rfl
            · intro c rest' hback
              exact absurd hback (by decide)
          simp only [join, alternatives, List.map_cons, List.intercalate_cons_cons,
            List.append_assoc, List.cons_append, List.nil_append] at hrest ⊢
          rw [lex_escape hs, hbar, hrest, Option.map_map, Option.map_map]
          rfl

/-- A group with the characters of a text behind its items. -/
def pushText (g : Group) (s : List Char) : Group :=
  s.foldl (fun g c => g.push (.char c)) g

/-- A group with alternatives read in it. -/
def pushAlternatives : Group → List (List Char) → Group
  | g, [] => g
  | g, [s] => pushText g s
  | g, s :: s' :: texts => pushAlternatives (pushText g s).next (s' :: texts)

/-- A literal is one more item of the group that is being read. -/
theorem readTokens_literal (g : Group) (outer : List Group) (c : Char) (rest : List Token) :
    readTokens g outer (.literal c :: rest) = readTokens (g.push (.char c)) outer rest := by
  cases outer <;> rfl

/-- A bar ends the alternative that is being read. -/
theorem readTokens_bar (g : Group) (outer : List Group) (rest : List Token) :
    readTokens g outer (.bar :: rest) = readTokens g.next outer rest := by
  cases outer <;> rfl

/-- The literals of a text are read one after another into the group. -/
theorem readTokens_text (g : Group) (outer : List Group) (s : List Char) (rest : List Token) :
    readTokens g outer (s.map .literal ++ rest) = readTokens (pushText g s) outer rest := by
  induction s generalizing g with
  | nil => rfl
  | cons c s ih => exact (readTokens_literal g outer c _).trans (ih (g.push (.char c)))

/-- Texts with bars between them are read as the alternatives of a group. -/
theorem readTokens_alternatives (g : Group) (outer : List Group) (texts : List (List Char))
    (rest : List Token) :
    readTokens g outer (alternatives texts ++ rest) =
      readTokens (pushAlternatives g texts) outer rest := by
  induction texts generalizing g with
  | nil => rfl
  | cons s texts ih =>
      cases texts with
      | nil =>
          have hone : alternatives [s] = s.map .literal := List.intercalate_singleton
          rw [hone]
          exact readTokens_text g outer s rest
      | cons s' texts =>
          have hcons : alternatives (s :: s' :: texts) ++ rest =
              s.map .literal ++ .bar :: (alternatives (s' :: texts) ++ rest) := by
            simp [alternatives, List.intercalate_cons_cons]
          rw [hcons, readTokens_text, readTokens_bar]
          exact ih (pushText g s).next

/-- A group matches what its last alternative or one of those before matches. -/
theorem mem_expr_iff {g : Group} {w : List Char} : w ∈ g.expr.matches' ↔
    w ∈ (Group.sequence g.items).matches' ∨ ∃ e ∈ g.before, w ∈ e.matches' := by
  have hfold : ∀ (before : List (RegularExpression Char)) (e : RegularExpression Char),
      w ∈ (before.foldl (fun rest other => other + rest) e).matches' ↔
        w ∈ e.matches' ∨ ∃ e' ∈ before, w ∈ e'.matches' := by
    intro before
    induction before with
    | nil => simp
    | cons other before ih =>
        intro e
        rw [List.foldl_cons, ih, mem_plus_iff]
        simp only [List.mem_cons, exists_eq_or_imp]
        rw [or_comm (a := w ∈ other.matches'), or_assoc]
  exact hfold g.before _

/-- The words of items with a text behind them. -/
theorem mem_sequence_pushText {g : Group} {s w : List Char} :
    w ∈ (Group.sequence (pushText g s).items).matches' ↔
      ∃ u ∈ (Group.sequence g.items).matches', u ++ s = w := by
  induction s generalizing g with
  | nil => simp [pushText]
  | cons c s ih =>
      have hpush : pushText g (c :: s) = pushText (g.push (.char c)) s := rfl
      have hitem : ∀ v, v ∈ (Group.sequence (g.push (.char c)).items).matches' ↔
          ∃ u ∈ (Group.sequence g.items).matches', u ++ [c] = v := by
        intro v
        show v ∈ (Group.sequence g.items * .char c).matches' ↔ _
        rw [mem_comp_iff]
        simp only [mem_char_iff, exists_eq_left]
      rw [hpush, ih]
      simp only [hitem]
      constructor
      · rintro ⟨_, ⟨u, hu, rfl⟩, rfl⟩
        exact ⟨u, hu, by simp⟩
      · rintro ⟨u, hu, rfl⟩
        exact ⟨u ++ [c], ⟨u, hu, rfl⟩, by simp⟩

/-- **The words of alternatives** are the texts; where there are none, the empty word. -/
theorem mem_pushAlternatives_iff {texts : List (List Char)} {before : List (RegularExpression Char)}
    {w : List Char} : w ∈ (pushAlternatives ⟨before, []⟩ texts).expr.matches' ↔
      (w ∈ texts ∨ (texts = [] ∧ w = [])) ∨ ∃ e ∈ before, w ∈ e.matches' := by
  have htext : ∀ {before : List (RegularExpression Char)} {s v : List Char},
      v ∈ (Group.sequence (pushText ⟨before, []⟩ s).items).matches' ↔ v = s := by
    intro before s v
    rw [mem_sequence_pushText]
    simp only [Group.sequence, List.foldr_nil, mem_one_iff, exists_eq_left, List.nil_append]
    exact eq_comm
  have hbefore : ∀ (s : List Char) (g : Group), (pushText g s).before = g.before := by
    intro s
    induction s with
    | nil => exact fun _ => rfl
    | cons c s ih => exact fun g => ih (g.push (.char c))
  induction texts generalizing before with
  | nil =>
      unfold pushAlternatives
      rw [mem_expr_iff]
      simp [Group.sequence, mem_one_iff, -RegularExpression.matches']
  | cons s texts ih =>
      cases texts with
      | nil =>
          unfold pushAlternatives
          rw [mem_expr_iff, htext, hbefore]
          simp
      | cons s' texts =>
          have hnext : (pushText ⟨before, []⟩ s).next =
              ⟨Group.sequence (pushText ⟨before, []⟩ s).items :: before, []⟩ := by
            unfold Group.next
            rw [hbefore]
          unfold pushAlternatives
          rw [hnext]
          refine Iff.trans ih ?_
          simp only [List.mem_cons, exists_eq_or_imp, htext, reduceCtorEq, false_and, or_false]
          tauto

/-- **Alternatives of escaped texts**, in a group and without regard to case, are found where one of
the texts occurs up to case; where there are none, everywhere. -/
theorem occurs_alternatives_iff {texts : List (List Char)}
    (h : ∀ s ∈ texts, ∀ c ∈ s, c.toNat < 0x80) :
    ∃ p, read (("(?i)(" : Str) ++ join ['|'] (texts.map escape) ++ (")" : Str)) = some p ∧
      ∀ hay, p.Occurs hay ↔
        texts = [] ∨ ∃ s ∈ texts, toAsciiLowercase s <:+: toAsciiLowercase hay := by
  have hopen : ∀ rest : List Char, lex ('(' :: rest) = (lex rest).map (Token.opening :: ·) := by
    intro rest
    rw [lex]
    · rfl
    · intro c rest' hback
      exact absurd hback (by decide)
  have hread : read (("(?i)(" : Str) ++ join ['|'] (texts.map escape) ++ (")" : Str)) =
      some ⟨true, (Group.empty.push (pushAlternatives .empty texts).expr).expr⟩ := by
    have hstrip : stripPrefix ("(?i)" : Str)
        (("(?i)(" : Str) ++ join ['|'] (texts.map escape) ++ (")" : Str)) =
          some ('(' :: (join ['|'] (texts.map escape) ++ (")" : Str))) := rfl
    have hclose : lex (")" : Str) = some [.closing] := rfl
    have hgroup : readTokens .empty [] (.opening :: (alternatives texts ++ [.closing])) =
        some (Group.empty.push (pushAlternatives .empty texts).expr).expr := by
      show readTokens .empty [.empty] (alternatives texts ++ [.closing]) = _
      rw [readTokens_alternatives]
      rfl
    unfold read
    rw [hstrip]
    dsimp only
    rw [hopen, lex_alternatives h, hclose, Option.map_some, Option.map_some, Option.bind_some,
      hgroup, Option.map_some]
  refine ⟨_, hread, fun hay => ?_⟩
  have hword : ∀ w, w ∈ (Group.empty.push (pushAlternatives .empty texts).expr).expr.matches' ↔
      w ∈ texts ∨ (texts = [] ∧ w = []) := by
    intro w
    have hnone : ¬ ∃ e ∈ ([] : List (RegularExpression Char)), w ∈ e.matches' := by simp
    have hinner : w ∈ (pushAlternatives ⟨[], []⟩ texts).expr.matches' ↔
        (w ∈ texts ∨ (texts = [] ∧ w = [])) ∨
          ∃ e ∈ ([] : List (RegularExpression Char)), w ∈ e.matches' := mem_pushAlternatives_iff
    rw [or_iff_left hnone] at hinner
    rw [mem_expr_iff]
    refine (or_iff_left hnone).trans ?_
    show w ∈ (1 * (pushAlternatives .empty texts).expr : RegularExpression Char).matches' ↔ _
    rw [mem_comp_iff]
    simp only [mem_one_iff, exists_eq_left, List.nil_append, exists_eq_right]
    exact hinner
  rw [occurs_ignoreCase_iff]
  simp only [hword]
  constructor
  · rintro ⟨w, hw | ⟨hnone, -⟩, hin⟩
    · exact .inr ⟨w, hw, hin⟩
    · exact .inl hnone
  · rintro (hnone | ⟨s, hs, hin⟩)
    · exact ⟨[], .inr ⟨hnone, rfl⟩, List.nil_infix⟩
    · exact ⟨s, .inl hs, hin⟩

end Flagged

end BuduWaf
