import BuduWaf.Lib.Split
import Mathlib.Computability.RegularExpressions

/-!
# Patterns

Regular expressions that are looked for anywhere in a text, or at its end only.

* **`Pattern.Occurs`**: some word of the expression is a part of the text, or ends it.
* **`search_iff`**: whether it is, computed.
* **`occurs_append_cons_iff`**: on a text with a separator that the expression does not mention, a
  pattern occurs on one side; at the end only, on the right one.
* **`Pattern.read`**: a part of the written syntax. Literal ASCII characters, escapes, a range in
  brackets, groups that capture nothing, `*`, `+`, `|`, and `$` at the end.

An expression is Mathlib's `RegularExpression`, and what it matches is the language of that. The
written syntax is read into it, so that a pattern of a program can stay a text in its model.

The separator lemma is what makes patterns local: a word of an expression has the letters of the
expression only (`mem_letters`), so none reaches over a character that the expression does not
mention, and a pattern found in a joined text is found in one of its parts.
-/

namespace BuduWaf

/-- A regular expression, and whether it is to stand at the end of the text. -/
structure Pattern (α : Type) where
  /-- The expression. -/
  expr : RegularExpression α
  /-- Whether it is to stand at the end. -/
  atEnd : Bool

namespace Pattern

section occurrences

variable {α : Type}

/-- Some word of the expression is in the text, at the end of it if it is to stand there. -/
def Occurs (p : Pattern α) (hay : List α) : Prop :=
  ∃ w ∈ p.expr.matches', if p.atEnd then w <:+ hay else w <:+: hay

/-- The letters an expression mentions, from left to right. -/
def letters : RegularExpression α → List α
  | .zero | .epsilon => []
  | .char a => [a]
  | .plus e f | .comp e f => letters e ++ letters f
  | .star e => letters e

/-- The words of an expression have its letters only. -/
theorem mem_letters {e : RegularExpression α} {w : List α} (h : w ∈ e.matches') {a : α}
    (ha : a ∈ w) : a ∈ letters e := by
  induction e generalizing w with
  | zero => cases h
  | epsilon =>
      obtain rfl := Language.mem_one w |>.mp h
      cases ha
  | char b =>
      obtain rfl : w = [b] := h
      exact ha
  | plus e f ihe ihf =>
      rcases h with h | h
      · exact List.mem_append_left _ (ihe h ha)
      · exact List.mem_append_right _ (ihf h ha)
  | comp e f ihe ihf =>
      obtain ⟨u, hu, v, hv, rfl⟩ := Language.mem_mul.mp h
      rcases List.mem_append.mp ha with ha | ha
      · exact List.mem_append_left _ (ihe hu ha)
      · exact List.mem_append_right _ (ihf hv ha)
  | star e ih =>
      obtain ⟨parts, rfl, hparts⟩ := Language.mem_kstar.mp h
      obtain ⟨part, hpart, ha⟩ := List.mem_flatten.mp ha
      exact ih (hparts part hpart) ha

/-- The expression `1` matches the empty word only. -/
theorem mem_one_iff {w : List α} : w ∈ (1 : RegularExpression α).matches' ↔ w = [] := Iff.rfl

/-- A character matches the word of itself only. -/
theorem mem_char_iff {a : α} {w : List α} :
    w ∈ (RegularExpression.char a).matches' ↔ w = [a] := Iff.rfl

/-- An alternative matches what one of its sides matches. -/
theorem mem_plus_iff {e f : RegularExpression α} {w : List α} :
    w ∈ (e + f).matches' ↔ w ∈ e.matches' ∨ w ∈ f.matches' := Iff.rfl

/-- A sequence matches a word of its first side followed by one of its second. -/
theorem mem_comp_iff {e f : RegularExpression α} {w : List α} :
    w ∈ (e * f).matches' ↔ ∃ u ∈ e.matches', ∃ v ∈ f.matches', u ++ v = w := Language.mem_mul

/-- The words of a letter that is repeated are its repetitions. -/
theorem mem_star_char_iff {a : α} {w : List α} :
    w ∈ (RegularExpression.char a).star.matches' ↔ ∃ n, w = List.replicate n a := by
  constructor
  · intro h
    have hall : ∀ b ∈ w, b = a := fun b hb => List.mem_singleton.mp (mem_letters h hb)
    exact ⟨w.length, List.eq_replicate_of_mem hall⟩
  · rintro ⟨n, rfl⟩
    refine Language.mem_kstar.mpr ⟨List.replicate n [a], ?_, ?_⟩
    · rw [List.flatten_replicate_singleton]
    · intro part hpart
      exact (List.mem_replicate.mp hpart).2

/-- **Occurrences beside a separator**: a pattern that does not mention it occurs on one side, or,
where it is to stand at the end, on the right one. -/
theorem occurs_append_cons_iff {p : Pattern α} {s : α} (h : s ∉ letters p.expr) (a b : List α) :
    p.Occurs (a ++ s :: b) ↔ (p.atEnd = false ∧ p.Occurs a) ∨ p.Occurs b := by
  have hfree : ∀ w ∈ p.expr.matches', s ∉ w := fun w hw hs => h (mem_letters hw hs)
  unfold Occurs
  cases p.atEnd with
  | false =>
      simp only [Bool.false_eq_true, if_false, true_and]
      rw [← exists_or]
      refine exists_congr fun w => ?_
      rw [← and_or_left]
      refine and_congr_right fun hw => ?_
      exact Str.infix_append_cons_iff (hfree w hw) a b
  | true =>
      simp only [if_true, Bool.true_eq_false, false_and, false_or]
      refine exists_congr fun w => and_congr_right fun hw => ?_
      constructor
      · intro hend
        rcases List.suffix_or_suffix_of_suffix hend (List.suffix_append a (s :: b)) with hb | ha
        · rcases List.suffix_cons_iff.mp hb with rfl | hb
          · exact absurd List.mem_cons_self (hfree _ hw)
          · exact hb
        · exact absurd (ha.subset List.mem_cons_self) (hfree w hw)
      · intro hend
        exact hend.trans ((List.suffix_cons s b).trans (List.suffix_append a _))

variable [DecidableEq α]

/-- Whether a pattern occurs in a text: some part of it, or of a pattern that is anchored at its end
some suffix, is one of its words. -/
def search (p : Pattern α) (hay : List α) : Bool :=
  hay.tails.any fun t => if p.atEnd then p.expr.rmatch t else t.inits.any p.expr.rmatch

/-- `search` says whether the pattern occurs. -/
theorem search_iff {p : Pattern α} {hay : List α} : p.search hay = true ↔ p.Occurs hay := by
  unfold search Occurs
  cases p.atEnd with
  | false =>
      simp only [Bool.false_eq_true, if_false, List.any_eq_true, List.mem_tails, List.mem_inits,
        RegularExpression.rmatch_iff_matches', List.infix_iff_prefix_suffix]
      constructor
      · rintro ⟨t, ht, w, hw, hmatch⟩
        exact ⟨w, hmatch, t, hw, ht⟩
      · rintro ⟨w, hmatch, t, hw, ht⟩
        exact ⟨t, ht, w, hw, hmatch⟩
  | true =>
      simp only [if_true, List.any_eq_true, List.mem_tails,
        RegularExpression.rmatch_iff_matches']
      exact exists_congr fun w => and_comm

instance (p : Pattern α) (hay : List α) : Decidable (p.Occurs hay) :=
  decidable_of_iff _ search_iff

end occurrences

/-! ## Reading patterns -/

/-- A group whose closing bracket is still to come. -/
structure Group where
  /-- The alternatives before the current one. -/
  before : List (RegularExpression Char)
  /-- The items of the current one, in reverse. -/
  items : List (RegularExpression Char)

namespace Group

/-- A group of which nothing has been read yet. -/
def empty : Group := ⟨[], []⟩

/-- The expression of items that follow each other. They are held in reverse. -/
def sequence (items : List (RegularExpression Char)) : RegularExpression Char :=
  items.foldr (fun item before => before * item) 1

/-- The expression of a group: the choice between its alternatives. -/
def expr (g : Group) : RegularExpression Char :=
  g.before.foldl (fun rest other => other + rest) (sequence g.items)

/-- The group with one more item in its current alternative. -/
def push (g : Group) (item : RegularExpression Char) : Group := { g with items := item :: g.items }

/-- The group with the last item of its current alternative repeated, if there is one to repeat. -/
def repeated (g : Group) (f : RegularExpression Char → RegularExpression Char) : Option Group :=
  match g.items with
  | [] => none
  | item :: items => some { g with items := f item :: items }

/-- The group with its current alternative finished and the next one begun. -/
def next (g : Group) : Group := ⟨sequence g.items :: g.before, []⟩

end Group

/-- The characters with a meaning of their own. -/
def metacharacters : List Char := "\\.+*?()|[]\x7b\x7d^$".toList

/-- One of the characters between two, both included. -/
def range (first last : Char) : RegularExpression Char :=
  (List.range' first.toNat (last.toNat + 1 - first.toNat)).foldr
    (fun n rest => .char (Char.ofNat n) + rest) 0

/-- The rest of a pattern, in a group and those around it. -/
def readFrom : Group → List Group → List Char → Option (Pattern Char)
  | g, [], [] => some ⟨g.expr, false⟩
  | _, _ :: _, [] => none
  | g, outer, '(' :: '?' :: ':' :: rest => readFrom .empty (g :: outer) rest
  | g, outer, '[' :: first :: '-' :: last :: ']' :: rest =>
    if first.isAlphanum && last.isAlphanum then readFrom (g.push (range first last)) outer rest
    else none
  | g, outer, '\\' :: c :: rest =>
    if metacharacters.contains c then readFrom (g.push (.char c)) outer rest else none
  | g, outer, c :: rest =>
    if c = ')' then
      match outer with
      | [] => none
      | around :: outer => readFrom (around.push g.expr) outer rest
    else if c = '|' then readFrom g.next outer rest
    else if c = '*' then (g.repeated .star).bind fun g => readFrom g outer rest
    else if c = '+' then (g.repeated fun e => e * .star e).bind fun g => readFrom g outer rest
    else if c = '$' then
      if rest.isEmpty && outer.isEmpty && g.before.isEmpty then some ⟨g.expr, true⟩ else none
    else if metacharacters.contains c || 0x80 ≤ c.toNat then none
    else readFrom (g.push (.char c)) outer rest

/-- A pattern as it is written, if all of it can be read. -/
def read (text : List Char) : Option (Pattern Char) := readFrom .empty [] text

end Pattern

end BuduWaf
