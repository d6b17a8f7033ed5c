import BuduWaf.Lib.Lines
import Mathlib.Data.List.Infix

/-!
# Splitting at a needle

The pieces between the leftmost occurrences of a needle, on lists of anything.

* **Separators**: no occurrence reaches across an element that is not in the needle
  (`infix_append_cons_iff`), so a needle written behind such an element ends a piece
  (`splitSub_append_needle`).
* **`splitSub_cut`**: the first piece is cut off where the needle occurs.
* **`splitSub_utf8`**: a text is split at an ASCII needle as its bytes are.

* **`splitSub_induction`**: an induction rule that follows the cuts: a text without the needle is
  one piece, and one with it is cut at its first occurrence.
* **`intercalate_splitSub`**, **`not_infix_of_mem_splitSub`**: the pieces joined by the needle are
  the text, and no piece has the needle in it. The two together determine the pieces.
* **`splitOnce_eq_some_iff`**, **`stripPrefix_eq_some_iff`** and their like say of each function on
  texts exactly when it gives a result and which.

The recursion itself keeps the current piece in reverse and a count of elements to pass over. Each
lemma on it (`splitSubFrom_skip`, `splitSubFrom_needle`, `splitSubFrom_free`) says what one stretch
of the input does to these, and the statements about `splitSub` are assembled from them.
-/

namespace BuduWaf.Str

variable {α : Type}

/-! ## Pieces -/

/-- What is in a piece is in the pieces joined. -/
theorem mem_of_mem_intercalate {sep : α} {pieces : List (List α)} {piece : List α} {a : α}
    (hpiece : piece ∈ pieces) (ha : a ∈ piece) : a ∈ [sep].intercalate pieces := by
  induction pieces with
  | nil => cases hpiece
  | cons first pieces ih =>
      rcases List.mem_cons.mp hpiece with rfl | hrest
      · cases pieces with
        | nil => simpa using ha
        | cons second pieces =>
            rw [List.intercalate_cons_cons]
            simp [ha]
      · rw [List.intercalate_cons_of_ne_nil (List.ne_nil_of_mem hrest)]
        exact List.mem_append_right _ (ih hrest)

/-- What holds of the separator and of the elements of the pieces holds of the elements of the
whole. -/
theorem forall_mem_intercalate {P : α → Prop} {sep : α} (hsep : P sep) {pieces : List (List α)}
    (h : ∀ piece ∈ pieces, ∀ a ∈ piece, P a) : ∀ a ∈ [sep].intercalate pieces, P a := by
  induction pieces with
  | nil => simp
  | cons first pieces ih =>
      have hfirst := h first List.mem_cons_self
      have hrest := ih fun piece hpiece => h piece (List.mem_cons_of_mem first hpiece)
      cases pieces with
      | nil => simpa using hfirst
      | cons second pieces =>
          intro a ha
          rw [List.intercalate_cons_cons] at ha
          rcases List.mem_append.mp ha with ha | ha
          · rcases List.mem_append.mp ha with ha | ha
            · exact hfirst a ha
            · rwa [List.mem_singleton.mp ha]
          · exact hrest a ha

/-- What stands between separators stands in the whole. -/
theorem mem_of_mem_splitOn [BEq α] [LawfulBEq α] {s piece : List α} {sep a : α}
    (hpiece : piece ∈ s.splitOn sep) (ha : a ∈ piece) : a ∈ s := by
  have hmem : a ∈ [sep].intercalate (s.splitOn sep) := mem_of_mem_intercalate hpiece ha
  rwa [List.intercalate_splitOn] at hmem

/-- Two tests that agree on a list drop the same prefix of it. -/
theorem dropWhile_congr {p q : α → Bool} {s : List α} (h : ∀ a ∈ s, p a = q a) :
    s.dropWhile p = s.dropWhile q := by
  induction s with
  | nil => rfl
  | cons a s ih =>
      have ha := h a List.mem_cons_self
      have hrest := ih fun b hb => h b (List.mem_cons_of_mem a hb)
      rw [List.dropWhile_cons, List.dropWhile_cons, ha, hrest]

/-- Trimming looks at the elements of the text only. -/
theorem rdropWhile_dropWhile_congr {p q : α → Bool} {s : List α} (h : ∀ a ∈ s, p a = q a) :
    (s.dropWhile p).rdropWhile p = (s.dropWhile q).rdropWhile q := by
  have hleft : s.dropWhile p = s.dropWhile q := dropWhile_congr h
  have hright : (s.dropWhile q).reverse.dropWhile p = (s.dropWhile q).reverse.dropWhile q := by
    apply dropWhile_congr
    intro a ha
    have hmem := (List.dropWhile_sublist q).subset (List.mem_reverse.mp ha)
    exact h a hmem
  rw [List.rdropWhile, List.rdropWhile, hleft, hright]

/-! ## Occurrences and separators -/

/-- An occurrence at the front does not reach a separator. -/
theorem prefix_append_cons_iff {needle : List α} {s : α} (h : s ∉ needle) (a b : List α) :
    needle <+: a ++ s :: b ↔ needle <+: a := by
  constructor
  · rintro ⟨t, ht⟩
    rcases List.append_eq_append_iff.mp ht with ⟨c, ha, -⟩ | ⟨c, hneedle, hrest⟩
    · exact ⟨c, ha.symm⟩
    · cases c with
      | nil =>
          rw [hneedle, List.append_nil]
      | cons d c =>
          obtain rfl : s = d := (List.cons.inj hrest).1
          exact absurd (by simp [hneedle]) h
  · intro ha
    exact ha.trans (List.prefix_append a _)

/-- An occurrence lies on one side of a separator. -/
theorem infix_append_cons_iff {needle : List α} {s : α} (h : s ∉ needle) (a b : List α) :
    needle <:+: a ++ s :: b ↔ needle <:+: a ∨ needle <:+: b := by
  induction a with
  | nil =>
      have hfront : needle <+: s :: b → needle <:+: ([] : List α) := fun hstarts =>
        ((prefix_append_cons_iff h [] b).mp hstarts).isInfix
      rw [List.nil_append, List.infix_cons_iff]
      exact or_congr ⟨hfront, fun hnil => (List.infix_nil.mp hnil) ▸ List.nil_prefix⟩ Iff.rfl
  | cons c a ih =>
      have hfront := prefix_append_cons_iff h (c :: a) b
      rw [List.cons_append] at hfront ⊢
      rw [List.infix_cons_iff, List.infix_cons_iff, ih, hfront, or_assoc]

variable [BEq α] [LawfulBEq α] {needle : List α}

/-- `contains` says whether the needle occurs. -/
theorem contains_iff {hay : List α} : contains needle hay = true ↔ needle <:+: hay := by
  induction hay with
  | nil =>
      rw [contains, List.isEmpty_iff, List.infix_nil]
  | cons c hay ih =>
      rw [contains, Bool.or_eq_true, List.isPrefixOf_iff_prefix, ih, List.infix_cons_iff]

/-! ## Splitting -/

omit [LawfulBEq α] in
/-- The elements of an occurrence are passed over. -/
theorem splitSubFrom_skip (passed cur rest : List α) :
    splitSubFrom needle passed.length cur (passed ++ rest) = splitSubFrom needle 0 cur rest := by
  induction passed with
  | nil => rfl
  | cons c passed ih => exact ih

/-- An occurrence ends the current piece. -/
theorem splitSubFrom_needle (h : needle ≠ []) (cur rest : List α) :
    splitSubFrom needle 0 cur (needle ++ rest) = cur.reverse :: splitSub needle rest := by
  cases needle with
  | nil => exact absurd rfl h
  | cons d needle =>
      have hstarts : (d :: needle).isPrefixOf (d :: (needle ++ rest)) = true :=
        List.isPrefixOf_iff_prefix.mpr (List.prefix_append (d :: needle) rest)
      rw [List.cons_append, splitSubFrom.eq_def]
      simp only [hstarts, if_true]
      exact congrArg _ (splitSubFrom_skip needle [] rest)

/-- An element that starts no occurrence goes into the current piece. -/
theorem splitSubFrom_cons {c : α} {rest : List α} (h : ¬ needle <+: c :: rest) (cur : List α) :
    splitSubFrom needle 0 cur (c :: rest) = splitSubFrom needle 0 (c :: cur) rest := by
  have hstarts : ¬ needle.isPrefixOf (c :: rest) = true :=
    fun hfront => h (List.isPrefixOf_iff_prefix.mp hfront)
  rw [splitSubFrom.eq_def]
  simp only
  rw [if_neg hstarts]

/-- Elements that are not the needle's first one go into the current piece. -/
theorem splitSubFrom_append {d : α} {line : List α} (h : d ∉ line) (cur rest : List α) :
    splitSubFrom (d :: needle) 0 cur (line ++ rest) =
      splitSubFrom (d :: needle) 0 (line.reverse ++ cur) rest := by
  induction line generalizing cur with
  | nil => rfl
  | cons c line ih =>
      have hfront : ¬ d :: needle <+: c :: (line ++ rest) := by
        intro hstarts
        exact List.ne_of_not_mem_cons h (List.cons_prefix_cons.mp hstarts).1
      rw [List.cons_append, splitSubFrom_cons hfront, ih (List.not_mem_of_not_mem_cons h)]
      simp

/-- A part without an occurrence goes into the current piece, up to a separator. -/
theorem splitSubFrom_free {s : α} (hs : s ∉ needle) {a : List α} (ha : ¬ needle <:+: a)
    (cur rest : List α) :
    splitSubFrom needle 0 cur (a ++ s :: rest) =
      splitSubFrom needle 0 (s :: (a.reverse ++ cur)) rest := by
  induction a generalizing cur with
  | nil =>
      have hfront : ¬ needle <+: s :: rest := by
        intro hstarts
        exact ha ((prefix_append_cons_iff hs [] rest).mp hstarts).isInfix
      exact splitSubFrom_cons hfront cur
  | cons c a ih =>
      have hrest : ¬ needle <:+: a := fun h => ha (List.infix_cons_iff.mpr (.inr h))
      have hfront : ¬ needle <+: c :: (a ++ s :: rest) := by
        intro hstarts
        exact ha ((prefix_append_cons_iff hs (c :: a) rest).mp hstarts).isInfix
      rw [List.cons_append, splitSubFrom_cons hfront, ih hrest]
      simp

/-- The current piece goes before what the rest begins with. -/
theorem splitSubFrom_cur (needle hay : List α) (skip : Nat) :
    ∃ piece pieces, ∀ cur,
      splitSubFrom needle skip cur hay = (cur.reverse ++ piece) :: pieces := by
  induction hay generalizing skip with
  | nil =>
      refine ⟨[], [], fun cur => ?_⟩
      cases skip <;> simp [splitSubFrom]
  | cons c hay ih =>
      cases skip with
      | succ skip => exact ih skip
      | zero =>
          by_cases hfront : needle <+: c :: hay
          · refine ⟨[], splitSubFrom needle (needle.length - 1) [] hay, fun cur => ?_⟩
            rw [splitSubFrom.eq_def]
            simp only
            rw [if_pos (List.isPrefixOf_iff_prefix.mpr hfront), List.append_nil]
          · obtain ⟨piece, pieces, hpieces⟩ := ih 0
            refine ⟨c :: piece, pieces, fun cur => ?_⟩
            rw [splitSubFrom_cons hfront, hpieces]
            simp

/-- Without an occurrence the rest goes into the current piece. -/
theorem splitSubFrom_uncut {hay : List α} (h : ¬ needle <:+: hay) (cur : List α) :
    splitSubFrom needle 0 cur hay = [cur.reverse ++ hay] := by
  induction hay generalizing cur with
  | nil => simp [splitSubFrom]
  | cons c hay ih =>
      have hrest : ¬ needle <:+: hay := fun hmem => h (List.infix_cons_iff.mpr (.inr hmem))
      rw [splitSubFrom_cons fun hstarts => h hstarts.isInfix, ih hrest]
      simp

/-- A list in which the needle does not occur is one piece. -/
theorem splitSub_uncut {hay : List α} (h : ¬ needle <:+: hay) :
    splitSub needle hay = [hay] := splitSubFrom_uncut h []

/-- With an occurrence the first piece ends where the needle begins, for the first time. -/
theorem splitSub_first (hne : needle ≠ []) {hay : List α} (h : needle <:+: hay) :
    ∃ piece rest, hay = piece ++ needle ++ rest ∧ ¬ needle <:+: piece ∧
      splitSub needle hay = piece :: splitSub needle rest := by
  have hfrom : ∃ piece rest, hay = piece ++ needle ++ rest ∧ ¬ needle <:+: piece ∧ ∀ cur,
      splitSubFrom needle 0 cur hay = (cur.reverse ++ piece) :: splitSub needle rest := by
    induction hay with
    | nil => exact absurd (List.infix_nil.mp h) hne
    | cons c hay ih =>
        by_cases hfront : needle <+: c :: hay
        · obtain ⟨rest, hrest⟩ := hfront
          refine ⟨[], rest, hrest.symm, fun hnil => hne (List.infix_nil.mp hnil), fun cur => ?_⟩
          rw [← hrest, splitSubFrom_needle hne, List.append_nil]
        · obtain ⟨piece, rest, rfl, hfree, hpieces⟩ :=
            ih ((List.infix_cons_iff.mp h).resolve_left hfront)
          refine ⟨c :: piece, rest, rfl, ?_, fun cur => ?_⟩
          · intro hmem
            rcases List.infix_cons_iff.mp hmem with hstarts | hmem
            · rw [List.append_assoc] at hfront
              exact hfront (hstarts.trans (List.prefix_append (c :: piece) _))
            · exact hfree hmem
          · rw [splitSubFrom_cons hfront, hpieces]
            simp
  obtain ⟨piece, rest, hsplit, hfree, hpieces⟩ := hfrom
  exact ⟨piece, rest, hsplit, hfree, hpieces []⟩

/-- A list in which the needle occurs is split at an occurrence of it, and then on. -/
theorem splitSub_cut (hne : needle ≠ []) {hay : List α} (h : needle <:+: hay) :
    ∃ piece rest, hay = piece ++ needle ++ rest ∧
      splitSub needle hay = piece :: splitSub needle rest := by
  obtain ⟨piece, rest, hsplit, -, hpieces⟩ := splitSub_first hne h
  exact ⟨piece, rest, hsplit, hpieces⟩

/-- Splitting follows the first occurrence in a text, as long as there is one. -/
theorem splitSub_induction {P : List α → List (List α) → Prop} (hne : needle ≠ [])
    (hlast : ∀ hay, ¬ needle <:+: hay → P hay [hay])
    (hfirst : ∀ piece rest, ¬ needle <:+: piece → P rest (splitSub needle rest) →
      P (piece ++ needle ++ rest) (piece :: splitSub needle rest)) (hay : List α) :
    P hay (splitSub needle hay) := by
  induction hlength : hay.length using Nat.strong_induction_on generalizing hay with
  | _ n ih =>
      by_cases h : needle <:+: hay
      · obtain ⟨piece, rest, rfl, hfree, hpieces⟩ := splitSub_first hne h
        have hpos := List.length_pos_iff.mpr hne
        simp only [List.length_append] at hlength
        rw [hpieces]
        exact hfirst piece rest hfree (ih rest.length (by omega) rest rfl)
      · rw [splitSub_uncut h]
        exact hlast hay h

/-- Splitting always gives at least one piece. -/
theorem splitSub_ne_nil (hne : needle ≠ []) (hay : List α) : splitSub needle hay ≠ [] := by
  refine splitSub_induction (P := fun _ pieces => pieces ≠ []) hne ?_ ?_ hay
  · exact fun _ _ => List.cons_ne_nil _ _
  · exact fun _ _ _ _ => List.cons_ne_nil _ _

/-- **The pieces joined by the needle** are the text. -/
theorem intercalate_splitSub (hne : needle ≠ []) (hay : List α) :
    needle.intercalate (splitSub needle hay) = hay := by
  refine splitSub_induction (P := fun hay pieces => needle.intercalate pieces = hay) hne ?_ ?_ hay
  · exact fun _ _ => List.intercalate_singleton
  · intro piece rest _ ih
    rw [List.intercalate_cons_of_ne_nil (splitSub_ne_nil hne rest), ih, List.append_assoc]

/-- **No piece contains the needle**, so all places where it stands were cut. -/
theorem not_infix_of_mem_splitSub (hne : needle ≠ []) (hay : List α) :
    ∀ piece ∈ splitSub needle hay, ¬ needle <:+: piece := by
  refine splitSub_induction (P := fun _ pieces => ∀ piece ∈ pieces, ¬ needle <:+: piece) hne
    ?_ ?_ hay
  · intro hay h
    exact List.forall_mem_singleton.mpr h
  · intro piece rest hfree ih
    exact List.forall_mem_cons.mpr ⟨hfree, ih⟩

/-- **A needle behind a separator ends a piece**, whatever stands before. -/
theorem splitSub_append_needle (hne : needle ≠ []) {s : α} (hs : s ∉ needle) (a rest : List α) :
    splitSub needle (a ++ s :: (needle ++ rest)) =
      splitSub needle (a ++ [s]) ++ splitSub needle rest := by
  have hfrom : ∀ (skip : Nat) (cur : List α), skip ≤ a.length →
      splitSubFrom needle skip cur (a ++ s :: (needle ++ rest)) =
        splitSubFrom needle skip cur (a ++ [s]) ++ splitSub needle rest := by
    induction a with
    | nil =>
        intro skip cur hskip
        obtain rfl : skip = 0 := Nat.le_zero.mp hskip
        have hfront : ∀ tail, ¬ needle <+: s :: tail := by
          intro tail hstarts
          exact hne (List.prefix_nil.mp ((prefix_append_cons_iff hs [] tail).mp hstarts))
        rw [List.nil_append, List.nil_append, splitSubFrom_cons (hfront _),
          splitSubFrom_cons (hfront _), splitSubFrom_needle hne]
        rfl
    | cons c a ih =>
        intro skip cur hskip
        cases skip with
        | succ skip => exact ih skip cur (Nat.le_of_succ_le_succ hskip)
        | zero =>
            have hfront : ∀ tail, needle <+: c :: (a ++ s :: tail) ↔ needle <+: c :: a :=
              fun tail => prefix_append_cons_iff hs (c :: a) tail
            by_cases hstarts : needle <+: c :: a
            · have hlength : needle.length - 1 ≤ a.length := by
                have hle := hstarts.length_le
                rw [List.length_cons] at hle
                omega
              rw [List.cons_append, List.cons_append, splitSubFrom.eq_def,
                splitSubFrom.eq_def needle 0 cur (c :: (a ++ [s]))]
              simp only
              rw [if_pos (List.isPrefixOf_iff_prefix.mpr ((hfront _).mpr hstarts)),
                if_pos (List.isPrefixOf_iff_prefix.mpr ((hfront []).mpr hstarts)),
                ih _ _ hlength]
              rfl
            · rw [List.cons_append, List.cons_append,
                splitSubFrom_cons fun h => hstarts ((hfront _).mp h),
                splitSubFrom_cons fun h => hstarts ((hfront _).mp h), ih 0 _ (Nat.zero_le _)]
  exact hfrom 0 [] (Nat.zero_le _)

/-! ## Prefixes and suffixes -/

/-- `strip_prefix` leaves `r` exactly where the list is the prefix and then `r`. -/
theorem stripPrefix_eq_some_iff {p s r : List α} : stripPrefix p s = some r ↔ s = p ++ r := by
  induction p generalizing s with
  | nil => simp [stripPrefix, eq_comm]
  | cons c p ih =>
      cases s with
      | nil => simp [stripPrefix]
      | cons d s =>
          by_cases h : c = d
          · subst h
            simp [stripPrefix, ih]
          · simp [stripPrefix, h, Ne.symm h]

/-- `strip_prefix` takes off what a list begins with. -/
@[simp] theorem stripPrefix_append (p r : List α) : stripPrefix p (p ++ r) = some r :=
  stripPrefix_eq_some_iff.mpr rfl

/-- `strip_suffix` leaves `r` exactly where the list is `r` and then the suffix. -/
theorem stripSuffix_eq_some_iff {p s r : List α} : stripSuffix p s = some r ↔ s = r ++ p := by
  unfold stripSuffix
  rw [Option.map_eq_some_iff]
  simp only [stripPrefix_eq_some_iff]
  constructor
  · rintro ⟨r', h, rfl⟩
    have hs := congrArg List.reverse h
    simpa using hs
  · rintro rfl
    exact ⟨r.reverse, by simp, by simp⟩

/-- `strip_suffix` takes off what a list ends with. -/
@[simp] theorem stripSuffix_append (r p : List α) : stripSuffix p (r ++ p) = some r :=
  stripSuffix_eq_some_iff.mpr rfl

/-- A text is not longer after a suffix is stripped off it. -/
theorem length_stripSuffix_le (p s : List α) :
    ((stripSuffix p s).getD s).length ≤ s.length := by
  cases h : stripSuffix p s with
  | none => exact Nat.le_refl _
  | some r =>
      rw [stripSuffix_eq_some_iff.mp h]
      simp

/-- A text is cut at the first such character. -/
theorem splitOnce_append {c : Char} {a : Str} (h : c ∉ a) (b : Str) :
    splitOnce c (a ++ c :: b) = some (a, b) := by
  have hother : ∀ d ∈ a, (d != c) = true := by
    intro d hd
    exact bne_iff_ne.mpr fun heq => h (heq ▸ hd)
  have htake : (a ++ c :: b).takeWhile (· != c) = a := by
    rw [List.takeWhile_append_of_pos hother]
    simp
  have hdrop : (a ++ c :: b).dropWhile (· != c) = c :: b := by
    rw [List.dropWhile_append_of_pos hother]
    simp
  unfold splitOnce
  rw [List.span_eq_takeWhile_dropWhile, htake, hdrop]

/-- A text is cut at the first such character, and only there. -/
theorem splitOnce_eq_some_iff {c : Char} {s a b : Str} :
    splitOnce c s = some (a, b) ↔ s = a ++ c :: b ∧ c ∉ a := by
  constructor
  · intro h
    by_cases hc : c ∈ s
    · obtain ⟨a', b', rfl, ha'⟩ := List.eq_append_cons_of_mem hc
      rw [splitOnce_append ha'] at h
      obtain ⟨rfl, rfl⟩ := Prod.mk.inj (Option.some.inj h)
      exact ⟨rfl, ha'⟩
    · have hall : s.dropWhile (· != c) = [] := by
        rw [List.dropWhile_eq_nil_iff]
        intro d hd
        exact bne_iff_ne.mpr fun heq => hc (heq ▸ hd)
      unfold splitOnce at h
      rw [List.span_eq_takeWhile_dropWhile, hall] at h
      cases h
  · rintro ⟨rfl, ha⟩
    exact splitOnce_append ha b

/-- `split_once` finds nothing exactly where the separator does not occur. -/
theorem splitOnce_eq_none_iff {c : Char} {s : Str} : splitOnce c s = none ↔ c ∉ s := by
  constructor
  · intro h hc
    obtain ⟨a, b, rfl, ha⟩ := List.eq_append_cons_of_mem hc
    rw [splitOnce_append ha] at h
    cases h
  · intro h
    cases hsplit : splitOnce c s with
    | none => rfl
    | some p =>
        obtain ⟨rfl, -⟩ := splitOnce_eq_some_iff.mp (hsplit.trans (congrArg some (Prod.eta p).symm))
        exact absurd (List.mem_append_right _ List.mem_cons_self) h

/-- What stands before the first such character is what is taken while there is none, also where
there is none at all. -/
theorem splitOnce_elim_fst (c : Char) (s : Str) :
    (splitOnce c s).elim s Prod.fst = s.takeWhile (· != c) := by
  unfold splitOnce
  rw [List.span_eq_takeWhile_dropWhile]
  cases hrest : s.dropWhile (· != c) with
  | nil =>
      have hall : s.takeWhile (· != c) = s := by
        have happend := List.takeWhile_append_dropWhile (p := (· != c)) (l := s)
        rwa [hrest, List.append_nil] at happend
      exact hall.symm
  | cons d rest => rfl

/-! ## Words -/

/-- The characters of a word are read one by one. -/
theorem splitWhitespaceFrom_append {a : Str} (h : ∀ c ∈ a, isWhitespace c = false)
    (cur rest : Str) :
    splitWhitespaceFrom cur (a ++ rest) = splitWhitespaceFrom (a.reverse ++ cur) rest := by
  induction a generalizing cur with
  | nil => rfl
  | cons c a ih =>
      have hc : ¬ isWhitespace c = true := by
        rw [h c List.mem_cons_self]
        exact Bool.false_ne_true
      rw [List.cons_append, splitWhitespaceFrom.eq_def]
      simp only
      rw [if_neg hc, ih fun d hd => h d (List.mem_cons_of_mem c hd)]
      simp

/-- A text without white space is one word. -/
theorem splitWhitespace_word {a : Str} (hne : a ≠ []) (h : ∀ c ∈ a, isWhitespace c = false) :
    splitWhitespace a = [a] := by
  have hread := splitWhitespaceFrom_append h [] []
  rw [List.append_nil, List.append_nil] at hread
  unfold splitWhitespace
  rw [hread]
  cases hrev : a.reverse with
  | nil => exact absurd (List.reverse_eq_nil_iff.mp hrev) hne
  | cons c cur =>
      rw [splitWhitespaceFrom.eq_def]
      simp only
      rw [← hrev, List.reverse_reverse]

/-- White space behind a word ends it, and the words of the rest follow. -/
theorem splitWhitespace_cons {a : Str} (hne : a ≠ []) (h : ∀ c ∈ a, isWhitespace c = false)
    {c : Char} (hc : isWhitespace c = true) (rest : Str) :
    splitWhitespace (a ++ c :: rest) = a :: splitWhitespace rest := by
  have hread := splitWhitespaceFrom_append h [] (c :: rest)
  rw [List.append_nil] at hread
  have hcur : ¬ a.reverse.isEmpty = true := by
    simpa using hne
  unfold splitWhitespace
  rw [hread, splitWhitespaceFrom.eq_def]
  simp only
  rw [if_pos hc, if_neg hcur, List.reverse_reverse]

/-- A word that is being read is not empty, and has no white space. -/
theorem splitWhitespaceFrom_words {s cur : Str} (hcur : ∀ c ∈ cur, isWhitespace c = false) :
    ∀ w ∈ splitWhitespaceFrom cur s, w ≠ [] ∧ ∀ c ∈ w, isWhitespace c = false := by
  induction s generalizing cur with
  | nil =>
      cases cur with
      | nil => exact fun w hw => absurd hw List.not_mem_nil
      | cons d cur =>
          refine List.forall_mem_singleton.mpr ⟨by simp, fun c hc => ?_⟩
          exact hcur c (List.mem_reverse.mp hc)
  | cons d s ih =>
      rw [splitWhitespaceFrom.eq_def]
      simp only
      by_cases hd : isWhitespace d = true
      · rw [if_pos hd]
        have hrest := @ih [] fun c hc => absurd hc List.not_mem_nil
        by_cases hempty : cur.isEmpty = true
        · rw [if_pos hempty]
          exact hrest
        · rw [if_neg hempty]
          refine List.forall_mem_cons.mpr ⟨⟨?_, fun c hc => ?_⟩, hrest⟩
          · simpa using hempty
          · exact hcur c (List.mem_reverse.mp hc)
      · rw [if_neg hd]
        exact ih (List.forall_mem_cons.mpr ⟨Bool.not_eq_true _ ▸ hd, hcur⟩)

/-- Words are not empty, and have no white space. -/
theorem of_mem_splitWhitespace {s w : Str} (h : w ∈ splitWhitespace s) :
    w ≠ [] ∧ ∀ c ∈ w, isWhitespace c = false :=
  splitWhitespaceFrom_words (fun _ hc => absurd hc List.not_mem_nil) w h

/-- There are none where there is nothing but white space. -/
theorem splitWhitespace_eq_nil_iff {s : Str} :
    splitWhitespace s = [] ↔ ∀ c ∈ s, isWhitespace c = true := by
  have hcur : ∀ (s : Str) (c : Char) (cur : Str), splitWhitespaceFrom (c :: cur) s ≠ [] := by
    intro s
    induction s with
    | nil => exact fun c cur => List.cons_ne_nil _ _
    | cons d s ih =>
        intro c cur
        rw [splitWhitespaceFrom.eq_def]
        simp only
        by_cases hd : isWhitespace d = true
        · rw [if_pos hd, if_neg (by simp)]
          exact List.cons_ne_nil _ _
        · rw [if_neg hd]
          exact ih d (c :: cur)
  unfold splitWhitespace
  induction s with
  | nil => exact iff_of_true rfl fun c hc => absurd hc List.not_mem_nil
  | cons d s ih =>
      rw [splitWhitespaceFrom.eq_def, List.forall_mem_cons]
      simp only
      by_cases hd : isWhitespace d = true
      · rw [if_pos hd, if_pos List.isEmpty_nil, and_iff_right hd]
        exact ih
      · rw [if_neg hd]
        exact iff_of_false (hcur s d []) fun hall => hd hall.1

/-! ## Trimming one character -/

/-- A text without the character is not changed by trimming it. -/
theorem trimMatches_of_notMem {c : Char} {s : Str} (h : c ∉ s) : trimMatches c s = s := by
  have hdrop : s.dropWhile (· == c) = s := by
    cases s with
    | nil => rfl
    | cons d s =>
        have hne : ¬ (d == c) = true := by
          simpa using Ne.symm (List.ne_of_not_mem_cons h)
        rw [List.dropWhile_cons_of_neg (p := (· == c)) hne]
  unfold trimMatches
  rw [hdrop]
  induction s using List.reverseRecOn with
  | nil => rfl
  | append_singleton s d _ =>
      have hne : ¬ (d == c) = true := by
        intro heq
        exact h (by simp [eq_of_beq heq])
      exact List.rdropWhile_concat_neg (· == c) _ _ hne

/-- What is left by trimming was there before. -/
theorem mem_of_mem_trimMatches {c d : Char} {s : Str} (h : d ∈ trimMatches c s) : d ∈ s := by
  unfold trimMatches at h
  exact (List.dropWhile_suffix _).subset ((List.rdropWhile_prefix _ _).subset h)

/-- A text in quotes is trimmed to what stands between them, if no quote stands there. -/
theorem trimMatches_quoted {c : Char} {s : Str} (h : c ∉ s) :
    trimMatches c (c :: (s ++ [c])) = s := by
  have hself := trimMatches_of_notMem h
  have hfront : (c :: (s ++ [c])).dropWhile (· == c) = if s = [] then [] else s ++ [c] := by
    rw [List.dropWhile_cons_of_pos (by simp)]
    cases s with
    | nil => simp
    | cons d s =>
        have hne : ¬ (d == c) = true := by
          simpa using Ne.symm (List.ne_of_not_mem_cons h)
        rw [List.cons_append, List.dropWhile_cons_of_neg (p := (· == c)) hne]
        rfl
  unfold trimMatches at hself ⊢
  rw [hfront]
  cases s with
  | nil => rfl
  | cons d s =>
      have hne : ¬ (d == c) = true := by
        simpa using Ne.symm (List.ne_of_not_mem_cons h)
      rw [List.dropWhile_cons_of_neg (p := (· == c)) hne] at hself
      rw [if_neg (List.cons_ne_nil d s), List.rdropWhile_concat_pos _ _ _ (by simp)]
      exact hself

/-! ## ASCII in a text -/

/-- Bytes are cut at an ASCII byte as the text is. -/
theorem cut_utf8 {t : Str} {a b : Bytes} {x : UInt8} (hx : x.toNat < 0x80)
    (h : utf8 t = a ++ x :: b) :
    ∃ p q, t = p ++ Char.ofNat x.toNat :: q ∧ utf8 p = a ∧ utf8 q = b := by
  induction t generalizing a with
  | nil => simp at h
  | cons c t ih =>
      rw [utf8_cons] at h
      rcases List.append_eq_append_iff.mp h with ⟨a', rfl, hrest⟩ | ⟨c', hchar, hrest⟩
      · obtain ⟨p, q, rfl, rfl, rfl⟩ := ih hrest
        exact ⟨c :: p, q, rfl, rfl, rfl⟩
      · cases c' with
        | nil =>
            obtain ⟨p, q, rfl, hp, rfl⟩ := ih (a := []) hrest.symm
            refine ⟨c :: p, q, rfl, ?_, rfl⟩
            rw [utf8_cons, hp, hchar]
            simp
        | cons d c' =>
            obtain ⟨rfl, hb⟩ := List.cons.inj hrest
            have hmem : x ∈ String.utf8EncodeChar c := by simp [hchar]
            obtain ⟨hone, hvalue⟩ := utf8EncodeChar_of_mem hmem hx
            have hlength := congrArg List.length (hone.symm.trans hchar)
            simp only [List.length_append, List.length_cons, List.length_nil] at hlength
            obtain rfl : a = [] := List.length_eq_zero_iff.mp (by omega)
            obtain rfl : c' = [] := List.length_eq_zero_iff.mp (by omega)
            refine ⟨[], t, ?_, rfl, hb.symm⟩
            rw [← hvalue, Char.ofNat_toNat]
            rfl

/-- The bytes of a text begin with those of another one if and only if the text does. -/
theorem prefix_utf8_iff {n t : Str} : utf8 n <+: utf8 t ↔ n <+: t := by
  constructor
  · rintro ⟨r, hr⟩
    have hread := congrArg fromUtf8Lossy hr
    rw [fromUtf8Lossy_utf8_append, fromUtf8Lossy_utf8] at hread
    exact ⟨_, hread⟩
  · rintro ⟨r, rfl⟩
    exact ⟨utf8 r, (utf8_append n r).symm⟩

/-- The first byte of an ASCII character is all of it. -/
theorem utf8EncodeChar_of_ascii {c : Char} (h : c.toNat < 0x80) :
    String.utf8EncodeChar c = [UInt8.ofNat c.toNat] := by
  have hval : c.val.toNat = c.toNat := rfl
  unfold String.utf8EncodeChar
  simp only [hval]
  rw [if_pos (by omega)]

/-- **A text is split at an ASCII needle as its bytes are.** -/
theorem splitSub_utf8 {d : Char} (hd : d.toNat < 0x80) (needle t : Str) :
    splitSub (utf8 (d :: needle)) (utf8 t) = (splitSub (d :: needle) t).map utf8 := by
  have hneedle : utf8 (d :: needle) = UInt8.ofNat d.toNat :: utf8 needle := by
    rw [utf8_cons, utf8EncodeChar_of_ascii hd]
    rfl
  have hvalue : (UInt8.ofNat d.toNat).toNat = d.toNat := toNat_ofNat_byte (by omega)
  have hne : utf8 (d :: needle) ≠ [] := by
    rw [hneedle]
    exact List.cons_ne_nil _ _
  have hfrom : ∀ (n : Nat) (t cur : Str), t.length ≤ n →
      splitSubFrom (utf8 (d :: needle)) 0 (utf8 cur.reverse).reverse (utf8 t) =
        (splitSubFrom (d :: needle) 0 cur t).map utf8 := by
    intro n
    induction n with
    | zero =>
        intro t cur ht
        obtain rfl : t = [] := List.length_eq_zero_iff.mp (Nat.le_zero.mp ht)
        simp [splitSubFrom]
    | succ n ih =>
        intro t cur ht
        by_cases hfront : d :: needle <+: t
        · obtain ⟨rest, rfl⟩ := hfront
          have hrest : rest.length ≤ n := by
            rw [List.length_append, List.length_cons] at ht
            omega
          rw [utf8_append, splitSubFrom_needle hne, splitSubFrom_needle (List.cons_ne_nil _ _),
            List.map_cons, List.reverse_reverse]
          exact congrArg _ (ih rest [] hrest)
        · cases t with
          | nil => simp [splitSubFrom]
          | cons c t =>
              obtain ⟨b, tail, hchar, -⟩ := decodeOne_utf8EncodeChar c []
              -- The bytes behind the first one of a character are no ASCII.
              have htail : UInt8.ofNat d.toNat ∉ tail := by
                intro hmem
                have hin : UInt8.ofNat d.toNat ∈ String.utf8EncodeChar c := by
                  rw [hchar]
                  exact List.mem_cons_of_mem b hmem
                obtain ⟨hone, -⟩ := utf8EncodeChar_of_mem hin (by rw [hvalue]; exact hd)
                rw [hchar] at hone
                obtain rfl := (List.cons.inj hone).2
                cases hmem
              have hfront' : ¬ utf8 (d :: needle) <+: b :: (tail ++ utf8 t) := by
                intro hstarts
                apply hfront
                rw [← prefix_utf8_iff, utf8_cons c, hchar]
                exact hstarts
              have hcur : tail.reverse ++ b :: (utf8 cur.reverse).reverse =
                  (utf8 (c :: cur).reverse).reverse := by
                rw [List.reverse_cons, utf8_append, utf8_cons, hchar]
                simp
              rw [splitSubFrom_cons hfront, utf8_cons c t, hchar, List.cons_append,
                splitSubFrom_cons hfront', hneedle, splitSubFrom_append htail, ← hneedle, hcur]
              exact ih t (c :: cur) (Nat.le_of_succ_le_succ ht)
  exact hfrom t.length t [] (Nat.le_refl _)

end BuduWaf.Str
