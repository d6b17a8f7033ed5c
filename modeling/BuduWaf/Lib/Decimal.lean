import BuduWaf.Lib.Text

/-!
# Decimal forms, there and back

The decimal form of a number is made of digits (`isDigit_of_mem_ofNat`), so nothing is trimmed off
it, and the integer readers read it as the number where the number fits. Conversely, what an
integer reader reads is made of digits and signs.

* **`parseInt_ofNat`**: a decimal form is read back where the number fits the width, and is not read
  at all where it does not. This is what a counter meets that is stored with one type and compared
  as another.
* **`parseInt_bounds`**, **`signs_of_parseDigits`**: what is read has one sign at the front and no
  sign among its digits. A text with two signs is read as no number.
* **`mem_of_mem_trim`**, **`mem_trim_of_mem`**: trimming removes white space and nothing else.

The readers go digit by digit, so the round trip is an induction on the digits of the number, with
the value read so far as the accumulator (`foldl_digits`).
-/

namespace BuduWaf.Str

variable (n : Nat)

/-- The decimal text of a number is not empty. -/
theorem ofNat_ne_nil : ofNat n ≠ [] := Nat.toDigits_ne_nil

variable {n} in
/-- The decimal text of a number has nothing but digits. -/
theorem isDigit_of_mem_ofNat {c : Char} (h : c ∈ ofNat n) : c.isDigit = true :=
  Nat.isDigit_of_mem_toDigits (by decide) (by decide) h

/-- Visible ASCII characters are not white space, so text made of them is not trimmed. -/
theorem isWhitespace_of_visible {c : Char} (h : 0x21 ≤ c.toNat ∧ c.toNat ≤ 0x7E) :
    isWhitespace c = false := by
  obtain ⟨hlow, hhigh⟩ := h
  unfold isWhitespace
  simp only [Bool.or_eq_false_iff, Bool.and_eq_false_iff, decide_eq_false_iff_not,
    List.contains_eq_mem, List.mem_cons, List.not_mem_nil, or_false, not_or]
  omega

/-- Digits are not white space, so a number is not trimmed. -/
theorem isWhitespace_of_isDigit {c : Char} (h : c.isDigit = true) : isWhitespace c = false := by
  have hrange : 48 ≤ c.toNat ∧ c.toNat ≤ 57 := by
    simp only [Char.isDigit, Bool.and_eq_true, decide_eq_true_eq] at h
    exact h
  exact isWhitespace_of_visible (by omega)

/-- A blank at the front of a text is trimmed off. -/
theorem trim_blank (s : Str) : trim (' ' :: s) = trim s := rfl

/-- A text that begins and ends with no white space is trimmed already. -/
theorem trim_of_ends {s : Str} (hfirst : ∀ c ∈ s.head?, isWhitespace c = false)
    (hlast : ∀ c ∈ s.getLast?, isWhitespace c = false) : trim s = s := by
  have hdrop : s.dropWhile isWhitespace = s := by
    cases s with
    | nil => rfl
    | cons c s => rw [List.dropWhile_cons_of_neg (by simp [hfirst c rfl])]
  unfold trim
  rw [hdrop, List.rdropWhile_eq_self_iff]
  intro hne hspace
  rw [hlast _ (List.getLast?_eq_some_getLast hne)] at hspace
  cases hspace

/-- Trimming leaves a text without white space. -/
theorem trim_of_forall {s : Str} (h : ∀ c ∈ s, isWhitespace c = false) : trim s = s :=
  trim_of_ends (fun c hc => h c (List.mem_of_mem_head? hc))
    (fun c hc => h c (List.mem_of_getLast? hc))

/-- A trimmed text ends with no white space. -/
theorem last_of_trim {s : Str} (h : trim s = s) : ∀ c ∈ s.getLast?, isWhitespace c = false := by
  intro c hc
  have hne : s ≠ [] := by
    rintro rfl
    cases hc
  obtain rfl : s.getLast hne = c := by
    rw [List.getLast?_eq_some_getLast hne] at hc
    exact Option.some.inj hc
  unfold trim at h
  have hlast := List.rdropWhile_last_not isWhitespace (s.dropWhile isWhitespace)
    (by rw [h]; exact hne)
  simp only [h] at hlast
  exact Bool.eq_false_iff.mpr hlast

/-- Trimming keeps what is not white space. -/
theorem mem_trim_of_mem {s : Str} {c : Char} (h : c ∈ s) (hc : isWhitespace c = false) :
    c ∈ trim s := by
  have hdrop : ∀ t : Str, c ∈ t → c ∈ t.dropWhile isWhitespace := by
    intro t ht
    rw [← List.takeWhile_append_dropWhile (p := isWhitespace) (l := t), List.mem_append] at ht
    refine ht.resolve_left fun htake => ?_
    rw [List.mem_takeWhile_imp htake] at hc
    cases hc
  unfold trim List.rdropWhile
  exact List.mem_reverse.mpr (hdrop _ (List.mem_reverse.mpr (hdrop s h)))

/-- What is left by trimming was there before. -/
theorem mem_of_mem_trim {s : Str} {c : Char} (h : c ∈ trim s) : c ∈ s := by
  unfold trim at h
  exact (List.dropWhile_suffix _).subset ((List.rdropWhile_prefix _ _).subset h)

/-- The decimal text of a number has no white space to trim. -/
theorem trim_ofNat : trim (ofNat n) = ofNat n :=
  trim_of_forall fun _ hc => isWhitespace_of_isDigit (isDigit_of_mem_ofNat hc)

/-- Reading digits one by one, the number so far times ten, gives what the library's reader of
digits gives. -/
theorem foldl_digits (s : Str) (h : ∀ c ∈ s, c.isDigit = true) (acc : Nat) :
    s.foldl (fun acc c => acc.bind fun n =>
        if c.isDigit then some (10 * n + (c.toNat - '0'.toNat)) else none) (some acc) =
      some (Nat.ofDigitChars 10 s acc) := by
  induction s generalizing acc with
  | nil => rfl
  | cons c s ih =>
      have hc := h c List.mem_cons_self
      rw [List.foldl_cons, Option.bind_some, if_pos hc,
        ih (fun d hd => h d (List.mem_cons_of_mem c hd)), Nat.ofDigitChars_cons]

/-- What is read as digits is made of digits. -/
theorem isDigit_of_parseDigits {s : Str} {n : Nat} (h : parseDigits s = some n) :
    ∀ c ∈ s, c.isDigit = true := by
  have hfold : ∀ (t : Str) (acc : Option Nat),
      (t.foldl (fun acc c => acc.bind fun n =>
        if c.isDigit then some (10 * n + (c.toNat - '0'.toNat)) else none) acc).isSome = true →
      acc.isSome = true ∧ ∀ c ∈ t, c.isDigit = true := by
    intro t
    induction t with
    | nil =>
        intro acc hsome
        exact ⟨hsome, fun c hc => absurd hc List.not_mem_nil⟩
    | cons c t ih =>
        intro acc hsome
        rw [List.foldl_cons] at hsome
        obtain ⟨hacc, ht⟩ := ih _ hsome
        cases acc with
        | none => cases hacc
        | some m =>
            by_cases hdigit : c.isDigit = true
            · exact ⟨rfl, List.forall_mem_cons.mpr ⟨hdigit, ht⟩⟩
            · rw [Option.bind_some, if_neg hdigit] at hacc
              cases hacc
  unfold parseDigits at h
  by_cases hempty : s.isEmpty = true
  · rw [if_pos hempty] at h
    cases h
  · rw [if_neg hempty] at h
    exact (hfold s (some 0) (Option.isSome_of_eq_some h)).2

/-- What is read as an unsigned number is made of digits and pluses. -/
theorem mem_of_parseUInt {bits : Nat} {s : Str} {n : Nat} (h : parseUInt bits s = some n) :
    ∀ c ∈ s, c.isDigit = true ∨ c = '+' := by
  intro c hc
  unfold parseUInt at h
  obtain ⟨hdigits, -⟩ := Option.filter_eq_some_iff.mp h
  split at hdigits
  · rename_i rest
    obtain rfl | hc := List.mem_cons.mp hc
    · exact Or.inr rfl
    · exact Or.inl (isDigit_of_parseDigits hdigits c hc)
  · exact Or.inl (isDigit_of_parseDigits hdigits c hc)

/-- Without a minus, a signed number is read as an unsigned one, of one bit less. -/
theorem parseInt_of_notMem {bits : Nat} {s : Str} (h : '-' ∉ s) :
    parseInt bits s = (parseUInt (bits - 1) s).map Int.ofNat := by
  have hread : ∀ t : Str, ((parseDigits t).bind fun n =>
      if n < 2 ^ (bits - 1) then some (n : Int) else none) =
        ((parseDigits t).filter (· < 2 ^ (bits - 1))).map Int.ofNat := by
    intro t
    cases parseDigits t with
    | none => rfl
    | some n =>
        by_cases hn : n < 2 ^ (bits - 1)
        · simp [Option.filter, hn]
        · simp [Option.filter, hn]
  unfold parseInt parseUInt
  split
  · exact absurd List.mem_cons_self h
  · exact hread _
  · rename_i hminus hplus
    rw [hread]
    dsimp only
    split
    · exact absurd rfl (hplus _)
    · rfl

/-- The decimal text of a number is read back as the number. -/
theorem parseDigits_ofNat : parseDigits (ofNat n) = some n := by
  have hne : (ofNat n).isEmpty = false := by
    simpa using ofNat_ne_nil n
  unfold parseDigits
  rw [hne, if_neg Bool.false_ne_true, foldl_digits _ (fun _ => isDigit_of_mem_ofNat)]
  exact congrArg some Nat.ofDigitChars_ten_toDigits

/-- The decimal form is read as an unsigned number where it fits. -/
theorem parseUInt_ofNat (bits : Nat) :
    parseUInt bits (ofNat n) = if n < 2 ^ bits then some n else none := by
  have hdigits := parseDigits_ofNat n
  unfold parseUInt
  split
  · rename_i rest heq
    have hsign := isDigit_of_mem_ofNat (heq ▸ List.mem_cons_self (a := '+'))
    cases hsign
  · dsimp only
    rw [hdigits, Option.filter_some]
    simp only [decide_eq_true_eq]

/-- **The decimal form of a number is read back** as the number where it fits, and is not read at
all where it does not. -/
theorem parseInt_ofNat (bits : Nat) :
    parseInt bits (ofNat n) = if n < 2 ^ (bits - 1) then some (n : Int) else none := by
  have hdigits := parseDigits_ofNat n
  unfold parseInt
  split
  · rename_i rest heq
    have hsign := isDigit_of_mem_ofNat (heq ▸ List.mem_cons_self (a := '-'))
    cases hsign
  · rename_i rest heq
    have hsign := isDigit_of_mem_ofNat (heq ▸ List.mem_cons_self (a := '+'))
    cases hsign
  · rw [hdigits, Option.bind_some]

/-- Different numbers have different decimal forms. -/
theorem ofNat_injective : Function.Injective ofNat := by
  intro n m h
  have hread := congrArg parseDigits h
  rw [parseDigits_ofNat, parseDigits_ofNat] at hread
  exact Option.some.inj hread

/-! ## Signs -/

/-- How many signs a text starts with. A reader that takes off one sign leaves the others. -/
def signs (s : Str) : Nat := (s.takeWhile fun c => c == '+' || c == '-').length

/-- A text that is read as digits has no sign in front. -/
theorem signs_of_parseDigits {s : Str} {n : Nat} (h : parseDigits s = some n) : signs s = 0 := by
  cases s with
  | nil => rfl
  | cons c s =>
      have hdigit := isDigit_of_parseDigits h c List.mem_cons_self
      have hsign : ¬ (c == '+' || c == '-') = true := by
        rw [Bool.or_eq_true, beq_iff_eq, beq_iff_eq]
        rintro (rfl | rfl)
        · cases hdigit
        · cases hdigit
      rw [signs, List.takeWhile_cons]
      exact congrArg List.length (if_neg hsign)

/-- What a signed number is read as: its digits fit, and it has a sign at most. -/
theorem parseInt_bounds {bits : Nat} {s : Str} {n : Int} (h : parseInt bits s = some n) :
    -(2 ^ (bits - 1) : Nat) ≤ n ∧ n < (2 ^ (bits - 1) : Nat) ∧ signs s ≤ 1 ∧
      (signs s = 0 → 0 ≤ n) := by
  unfold parseInt at h
  split at h
  · rename_i rest
    obtain ⟨k, hk, h⟩ := Option.bind_eq_some_iff.mp h
    have hsigns : signs ('-' :: rest) = signs rest + 1 := rfl
    rw [hsigns, signs_of_parseDigits hk]
    rw [Option.ite_none_right_eq_some] at h
    obtain ⟨hle, hn⟩ := h
    obtain rfl := Option.some.inj hn
    have hpos := Nat.two_pow_pos (bits - 1)
    omega
  · rename_i rest
    obtain ⟨k, hk, h⟩ := Option.bind_eq_some_iff.mp h
    have hsigns : signs ('+' :: rest) = signs rest + 1 := rfl
    rw [hsigns, signs_of_parseDigits hk]
    rw [Option.ite_none_right_eq_some] at h
    obtain ⟨hlt, hn⟩ := h
    obtain rfl := Option.some.inj hn
    omega
  · obtain ⟨k, hk, h⟩ := Option.bind_eq_some_iff.mp h
    rw [signs_of_parseDigits hk]
    rw [Option.ite_none_right_eq_some] at h
    obtain ⟨hlt, hn⟩ := h
    obtain rfl := Option.some.inj hn
    omega

/-- An unsigned number fits, and it has a plus at most. -/
theorem parseUInt_bounds {bits n : Nat} {s : Str} (h : parseUInt bits s = some n) :
    n < 2 ^ bits ∧ signs s ≤ 1 := by
  unfold parseUInt at h
  obtain ⟨hdigits, hlt⟩ := Option.filter_eq_some_iff.mp h
  refine ⟨of_decide_eq_true hlt, ?_⟩
  split at hdigits
  · rename_i rest
    have hsigns : signs ('+' :: rest) = signs rest + 1 := rfl
    rw [hsigns, signs_of_parseDigits hdigits]
  · rw [signs_of_parseDigits hdigits]
    exact Nat.zero_le 1

end BuduWaf.Str
