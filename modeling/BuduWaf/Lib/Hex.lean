import BuduWaf.Lib.Text

/-!
# Hexadecimal numerals of fixed width

* **`hexPadded`**: a number in lower-case hexadecimal, padded with zeros.
* **`hexValue_hexPadded`**: the numeral determines the number, and (`length_hexPadded`) has the
  width it was asked for where the number fits.

Padding adds zeros in front, which do not change the value (`hexValue_zeros`), and the digits
themselves are read back by an induction on the number of digits. So numerals of one width are
different for different numbers, which makes them usable in identifiers.
-/

namespace BuduWaf.Str

/-- `format!("{:0width$x}")`: lower-case hexadecimal digits with zeros in front, at least `width` of
them. -/
def hexPadded (width n : Nat) : Str := (Nat.toDigits 16 n).leftpad width '0'

/-- The value of a lower-case hexadecimal digit. -/
def hexDigitValue (c : Char) : Nat :=
  if c.isDigit then c.toNat - '0'.toNat else c.toNat - 'a'.toNat + 10

/-- The value of a lower-case hexadecimal numeral. -/
def hexValue (s : Str) : Nat := s.foldl (fun acc c => 16 * acc + hexDigitValue c) 0

/-- A digit below 16 is read back from its character. -/
theorem hexDigitValue_digitChar {n : Nat} (h : n < 16) : hexDigitValue n.digitChar = n := by
  have hall : ∀ k : Fin 16, hexDigitValue k.val.digitChar = k.val := by decide
  exact hall ⟨n, h⟩

/-- The character of a digit below 16 is a letter or a digit. -/
theorem isAlphanum_digitChar {n : Nat} (h : n < 16) : n.digitChar.isAlphanum = true := by
  have hall : ∀ k : Fin 16, k.val.digitChar.isAlphanum = true := by decide
  exact hall ⟨n, h⟩

/-- The value of a text with one more digit is 16 times the value of the text, and the digit's. -/
theorem hexValue_append (s : Str) (c : Char) :
    hexValue (s ++ [c]) = 16 * hexValue s + hexDigitValue c := by
  simp [hexValue]

/-- A number is read back from its hexadecimal digits. -/
theorem hexValue_toDigits (n : Nat) : hexValue (Nat.toDigits 16 n) = n := by
  induction n using Nat.strongRecOn with
  | ind n ih =>
      by_cases hsmall : n < 16
      · rw [Nat.toDigits_of_lt_base hsmall]
        have hdigit := hexDigitValue_digitChar hsmall
        simpa [hexValue] using hdigit
      · have hmod : n % 16 < 16 := Nat.mod_lt n (by decide)
        have hquotient := ih (n / 16) (by omega)
        rw [Nat.toDigits_of_base_le (by decide) (by omega), hexValue_append, hquotient,
          hexDigitValue_digitChar hmod]
        omega

/-- Leading zeros do not change the value. -/
theorem hexValue_zeros (k : Nat) (s : Str) : hexValue (List.replicate k '0' ++ s) = hexValue s := by
  have hzeros : (List.replicate k '0').foldl (fun acc c => 16 * acc + hexDigitValue c) 0 = 0 := by
    induction k with
    | zero => rfl
    | succ k ih => exact ih
  unfold hexValue
  rw [List.foldl_append, hzeros]

/-- **The numeral determines the number**: read back, the padded digits are it. -/
theorem hexValue_hexPadded (width n : Nat) : hexValue (hexPadded width n) = n := by
  unfold hexPadded List.leftpad
  rw [hexValue_zeros, hexValue_toDigits]

/-- Different numbers are written differently, padded to a width or longer than it. -/
theorem hexPadded_injective (width : Nat) : Function.Injective (hexPadded width) := by
  intro n m h
  rw [← hexValue_hexPadded width n, h, hexValue_hexPadded]

/-- A number below `16 ^ width` is written with exactly `width` digits. -/
theorem length_hexPadded {width n : Nat} (hwidth : 0 < width) (h : n < 16 ^ width) :
    (hexPadded width n).length = width := by
  have hdigits := (Nat.length_toDigits_le_iff (by decide) hwidth).mpr h
  unfold hexPadded
  rw [List.length_leftpad, Nat.max_eq_left hdigits]

/-- The hexadecimal digits of a number are letters and digits. -/
theorem isAlphanum_of_mem_toDigits {n : Nat} {c : Char} (h : c ∈ Nat.toDigits 16 n) :
    c.isAlphanum = true := by
  induction n using Nat.strongRecOn with
  | ind n ih =>
      by_cases hsmall : n < 16
      · rw [Nat.toDigits_of_lt_base hsmall] at h
        obtain rfl := List.mem_singleton.mp h
        exact isAlphanum_digitChar hsmall
      · rw [Nat.toDigits_of_base_le (by decide) (by omega)] at h
        rcases List.mem_append.mp h with hfront | hlast
        · exact ih (n / 16) (by omega) hfront
        · obtain rfl := List.mem_singleton.mp hlast
          exact isAlphanum_digitChar (Nat.mod_lt n (by decide))

/-- The padded hexadecimal digits of a number are letters and digits. -/
theorem isAlphanum_of_mem_hexPadded {width n : Nat} {c : Char} (h : c ∈ hexPadded width n) :
    c.isAlphanum = true := by
  rcases List.mem_append.mp h with hzero | hdigit
  · obtain rfl := List.eq_of_mem_replicate hzero
    rfl
  · exact isAlphanum_of_mem_toDigits hdigit

end BuduWaf.Str
