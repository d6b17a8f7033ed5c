import BuduWaf.Lib.Text

/-!
# UTF-8, there and back

The bytes of a text read back as the text (`fromUtf8Lossy_utf8`), whatever comes after them. The
case split is that of the encoding: one to four bytes for a character, by its scalar value.

Decoding is total and goes on after ill-formed bytes, so the statement is about bytes with anything
behind them: the sequence of a character is taken off the front and no byte of what follows is
looked at (`decodeOne_utf8EncodeChar`). Injectivity of the encoding follows (`utf8_injective`).
-/

namespace BuduWaf.Str

/-! ## One character -/

/-- Scalar values stop short of the surrogates or lie behind them. -/
theorem scalar_bounds (c : Char) :
    c.toNat < 0xD800 ∨ (0xDFFF < c.toNat ∧ c.toNat < 0x110000) := c.valid

/-- The value of a byte given by a small number. -/
theorem toNat_ofNat_byte {n : Nat} (h : n < 256) : (UInt8.ofNat n).toNat = n :=
  UInt8.toNat_ofNat_of_lt h

/-- Each byte is the value of a character of its own. -/
theorem toNat_byteChar (b : UInt8) : (Char.ofNat b.toNat).toNat = b.toNat := by
  have hlt := b.toNat_lt
  have hvalid : b.toNat.isValidChar := .inl (by omega)
  unfold Char.ofNat
  rw [dif_pos hvalid]
  rfl

/-- Different bytes, read as Latin-1, are different characters. -/
theorem byteChar_injective : Function.Injective fun b : UInt8 => Char.ofNat b.toNat := by
  intro a b h
  have hvalue := congrArg Char.toNat h
  simp only [toNat_byteChar] at hvalue
  exact UInt8.toNat_inj.mp hvalue

/-- Two bytes that hold the bits of a character below `0x800` decode to it. -/
theorem scalar2_eq {c : Char} {b₀ b₁ : UInt8} (h₀ : b₀.toNat = c.toNat / 64 % 32 + 0xC0)
    (h₁ : b₁.toNat = c.toNat % 64 + 0x80) (hc : c.toNat ≤ 0x7FF) : scalar2 b₀ b₁ = c := by
  have hvalue : (b₀.toNat % 0x20) * 0x40 + b₁.toNat % 0x40 = c.toNat := by omega
  rw [scalar2, hvalue, Char.ofNat_toNat]

/-- Three bytes that hold the bits of a character below `0x10000` decode to it. -/
theorem scalar3_eq {c : Char} {b₀ b₁ b₂ : UInt8} (h₀ : b₀.toNat = c.toNat / 4096 % 16 + 0xE0)
    (h₁ : b₁.toNat = c.toNat / 64 % 64 + 0x80) (h₂ : b₂.toNat = c.toNat % 64 + 0x80)
    (hc : c.toNat ≤ 0xFFFF) : scalar3 b₀ b₁ b₂ = c := by
  have hvalue : (b₀.toNat % 0x10) * 0x1000 + (b₁.toNat % 0x40) * 0x40 + b₂.toNat % 0x40 =
      c.toNat := by omega
  rw [scalar3, hvalue, Char.ofNat_toNat]

/-- Four bytes that hold the bits of a character decode to it. -/
theorem scalar4_eq {c : Char} {b₀ b₁ b₂ b₃ : UInt8}
    (h₀ : b₀.toNat = c.toNat / 262144 % 8 + 0xF0)
    (h₁ : b₁.toNat = c.toNat / 4096 % 64 + 0x80) (h₂ : b₂.toNat = c.toNat / 64 % 64 + 0x80)
    (h₃ : b₃.toNat = c.toNat % 64 + 0x80) (hc : c.toNat < 0x110000) :
    scalar4 b₀ b₁ b₂ b₃ = c := by
  have hvalue : (b₀.toNat % 0x08) * 0x40000 + (b₁.toNat % 0x40) * 0x1000
      + (b₂.toNat % 0x40) * 0x40 + b₃.toNat % 0x40 = c.toNat := by omega
  rw [scalar4, hvalue, Char.ofNat_toNat]

/-- A byte between two bounds is a continuation byte of that range. -/
theorem contIn_of {lo hi : Nat} {b : UInt8} (h : lo ≤ b.toNat ∧ b.toNat ≤ hi) :
    contIn lo hi b = true := by
  simp [contIn, h.1, h.2]

/-- The last byte of every sequence is a continuation byte of any value. -/
theorem contIn_last {b : UInt8} {n : Nat} (h : b.toNat = n % 64 + 0x80) :
    contIn 0x80 0xBF b = true := contIn_of (by omega)

/-- The bytes of one character are decoded to it, and to no more than them. -/
theorem decodeOne_utf8EncodeChar (c : Char) (rest : Bytes) :
    ∃ b tail, String.utf8EncodeChar c = b :: tail ∧
      decodeOne b (tail ++ rest) = (c, tail.length) := by
  have hval : c.val.toNat = c.toNat := rfl
  have hbounds := scalar_bounds c
  unfold String.utf8EncodeChar
  simp only [hval]
  by_cases h1 : c.toNat ≤ 0x7F
  · refine ⟨_, [], by rw [if_pos h1], ?_⟩
    have hb : (UInt8.ofNat c.toNat).toNat = c.toNat := toNat_ofNat_byte (by omega)
    unfold decodeOne
    rw [if_pos (by omega), hb, Char.ofNat_toNat]
    rfl
  rw [if_neg h1]
  by_cases h2 : c.toNat ≤ 0x7FF
  · rw [if_pos h2]
    refine ⟨_, _, rfl, ?_⟩
    have h₀ := toNat_ofNat_byte (n := c.toNat / 64 % 32 + 0xC0) (by omega)
    have h₁ := toNat_ofNat_byte (n := c.toNat % 64 + 0x80) (by omega)
    unfold decodeOne
    rw [if_neg (by omega), if_pos (by omega)]
    simp only [List.cons_append, contIn_last h₁, if_true, scalar2_eq h₀ h₁ h2]
    rfl
  rw [if_neg h2]
  by_cases h3 : c.toNat ≤ 0xFFFF
  · rw [if_pos h3]
    refine ⟨_, _, rfl, ?_⟩
    have h₀ := toNat_ofNat_byte (n := c.toNat / 4096 % 16 + 0xE0) (by omega)
    have h₁ := toNat_ofNat_byte (n := c.toNat / 64 % 64 + 0x80) (by omega)
    have h₂ := toNat_ofNat_byte (n := c.toNat % 64 + 0x80) (by omega)
    have hlead : ∃ lo hi, second3 (UInt8.ofNat (c.toNat / 4096 % 16 + 0xE0)) = some (lo, hi) ∧
        contIn lo hi (UInt8.ofNat (c.toNat / 64 % 64 + 0x80)) = true := by
      unfold second3
      by_cases he0 : c.toNat / 4096 % 16 = 0
      · exact ⟨_, _, by rw [if_pos (by omega)], contIn_of (by omega)⟩
      by_cases hed : c.toNat / 4096 % 16 = 13
      · exact ⟨_, _, by rw [if_neg (by omega), if_pos (by omega)], contIn_of (by omega)⟩
      · exact ⟨_, _, by rw [if_neg (by omega), if_neg (by omega), if_pos (by omega)],
          contIn_of (by omega)⟩
    obtain ⟨lo, hi, hsecond, hcont⟩ := hlead
    unfold decodeOne
    rw [if_neg (by omega), if_neg (by omega), hsecond]
    simp only [List.cons_append, hcont, if_true, contIn_last h₂, scalar3_eq h₀ h₁ h₂ h3]
    rfl
  rw [if_neg h3]
  refine ⟨_, _, rfl, ?_⟩
  have h₀ := toNat_ofNat_byte (n := c.toNat / 262144 % 8 + 0xF0) (by omega)
  have h₁ := toNat_ofNat_byte (n := c.toNat / 4096 % 64 + 0x80) (by omega)
  have h₂ := toNat_ofNat_byte (n := c.toNat / 64 % 64 + 0x80) (by omega)
  have h₃ := toNat_ofNat_byte (n := c.toNat % 64 + 0x80) (by omega)
  have hnot3 : second3 (UInt8.ofNat (c.toNat / 262144 % 8 + 0xF0)) = none := by
    unfold second3
    rw [if_neg (by omega), if_neg (by omega), if_neg (by omega)]
  have hlead : ∃ lo hi, second4 (UInt8.ofNat (c.toNat / 262144 % 8 + 0xF0)) = some (lo, hi) ∧
      contIn lo hi (UInt8.ofNat (c.toNat / 4096 % 64 + 0x80)) = true := by
    unfold second4
    by_cases hf0 : c.toNat / 262144 % 8 = 0
    · exact ⟨_, _, by rw [if_pos (by omega)], contIn_of (by omega)⟩
    by_cases hf4 : c.toNat / 262144 % 8 = 4
    · exact ⟨_, _, by rw [if_neg (by omega), if_pos (by omega)], contIn_of (by omega)⟩
    · exact ⟨_, _, by rw [if_neg (by omega), if_neg (by omega), if_pos (by omega)],
        contIn_of (by omega)⟩
  obtain ⟨lo, hi, hsecond, hcont⟩ := hlead
  unfold decodeOne
  rw [if_neg (by omega), if_neg (by omega), hnot3, hsecond]
  simp only [List.cons_append, hcont, if_true, contIn_last h₂, contIn_last h₃,
    scalar4_eq h₀ h₁ h₂ h₃ (by omega)]
  rfl

/-! ## Texts -/

/-- The empty text has no bytes. -/
@[simp] theorem utf8_nil : utf8 [] = [] := rfl

/-- The bytes of a text are those of its first character and then those of the others. -/
@[simp] theorem utf8_cons (c : Char) (s : Str) :
    utf8 (c :: s) = String.utf8EncodeChar c ++ utf8 s := rfl

/-- The bytes of two texts in a row are the bytes of the first, then those of the second. -/
@[simp] theorem utf8_append (s t : Str) : utf8 (s ++ t) = utf8 s ++ utf8 t := by
  simp [utf8]

/-- The rest of a sequence is passed over. -/
theorem lossyFrom_skip (tail rest : Bytes) :
    lossyFrom tail.length (tail ++ rest) = lossyFrom 0 rest := by
  induction tail with
  | nil => rfl
  | cons b tail ih => exact ih

/-- **The bytes of a text read back as the text**, and what follows them is read on its own. -/
theorem fromUtf8Lossy_utf8_append (s : Str) (rest : Bytes) :
    fromUtf8Lossy (utf8 s ++ rest) = s ++ fromUtf8Lossy rest := by
  unfold fromUtf8Lossy
  induction s with
  | nil => rfl
  | cons c s ih =>
      obtain ⟨b, tail, hchar, hdecode⟩ := decodeOne_utf8EncodeChar c (utf8 s ++ rest)
      rw [utf8_cons, hchar, List.append_assoc, List.cons_append, lossyFrom, hdecode,
        lossyFrom_skip, ih, List.cons_append]

/-- Reading the bytes of a text gives the text back. -/
@[simp] theorem fromUtf8Lossy_utf8 (s : Str) : fromUtf8Lossy (utf8 s) = s := by
  have h := fromUtf8Lossy_utf8_append s []
  simp only [List.append_nil] at h
  rw [h]
  exact List.append_nil s

/-- Different texts have different bytes. -/
theorem utf8_injective : Function.Injective utf8 := by
  intro s t h
  have hread := congrArg fromUtf8Lossy h
  rwa [fromUtf8Lossy_utf8, fromUtf8Lossy_utf8] at hread

end BuduWaf.Str
