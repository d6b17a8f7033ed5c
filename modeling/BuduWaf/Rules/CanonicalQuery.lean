import BuduWaf.Encodings
import BuduWaf.Lib.Case
import BuduWaf.Rules.Evaluate

/-!
# One canonical query for rules and signatures

* **`Decodes`**: what the decoding loop does with a byte string, by one byte or by three. Every
  string is decoded in exactly one such way, whether or not the case is folded
  (`exists_decodes`).
* **`HasEscape`**: a valid percent escape somewhere in a text; only escapes make the decoded text
  shorter (`Decodes.length_eq_iff`).
* **`canonical_query_agrees`**: the transforms `url_decode` and `lowercase` of a rule give the
  text that the normalizing stage stores for the signatures.

`decode_fold_into` decodes and folds in one loop, while a rule that lists `url_decode` and
`lowercase` runs two passes. `Decodes` describes what the loop does without saying which of the two
it is for: the bytes it comes to are the same with and without folding, so folding afterwards is
folding on the way. The description also counts bytes, from which the lengths follow.
-/

namespace BuduWaf

namespace Parser

/-! ## Valid escapes -/

/-- A hexadecimal digit of either case. -/
def isHexDigit (c : Char) : Bool :=
  c.isDigit || ('a' ≤ c && c ≤ 'f') || ('A' ≤ c && c ≤ 'F')

/-- A text with a valid percent escape in it. -/
def HasEscape (s : Str) : Prop :=
  ∃ hi lo, isHexDigit hi = true ∧ isHexDigit lo = true ∧ ['%', hi, lo] <:+: s

/-- Bytes that begin with a valid percent escape. -/
def StartsEscape (e : Bytes) : Prop :=
  ∃ hi lo, (hex hi).isSome = true ∧ (hex lo).isSome = true ∧ [0x25, hi, lo] <+: e

/-- Bytes with a valid percent escape among them. -/
def HasEscapeBytes (e : Bytes) : Prop :=
  ∃ hi lo, (hex hi).isSome = true ∧ (hex lo).isSome = true ∧ [0x25, hi, lo] <:+: e

/-- A hexadecimal digit is ASCII, as a character. -/
theorem ascii_of_isHexDigit {c : Char} (h : isHexDigit c = true) : c.toNat < 0x80 := by
  have hbounds : ∀ {d : Char}, c ≤ d → c.toNat ≤ d.toNat := fun h => h
  have hnine : '9'.toNat = 57 := rfl
  have hsmall : 'f'.toNat = 102 := rfl
  have hlarge : 'F'.toNat = 70 := rfl
  simp only [isHexDigit, Bool.or_eq_true, Bool.and_eq_true, decide_eq_true_eq] at h
  rcases h with (hdigit | ⟨-, hlower⟩) | ⟨-, hupper⟩
  · simp only [Char.isDigit, ge_iff_le, Bool.and_eq_true, decide_eq_true_eq] at hdigit
    have hvalue : c.toNat ≤ 57 := hdigit.2
    omega
  · have hvalue := hbounds hlower
    omega
  · have hvalue := hbounds hupper
    omega

/-- A hexadecimal digit is ASCII, as a byte. -/
theorem ascii_of_hex {b : UInt8} (h : (hex b).isSome = true) : b.toNat < 0x80 := by
  have hall : ∀ n : Fin 256, (hex (UInt8.ofNat n.val)).isSome = true → n.val < 0x80 := by
    decide +kernel
  have hvalue := hall ⟨b.toNat, b.toNat_lt⟩
  rw [UInt8.ofNat_toNat] at hvalue
  exact hvalue h

/-- The bytes that are digits are those of the characters that are. -/
theorem isSome_hex_iff (b : UInt8) :
    (hex b).isSome = true ↔ isHexDigit (Char.ofNat b.toNat) = true := by
  have hall : ∀ n : Fin 256,
      (hex (UInt8.ofNat n.val)).isSome = true ↔ isHexDigit (Char.ofNat n.val) = true := by
    decide +kernel
  have hvalue := hall ⟨b.toNat, b.toNat_lt⟩
  rwa [UInt8.ofNat_toNat] at hvalue

/-- The bytes of a text that begin with an ASCII byte are those of a character and the rest. -/
theorem cons_utf8 {t : Str} {b : Bytes} {x : UInt8} (hx : x.toNat < 0x80)
    (h : Str.utf8 t = x :: b) : ∃ q, t = Char.ofNat x.toNat :: q ∧ Str.utf8 q = b := by
  obtain ⟨p, q, rfl, hp, hq⟩ := Str.cut_utf8 (a := []) hx h
  have hnil : p = [] := Str.utf8_injective hp
  rw [hnil]
  exact ⟨q, rfl, hq⟩

/-- A text has an escape exactly where its bytes do. -/
theorem hasEscape_iff_bytes (s : Str) : HasEscape s ↔ HasEscapeBytes (Str.utf8 s) := by
  constructor
  · rintro ⟨hi, lo, hhi, hlo, p, q, rfl⟩
    have hhiAscii := ascii_of_isHexDigit hhi
    have hloAscii := ascii_of_isHexDigit hlo
    have hbyte : ∀ {c : Char}, c.toNat < 0x80 → (UInt8.ofNat c.toNat).toNat = c.toNat :=
      fun h => Str.toNat_ofNat_byte (by omega)
    refine ⟨UInt8.ofNat hi.toNat, UInt8.ofNat lo.toNat, ?_, ?_, Str.utf8 p, Str.utf8 q, ?_⟩
    · rwa [isSome_hex_iff, hbyte hhiAscii, Char.ofNat_toNat]
    · rwa [isSome_hex_iff, hbyte hloAscii, Char.ofNat_toNat]
    · have hpercent : ('%' : Char).toNat < 0x80 := by decide
      simp only [Str.utf8_append, Str.utf8_cons, Str.utf8_nil,
        Str.utf8EncodeChar_of_ascii hhiAscii, Str.utf8EncodeChar_of_ascii hloAscii,
        Str.utf8EncodeChar_of_ascii hpercent]
      rfl
  · rintro ⟨hi, lo, hhi, hlo, a, b, h⟩
    have hcut : Str.utf8 s = a ++ 0x25 :: (hi :: lo :: b) := by
      rw [← h]
      simp
    -- The three bytes are three characters, one after the other.
    obtain ⟨p, afterPercent, rfl, -, hfirst⟩ := Str.cut_utf8 (by decide) hcut
    obtain ⟨afterHi, rfl, hsecond⟩ := cons_utf8 (ascii_of_hex hhi) hfirst
    obtain ⟨q, rfl, -⟩ := cons_utf8 (ascii_of_hex hlo) hsecond
    refine ⟨_, _, (isSome_hex_iff hi).mp hhi, (isSome_hex_iff lo).mp hlo, p, q, ?_⟩
    rw [List.append_assoc]
    rfl

/-- A byte string has an escape iff it begins with one or has one behind its first byte. -/
theorem hasEscapeBytes_cons_iff (c : UInt8) (e : Bytes) :
    HasEscapeBytes (c :: e) ↔ StartsEscape (c :: e) ∨ HasEscapeBytes e := by
  constructor
  · rintro ⟨hi, lo, hhi, hlo, h⟩
    rcases List.infix_cons_iff.mp h with hstart | hrest
    · exact .inl ⟨hi, lo, hhi, hlo, hstart⟩
    · exact .inr ⟨hi, lo, hhi, hlo, hrest⟩
  · rintro (⟨hi, lo, hhi, hlo, h⟩ | ⟨hi, lo, hhi, hlo, h⟩)
    · exact ⟨hi, lo, hhi, hlo, h.isInfix⟩
    · exact ⟨hi, lo, hhi, hlo, List.infix_cons_iff.mpr (.inr h)⟩

/-! ## The loop -/

/-- The loop decodes `e` to the bytes `b`. -/
inductive Decodes (plusIsSpace : Bool) : (e b : Bytes) → Prop
  | nil : Decodes plusIsSpace [] []
  | escape {hi lo h l : UInt8} {e b : Bytes} (hhi : hex hi = some h) (hlo : hex lo = some l) :
      Decodes plusIsSpace e b →
        Decodes plusIsSpace (0x25 :: hi :: lo :: e) (((h <<< 4) ||| l) :: b)
  | plain {c : UInt8} {e b : Bytes} (hplain : ¬StartsEscape (c :: e)) :
      Decodes plusIsSpace e b → Decodes plusIsSpace (c :: e) (plainByte plusIsSpace c :: b)

namespace Decodes

variable {plusIsSpace : Bool} {e b : Bytes}

/-- One byte is left for one byte or for three. -/
theorem length_le (hd : Decodes plusIsSpace e b) : b.length ≤ e.length := by
  induction hd with
  | nil => exact Nat.le_refl 0
  | escape _ _ _ ih =>
      simp only [List.length_cons]
      omega
  | plain _ _ ih =>
      simp only [List.length_cons]
      omega

/-- **Only escapes shorten**: the decoded bytes are as many iff there is no escape. -/
theorem length_eq_iff (hd : Decodes plusIsSpace e b) :
    b.length = e.length ↔ ¬HasEscapeBytes e := by
  induction hd with
  | nil =>
      refine iff_of_true rfl ?_
      rintro ⟨hi, lo, -, -, h⟩
      cases List.eq_nil_of_infix_nil h
  | @escape hi lo h l e b hhi hlo hd _ =>
      have hshort := hd.length_le
      refine iff_of_false ?_ ?_
      · simp only [List.length_cons]
        omega
      · apply not_not_intro
        refine ⟨hi, lo, ?_, ?_, [], e, rfl⟩
        · rw [hhi, Option.isSome_some]
        · rw [hlo, Option.isSome_some]
  | @plain c e b hplain _ ih =>
      rw [hasEscapeBytes_cons_iff, or_iff_right hplain, List.length_cons, List.length_cons,
        Nat.add_right_cancel_iff]
      exact ih

end Decodes

/-- Bytes that are too few for an escape, or have none at their front. -/
theorem decodeFoldInto_plain (plusIsSpace lowercase : Bool) {c : UInt8} {e : Bytes}
    (h : ¬StartsEscape (c :: e)) :
    decodeFoldInto plusIsSpace lowercase (c :: e) =
      pushByte (plainByte plusIsSpace c) lowercase :: decodeFoldInto plusIsSpace lowercase e := by
  by_cases hpercent : c = 0x25
  · subst hpercent
    rcases e with _ | ⟨hi, _ | ⟨lo, rest⟩⟩
    · rfl
    · rfl
    · have hplain : plainByte plusIsSpace 0x25 = 0x25 := by
        cases plusIsSpace <;> rfl
      rw [decodeFoldInto, if_pos rfl, hplain]
      cases hhi : hex hi with
      | none => rfl
      | some x =>
          cases hlo : hex lo with
          | none => rfl
          | some y =>
              exfalso
              apply h
              refine ⟨hi, lo, ?_, ?_, rest, rfl⟩
              · rw [hhi, Option.isSome_some]
              · rw [hlo, Option.isSome_some]
  · exact decodeFoldInto_cons plusIsSpace lowercase hpercent e

/-- The text is made of the bytes the loop decodes to, whether or not it folds the case. -/
theorem Decodes.decodeFoldInto_eq {plusIsSpace : Bool} {e b : Bytes}
    (hd : Decodes plusIsSpace e b) (lowercase : Bool) :
    decodeFoldInto plusIsSpace lowercase e = b.map fun c => pushByte c lowercase := by
  induction hd with
  | nil => rfl
  | escape hhi hlo _ ih => rw [decodeFoldInto, if_pos rfl, hhi, hlo, List.map_cons, ← ih]
  | plain hplain _ ih => rw [decodeFoldInto_plain plusIsSpace lowercase hplain, ih, List.map_cons]

/-- **The loop takes the same steps whether or not it folds the case**: there are bytes it decodes
to, and the text is made of these. -/
theorem exists_decodes (plusIsSpace : Bool) (e : Bytes) :
    ∃ b, Decodes plusIsSpace e b ∧ ∀ lowercase,
      decodeFoldInto plusIsSpace lowercase e = b.map fun c => pushByte c lowercase := by
  have hexists : ∃ b, Decodes plusIsSpace e b := by
    induction hlength : e.length using Nat.strongRecOn generalizing e with
    | ind n ih =>
        by_cases hstart : StartsEscape e
        · obtain ⟨hi, lo, hhi, hlo, rest, rfl⟩ := hstart
          obtain ⟨h, hh⟩ := Option.isSome_iff_exists.mp hhi
          obtain ⟨l, hl⟩ := Option.isSome_iff_exists.mp hlo
          have hshort : rest.length < n := by
            simp only [List.length_append, List.length_cons] at hlength
            omega
          obtain ⟨b, hb⟩ := ih rest.length hshort rest rfl
          exact ⟨_, .escape hh hl hb⟩
        · cases e with
          | nil => exact ⟨[], .nil⟩
          | cons c rest =>
              have hshort : rest.length < n := by
                rw [List.length_cons] at hlength
                omega
              obtain ⟨b, hb⟩ := ih rest.length hshort rest rfl
              exact ⟨_, .plain hstart hb⟩
  obtain ⟨b, hb⟩ := hexists
  exact ⟨b, hb, hb.decodeFoldInto_eq⟩

/-! ## The text -/

/-- Folding while decoding is folding the decoded byte. -/
theorem toLower_pushByte (b : UInt8) : (pushByte b false).toLower = pushByte b true := by
  unfold pushByte
  by_cases h : b < 0x80
  · rw [if_pos h, if_pos h]
    rfl
  · rw [if_neg h, if_neg h]
    rfl

/-- The character a byte is decoded to is ASCII, whatever the byte is. -/
theorem ascii_pushByte (b : UInt8) (lowercase : Bool) : (pushByte b lowercase).toNat < 0x80 := by
  have hall : ∀ (n : Fin 256) (lowercase : Bool),
      (pushByte (UInt8.ofNat n.val) lowercase).toNat < 0x80 := by
    decide +kernel
  have hvalue := hall ⟨b.toNat, b.toNat_lt⟩ lowercase
  rwa [UInt8.ofNat_toNat] at hvalue

/-- **Decoding and then folding the case is normalizing.** -/
theorem toAsciiLowercase_decodeInto (e : Bytes) (plusIsSpace : Bool) :
    Str.toAsciiLowercase (decodeInto e plusIsSpace) = normalizeInto e plusIsSpace := by
  obtain ⟨b, -, htext⟩ := exists_decodes plusIsSpace e
  unfold Str.toAsciiLowercase decodeInto normalizeInto
  rw [htext false, htext true, List.map_map]
  apply List.map_congr_left
  intro c _
  exact toLower_pushByte c

/-- A normalized text is ASCII, whatever the bytes are. -/
theorem ascii_normalizeInto (e : Bytes) (plusIsSpace : Bool) :
    ∀ c ∈ normalizeInto e plusIsSpace, c.toNat < 0x80 := by
  intro c hc
  obtain ⟨b, -, htext⟩ := exists_decodes plusIsSpace e
  rw [normalizeInto, htext true] at hc
  obtain ⟨d, -, rfl⟩ := List.mem_map.mp hc
  exact ascii_pushByte d true

/-- The normalized text has a character for each byte unless there is an escape, and never
more. -/
theorem length_normalizeInto (e : Bytes) (plusIsSpace : Bool) :
    (normalizeInto e plusIsSpace).length ≤ e.length ∧
      ((normalizeInto e plusIsSpace).length = e.length ↔ ¬HasEscapeBytes e) := by
  obtain ⟨b, hb, htext⟩ := exists_decodes plusIsSpace e
  have hlength : (normalizeInto e plusIsSpace).length = b.length := by
    rw [normalizeInto, htext true, List.length_map]
  rw [hlength]
  exact ⟨hb.length_le, hb.length_eq_iff⟩

end Parser

namespace Rules

open BuduWaf.Parser

/-- The transforms a rule lists, one after the other, as a condition applies them. -/
def transformed (transforms : List Transform) (s : Str) : Str :=
  transforms.foldl (fun s t => applyTransform t s) s

/-- A condition tests its candidates transformed. -/
theorem CompiledCond.evalCandidates_transformed {X : Crates} (c : CompiledCond X)
    (candidates : List Str) :
    c.evalCandidates candidates =
      candidates.any fun s => evalOp c.op (transformed c.transforms s) :=
  rfl

/-- **Rules and signatures see one query.** The transforms `url_decode` and `lowercase` of a text
give what the normalizing stage stores of it as a query: ASCII, no longer than the bytes of the
text, and exactly as long where the text has no valid percent escape. -/
theorem canonical_query_agrees :
    (∀ s : Str,
      transformed [.urlDecode, .lowercase] s = normalizeInto (Str.utf8 s) true ∧
      (∀ c ∈ normalizeInto (Str.utf8 s) true, c.toNat < 0x80) ∧
      (normalizeInto (Str.utf8 s) true).length ≤ (Str.utf8 s).length ∧
      ((normalizeInto (Str.utf8 s) true).length = (Str.utf8 s).length ↔ ¬HasEscape s)) ∧
    ∀ ctx : RequestCtx,
      (normalize ctx).normalized.query =
        ctx.query.map (transformed [.urlDecode, .lowercase]) := by
  have hagrees : ∀ s : Str,
      transformed [.urlDecode, .lowercase] s = normalizeInto (Str.utf8 s) true :=
    fun s => toAsciiLowercase_decodeInto (Str.utf8 s) true
  constructor
  · intro s
    have hlength := length_normalizeInto (Str.utf8 s) true
    refine ⟨hagrees s, ascii_normalizeInto (Str.utf8 s) true, hlength.1, ?_⟩
    rw [hasEscape_iff_bytes]
    exact hlength.2
  · intro ctx
    have hstored : (normalize ctx).normalized.query =
        ctx.query.map fun q => normalizeInto (Str.utf8 q) true := rfl
    rw [hstored, funext hagrees]

example : transformed [.urlDecode, .lowercase] ("A+%4%41%zz" : Str) = ("a %4a%zz" : Str) := by
  decide +kernel

end Rules

end BuduWaf
