import BuduWaf.Lib.Split
import BuduWaf.Lib.Utf8
import BuduWaf.Plain
import BuduWaf.Signatures

/-!
# Percent-encodings and what the signatures see of them

* **`Encodes`**: the ways to write a byte string in a path or a query, each byte raw or as an
  escape with digits of either case, a space in a query also as `+`.
* **`decodeFoldInto_of_encodes`**: whichever way was chosen, decoding gives the bytes back.
* **`reencoding_seen_through`**: requests whose paths and queries write the same ASCII texts up to
  case are one text to the signature stage.

The main theorem composes three inductions, each over one definition: over the encoding, which
`decode_fold_into` undoes byte by byte (`decodeFoldInto_of_encodes`); over the two byte strings,
which are folded to the same text; and over the parts of a request, which the normalizing stage
and the signature stage take from the same text whether or not there is a copy on the context
(`haystack_eq`). `OwnCopies` is what a context satisfies from the moment the handler builds it.
-/

namespace BuduWaf

namespace Parser

/-! ## Encodings -/

/-- A hexadecimal digit, in upper or lower case. -/
def hexDigit (upper : Bool) (n : Fin 16) : UInt8 :=
  if n.val < 10 then UInt8.ofNat (0x30 + n.val)
  else if upper then UInt8.ofNat (0x41 + (n.val - 10))
  else UInt8.ofNat (0x61 + (n.val - 10))

/-- The text `e` writes the bytes `b`: each of them raw or escaped, and a space as `+` where that is
its meaning. -/
inductive Encodes (plusIsSpace : Bool) : (e b : Bytes) → Prop
  | nil : Encodes plusIsSpace [] []
  | raw {c : UInt8} {e b : Bytes} (hpercent : c ≠ 0x25)
      (hplus : ¬ (c = 0x2B ∧ plusIsSpace = true)) :
      Encodes plusIsSpace e b → Encodes plusIsSpace (c :: e) (c :: b)
  | escape {e b : Bytes} (hi lo : Fin 16) (upper upper' : Bool) :
      Encodes plusIsSpace e b →
        Encodes plusIsSpace (0x25 :: hexDigit upper hi :: hexDigit upper' lo :: e)
          (UInt8.ofNat (16 * hi.val + lo.val) :: b)
  | plus {e b : Bytes} (hplus : plusIsSpace = true) :
      Encodes plusIsSpace e b → Encodes plusIsSpace (0x2B :: e) (0x20 :: b)

namespace Encodes

variable {plusIsSpace : Bool}

/-- Bytes without `%` (and `+`) write themselves. -/
theorem self {e : Bytes} (h : ∀ c ∈ e, c ≠ 0x25 ∧ ¬ (c = 0x2B ∧ plusIsSpace = true)) :
    Encodes plusIsSpace e e := by
  induction e with
  | nil => exact .nil
  | cons c e ih =>
      have hc := h c List.mem_cons_self
      apply Encodes.raw hc.1 hc.2
      apply ih
      intro d hd
      exact h d (List.mem_cons_of_mem c hd)

/-- Bytes that were checked one by one to be neither `%` nor, where it is a space, `+` encode
themselves. -/
theorem self_of_all {e : Bytes}
    (h : (e.all fun c => decide (c ≠ 0x25 ∧ ¬ (c = 0x2B ∧ plusIsSpace = true))) = true) :
    Encodes plusIsSpace e e :=
  self fun c hc => of_decide_eq_true (List.all_eq_true.mp h c hc)

/-- Encodings of two byte strings, one after the other, encode the two in a row. -/
theorem append {e b e' b' : Bytes} (h : Encodes plusIsSpace e b)
    (h' : Encodes plusIsSpace e' b') : Encodes plusIsSpace (e ++ e') (b ++ b') := by
  induction h with
  | nil => exact h'
  | raw hpercent hplus _ ih => exact .raw hpercent hplus ih
  | escape hi lo upper upper' _ ih => exact .escape hi lo upper upper' ih
  | plus hplus _ ih => exact .plus hplus ih

end Encodes

/-- The text of ASCII bytes: each byte is a character. -/
def asciiText (b : Bytes) : Str := b.map fun c => Char.ofNat c.toNat

/-- All bytes of a byte string are ASCII. -/
def IsAscii (b : Bytes) : Prop := ∀ c ∈ b, c.toNat < 0x80

instance (b : Bytes) : Decidable (IsAscii b) :=
  List.decidableBAll (fun c : UInt8 => c.toNat < 0x80) b

/-- A byte string is ASCII iff its first byte and the others are. -/
theorem isAscii_cons {c : UInt8} {b : Bytes} : IsAscii (c :: b) ↔ c.toNat < 0x80 ∧ IsAscii b :=
  List.forall_mem_cons

/-- A byte occurs in a byte string iff its character occurs in the text of it. -/
theorem mem_asciiText_iff {c : UInt8} {b : Bytes} :
    Char.ofNat c.toNat ∈ asciiText b ↔ c ∈ b :=
  List.mem_map_of_injective Str.byteChar_injective

/-- A digit written in upper or lower case is read back. -/
theorem hex_hexDigit (upper : Bool) (n : Fin 16) :
    hex (hexDigit upper n) = some (UInt8.ofNat n.val) := by
  revert upper n
  decide

/-- The two digits of a byte put together again. -/
theorem nibbles (hi lo : Fin 16) :
    (UInt8.ofNat hi.val <<< 4) ||| UInt8.ofNat lo.val = UInt8.ofNat (16 * hi.val + lo.val) := by
  revert hi lo
  decide +kernel

/-! ## Decoding -/

section decode

variable (plusIsSpace lowercase : Bool)

/-- A byte that starts no escape is taken on its own. -/
theorem decodeFoldInto_cons {c : UInt8} (h : c ≠ 0x25) (e : Bytes) :
    decodeFoldInto plusIsSpace lowercase (c :: e) =
      pushByte (plainByte plusIsSpace c) lowercase :: decodeFoldInto plusIsSpace lowercase e := by
  match e with
  | [] => rfl
  | [_] => rfl
  | _ :: _ :: _ => rw [decodeFoldInto, if_neg h]

/-- An escape is taken as one byte, also at the very end. -/
theorem decodeFoldInto_escape (hi lo : Fin 16) (upper upper' : Bool) (e : Bytes) :
    decodeFoldInto plusIsSpace lowercase
        (0x25 :: hexDigit upper hi :: hexDigit upper' lo :: e) =
      pushByte (UInt8.ofNat (16 * hi.val + lo.val)) lowercase ::
        decodeFoldInto plusIsSpace lowercase e := by
  rw [decodeFoldInto, if_pos rfl, hex_hexDigit, hex_hexDigit]
  simp only [nibbles]

variable {plusIsSpace}

/-- **Decoding undoes every encoding**: `decode_fold_into` gives the bytes that were encoded, one
character each. -/
theorem decodeFoldInto_of_encodes {e b : Bytes} (h : Encodes plusIsSpace e b) :
    decodeFoldInto plusIsSpace lowercase e = b.map fun c => pushByte c lowercase := by
  induction h with
  | nil => rfl
  | @raw c e b hpercent hplus _ ih =>
      have hplain : plainByte plusIsSpace c = c := if_neg hplus
      rw [decodeFoldInto_cons plusIsSpace lowercase hpercent, ih, hplain, List.map_cons]
  | escape hi lo upper upper' _ ih =>
      rw [decodeFoldInto_escape, ih, List.map_cons]
  | plus hplus _ ih =>
      have hplain : plainByte plusIsSpace 0x2B = 0x20 := if_pos ⟨rfl, hplus⟩
      rw [decodeFoldInto_cons plusIsSpace lowercase (by decide), ih, hplain, List.map_cons]

end decode

/-- An ASCII byte is appended as its character, folded where that is asked for. -/
theorem pushByte_ascii {c : UInt8} (h : c.toNat < 0x80) (lowercase : Bool) :
    pushByte c lowercase =
      if lowercase then (Char.ofNat c.toNat).toLower else Char.ofNat c.toNat := by
  have hlt : c < 0x80 := h
  rw [pushByte, if_pos hlt]

variable {plusIsSpace : Bool} {e b : Bytes}

/-- Decoding an encoding of ASCII bytes gives their text. -/
theorem decodeInto_of_encodes (hb : IsAscii b) (h : Encodes plusIsSpace e b) :
    decodeInto e plusIsSpace = asciiText b := by
  rw [decodeInto, decodeFoldInto_of_encodes false h]
  apply List.map_congr_left
  intro c hc
  rw [pushByte_ascii (hb c hc)]
  rfl

/-- Normalizing it gives the text in lower case. -/
theorem normalizeInto_of_encodes (hb : IsAscii b) (h : Encodes plusIsSpace e b) :
    normalizeInto e plusIsSpace = Str.toAsciiLowercase (asciiText b) := by
  rw [normalizeInto, decodeFoldInto_of_encodes true h, Str.toAsciiLowercase, asciiText,
    List.map_map]
  apply List.map_congr_left
  intro c hc
  rw [pushByte_ascii (hb c hc)]
  rfl

/-- The text of ASCII bytes has these bytes. -/
theorem utf8_asciiText (hb : IsAscii b) : Str.utf8 (asciiText b) = b := by
  induction b with
  | nil => rfl
  | cons c b ih =>
      have hc : c.toNat < 0x80 := hb c List.mem_cons_self
      have hvalue : (Char.ofNat c.toNat).val.toNat = c.toNat := Str.toNat_byteChar c
      have hchar : String.utf8EncodeChar (Char.ofNat c.toNat) = [c] := by
        unfold String.utf8EncodeChar
        simp only [hvalue]
        rw [if_pos (by omega), UInt8.ofNat_toNat]
      have hrest : IsAscii b := fun d hd => hb d (List.mem_cons_of_mem _ hd)
      show String.utf8EncodeChar (Char.ofNat c.toNat) ++ Str.utf8 (asciiText b) = c :: b
      rw [hchar, ih hrest, List.singleton_append]

/-- The characters that read from a header: visible ASCII, space and tab. -/
def isHeaderChar (c : Char) : Bool := (0x20 ≤ c.toNat && c.toNat < 0x7F) || c.toNat == 0x09

/-- A character that a header value may have is ASCII. -/
theorem ascii_of_isHeaderChar {c : Char} (h : isHeaderChar c = true) : c.toNat < 0x80 := by
  simp only [isHeaderChar, Bool.or_eq_true, Bool.and_eq_true, decide_eq_true_eq, beq_iff_eq] at h
  omega

/-- An ASCII text has a byte for each character. -/
theorem utf8_of_ascii {s : Str} (h : ∀ c ∈ s, c.toNat < 0x80) :
    Str.utf8 s = s.map fun c => UInt8.ofNat c.toNat := by
  unfold Str.utf8
  rw [List.map_eq_flatMap]
  apply List.flatMap_congr
  intro c hc
  exact Str.utf8EncodeChar_of_ascii (h c hc)

/-- A text of header characters is read from a header as itself. -/
theorem headerToStr_utf8 {s : Str} (h : ∀ c ∈ s, isHeaderChar c = true) :
    headerToStr (Str.utf8 s) = some s := by
  have hascii : ∀ c ∈ s, c.toNat < 0x80 := fun c hc => ascii_of_isHeaderChar (h c hc)
  have hbyte : ∀ c ∈ s, (UInt8.ofNat c.toNat).toNat = c.toNat := by
    intro c hc
    have hsmall := hascii c hc
    have hbound : c.toNat < 256 := by omega
    exact UInt8.toNat_ofNat_of_lt' hbound
  have hbytes := utf8_of_ascii hascii
  have htext : ((Str.utf8 s).all fun b =>
      (0x20 ≤ b.toNat && b.toNat < 0x7F) || b.toNat == 0x09) = true := by
    rw [hbytes, List.all_map, List.all_eq_true]
    intro c hc
    simp only [Function.comp_apply, hbyte c hc]
    exact h c hc
  have hback : ((Str.utf8 s).map fun b => Char.ofNat b.toNat) = s := by
    rw [hbytes, List.map_map]
    conv_rhs => rw [← List.map_id s]
    apply List.map_congr_left
    intro c hc
    simp only [Function.comp_apply, hbyte c hc, Char.ofNat_toNat, id_eq]
  unfold headerToStr
  rw [if_pos htext, hback]

/-- Byte strings that differ at most in the case of ASCII letters. -/
def EqIgnoreCase (b b' : Bytes) : Prop :=
  Str.toAsciiLowercase (asciiText b) = Str.toAsciiLowercase (asciiText b')

instance (b b' : Bytes) : Decidable (EqIgnoreCase b b') :=
  inferInstanceAs (Decidable (Str.toAsciiLowercase (asciiText b) = _))

/-- Encodings of ASCII texts equal up to case are normalized alike. -/
theorem normalizeInto_congr {e' b' : Bytes} (hb : IsAscii b) (hb' : IsAscii b')
    (h : Encodes plusIsSpace e b) (h' : Encodes plusIsSpace e' b') (hcase : EqIgnoreCase b b') :
    normalizeInto e plusIsSpace = normalizeInto e' plusIsSpace := by
  have hnorm := normalizeInto_of_encodes hb h
  have hnorm' := normalizeInto_of_encodes hb' h'
  rw [hnorm, hnorm']
  exact hcase

end Parser

namespace Signatures

open BuduWaf.Parser

/-! ## Requests that say the same -/

/-- The normalized copies on a context are missing or those of its own path and query: a context
as the handler builds it, before or after the normalizing stage. -/
structure OwnCopies (ctx : RequestCtx) : Prop where
  /-- The copy of the path. -/
  path : ∀ p, ctx.normalized.path = some p → p = normalizeInto (Str.utf8 ctx.path) false
  /-- The copy of the query. -/
  query : ∀ q, ctx.normalized.query = some q →
    ∃ raw, ctx.query = some raw ∧ q = normalizeInto (Str.utf8 raw) true

/-- A context that has not been normalized has no copies that could differ from its path and query.
-/
theorem ownCopies_default {ctx : RequestCtx} (h : ctx.normalized = .default) : OwnCopies ctx := by
  constructor
  · intro p hp
    rw [h] at hp
    cases hp
  · intro q hq
    rw [h] at hq
    cases hq

/-- What the normalizing stage leaves are copies of the path and query of the context. -/
theorem ownCopies_normalize (ctx : RequestCtx) : OwnCopies (normalize ctx) := by
  constructor
  · intro p hp
    exact (Option.some.inj hp).symm
  · intro q hq
    obtain ⟨raw, hraw, rfl⟩ := Option.map_eq_some_iff.mp hq
    exact ⟨raw, hraw, rfl⟩

/-- What the signatures are matched against is computed from the path, the query and the body
alone, whether or not the normalizing stage ran. -/
theorem haystack_eq {ctx : RequestCtx} (h : OwnCopies ctx) :
    haystack ctx =
      normalizeInto (Str.utf8 ctx.path) false ++
      (match ctx.query with
        | some q => '?' :: normalizeInto (Str.utf8 q) true
        | none => []) ++
      (match ctx.body with
        | .buffered bytes => '\n' :: normalizeInto bytes true
        | _ => []) := by
  have hpath : (match ctx.normalized.path with
      | some p => p
      | none => normalizeInto (Str.utf8 ctx.path) false) =
        normalizeInto (Str.utf8 ctx.path) false := by
    cases hp : ctx.normalized.path with
    | none => rfl
    | some p => exact h.path p hp
  have hquery : (match ctx.normalized.query with
      | some q => '?' :: q
      | none =>
        match ctx.query with
        | some q => '?' :: normalizeInto (Str.utf8 q) true
        | none => []) =
      (match ctx.query with
        | some q => '?' :: normalizeInto (Str.utf8 q) true
        | none => []) := by
    cases hq : ctx.normalized.query with
    | none => rfl
    | some q =>
        obtain ⟨raw, hraw, rfl⟩ := h.query q hq
        rw [hraw]
  exact congrArg₂ (· ++ ·) (congrArg₂ (· ++ ·) hpath hquery) rfl

/-- Two texts write ASCII strings that are equal up to case. -/
def SameText (plusIsSpace : Bool) (s s' : Str) : Prop :=
  ∃ b b', IsAscii b ∧ IsAscii b' ∧ EqIgnoreCase b b' ∧
    Encodes plusIsSpace (Str.utf8 s) b ∧ Encodes plusIsSpace (Str.utf8 s') b'

/-- Two requests with the same body whose paths and queries write the same up to case. -/
structure SameRequest (ctx ctx' : RequestCtx) : Prop where
  /-- The paths. -/
  path : SameText false ctx.path ctx'.path
  /-- The queries, which both have or both lack. -/
  query : Option.Rel (SameText true) ctx.query ctx'.query
  /-- The bodies. -/
  body : ctx.body = ctx'.body

/-- Encodings of one text are normalized to the same text. -/
theorem SameText.normalizeInto_eq {plusIsSpace : Bool} {s s' : Str}
    (h : SameText plusIsSpace s s') :
    normalizeInto (Str.utf8 s) plusIsSpace = normalizeInto (Str.utf8 s') plusIsSpace := by
  obtain ⟨b, b', hb, hb', hcase, henc, henc'⟩ := h
  exact normalizeInto_congr hb hb' henc henc' hcase

/-- The same request, however encoded, has the same haystack. -/
theorem haystack_congr {ctx ctx' : RequestCtx} (hown : OwnCopies ctx) (hown' : OwnCopies ctx')
    (h : SameRequest ctx ctx') : haystack ctx = haystack ctx' := by
  have hquery : (match ctx.query with
      | some q => '?' :: normalizeInto (Str.utf8 q) true
      | none => []) =
      (match ctx'.query with
        | some q => '?' :: normalizeInto (Str.utf8 q) true
        | none => []) := by
    cases hq : ctx.query with
    | none =>
        have hrel := h.query
        rw [hq] at hrel
        cases hq' : ctx'.query with
        | none => rfl
        | some q' => rw [hq'] at hrel; cases hrel
    | some q =>
        have hrel := h.query
        rw [hq] at hrel
        cases hq' : ctx'.query with
        | none => rw [hq'] at hrel; cases hrel
        | some q' =>
            rw [hq'] at hrel
            obtain ⟨hsame⟩ := hrel
            exact congrArg ('?' :: ·) hsame.normalizeInto_eq
  rw [haystack_eq hown, haystack_eq hown', h.path.normalizeInto_eq, hquery, h.body]

/-- **Re-encoding hides nothing.** Every way to write ASCII bytes is decoded to them and
normalized to their lower case; so requests whose paths and queries write strings equal up to
case are one text to the signatures, and get one verdict, before and after normalization. -/
theorem reencoding_seen_through :
    (∀ (plusIsSpace : Bool) (e b : Bytes), IsAscii b → Encodes plusIsSpace e b →
      decodeInto e plusIsSpace = asciiText b ∧
        normalizeInto e plusIsSpace = Str.toAsciiLowercase (asciiText b)) ∧
    ∀ (X : Crates) (db : SignatureDb X) (ctx ctx' : RequestCtx), OwnCopies ctx → OwnCopies ctx' →
      SameRequest ctx ctx' → haystack ctx = haystack ctx' ∧ inspect db ctx = inspect db ctx' := by
  constructor
  · intro plusIsSpace e b hb h
    exact ⟨decodeInto_of_encodes hb h, normalizeInto_of_encodes hb h⟩
  · intro X db ctx ctx' hown hown' h
    have hhay := haystack_congr hown hown' h
    refine ⟨hhay, ?_⟩
    unfold inspect
    rw [hhay]

/-! ## A disguised path -/

/-- The built-in signatures in a plain build. -/
def builtinDb : SignatureDb (.plain .none .none) :=
  (SignatureDb.compile (.plain .none .none) signatures).toOption.get (by decide +kernel)

/-- A `GET` request for a path with a query, without headers and body. -/
def getRequest (path query : Str) : RequestCtx :=
  ⟨("GET" : Str), path, some query, .empty, ⟨.v4 0#32, none⟩, .notBuffered, .default⟩

/-- The two requests of the example are encodings of one. -/
theorem disguised_same :
    SameRequest (getRequest "/etc/passwd" "a b") (getRequest "/ETC/p%61sswd" "%41+B") := by
  refine ⟨?_, .some ?_, rfl⟩
  · have hraw : Encodes false (Str.utf8 "/etc/passwd") (Str.utf8 "/etc/passwd") :=
      Encodes.self_of_all (by decide)
    have hfront : Encodes false (Str.utf8 "/ETC/p") (Str.utf8 "/ETC/p") :=
      Encodes.self_of_all (by decide)
    have hback : Encodes false (Str.utf8 "sswd") (Str.utf8 "sswd") :=
      Encodes.self_of_all (by decide)
    have hdisguised := hfront.append (.escape 6 1 false false hback)
    exact ⟨_, _, by decide, by decide, by decide, hraw, hdisguised⟩
  · have hraw : Encodes true (Str.utf8 "a b") (Str.utf8 "a b") := Encodes.self_of_all (by decide)
    have hdisguised : Encodes true (Str.utf8 "%41+B") (Str.utf8 "A B") :=
      .escape 4 1 false false (.plus rfl (Encodes.self_of_all (by decide)))
    exact ⟨_, _, by decide, by decide, by decide, hraw, hdisguised⟩

/-- The disguised request is blocked as the plain one is. -/
theorem disguised_path_seen_through :
    decodeInto (Str.utf8 "%41+B") true = ("A B" : Str) ∧
      inspect builtinDb (getRequest "/etc/passwd" "a b") =
        inspect builtinDb (getRequest "/ETC/p%61sswd" "%41+B") := by
  constructor
  · have hencodes : Encodes true (Str.utf8 "%41+B") (Str.utf8 "A B") :=
      .escape 4 1 false false (.plus rfl (Encodes.self_of_all (by decide)))
    exact (reencoding_seen_through.1 true _ _ (by decide) hencodes).1
  · exact (reencoding_seen_through.2 (.plain .none .none) builtinDb _ _
      (ownCopies_default rfl) (ownCopies_default rfl) disguised_same).2

end Signatures

end BuduWaf
