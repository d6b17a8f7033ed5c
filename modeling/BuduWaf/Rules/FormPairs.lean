import BuduWaf.Encodings
import BuduWaf.Lib.Split
import BuduWaf.Rules.Fields
import Mathlib.Data.List.Forall2

/-!
# `budu-rules`: the parameters of a form encoding

The reader cuts the raw text at `&` and at the first `=` of a piece, and decodes what is left.

* **`FormEncoding`**: the ways to write a list of pairs, every byte raw or escaped on its own, and
  any number of further `&`.
* **`form_encoding_inverted`**: the reader gives the pairs back from each of them, so every
  parameter field sees the same in all of them.

The encoding is a relation, so that one list of pairs has many encodings, and the theorem says the
same of all of them. It goes in two steps: the raw text is cut where the encoding joined it, since
no separator is written raw within a piece (`notMem`), and a piece is decoded to what was encoded.
Pairs are of ASCII bytes, as other bytes are read as text before they are cut.
-/

namespace BuduWaf.Rules

open BuduWaf.Parser RateLimit

/-! ## Encodings of a list of pairs -/

/-- `e` writes the bytes `b` in a form in which some bytes must be escaped. -/
inductive Writes (reserved : List UInt8) : (e b : Bytes) → Prop
  | nil : Writes reserved [] []
  | raw {c : UInt8} {e b : Bytes} (hc : c ∉ reserved) :
      Writes reserved e b → Writes reserved (c :: e) (c :: b)
  | escape {e b : Bytes} (hi lo : Fin 16) (upper upper' : Bool) :
      Writes reserved e b →
        Writes reserved (0x25 :: hexDigit upper hi :: hexDigit upper' lo :: e)
          (UInt8.ofNat (16 * hi.val + lo.val) :: b)
  | plus {e b : Bytes} : Writes reserved e b → Writes reserved (0x2B :: e) (0x20 :: b)

/-- The bytes that a value cannot have raw: `%`, `+` and `&`. -/
def valueReserved : List UInt8 := [0x25, 0x2B, 0x26]

/-- The bytes that a key cannot have raw: these and `=`. -/
def keyReserved : List UInt8 := 0x3D :: valueReserved

/-- The bytes `e` write a pair: its key and its value encoded, with `=` between them. -/
inductive WritesPair : (e : Bytes) → (pair : Bytes × Bytes) → Prop
  | mk {ek ev k v : Bytes} (hkey : Writes keyReserved ek k) (hvalue : Writes valueReserved ev v) :
      WritesPair (ek ++ 0x3D :: ev) (k, v)

/-- `e` writes a list of pairs: pieces joined by `&`, of which the empty ones stand for
nothing. -/
def FormEncoding (e : Bytes) (pairs : List (Bytes × Bytes)) : Prop :=
  ∃ pieces : List Bytes, e = [0x26].intercalate pieces ∧
    List.Forall₂ WritesPair (pieces.filter fun piece => !piece.isEmpty) pairs

namespace Writes

variable {reserved : List UInt8} {e b : Bytes}

/-- A text that is written with these characters reserved is a percent-encoding of its bytes. -/
theorem encodes (h : Writes reserved e b) (hpercent : 0x25 ∈ reserved) (hplus : 0x2B ∈ reserved) :
    Encodes true e b := by
  induction h with
  | nil => exact .nil
  | @raw c e b hc _ ih =>
      have hother : c ≠ 0x25 := fun heq => hc (heq ▸ hpercent)
      have hsign : ¬ (c = 0x2B ∧ true = true) := fun heq => hc (heq.1 ▸ hplus)
      exact .raw hother hsign ih
  | escape hi lo upper upper' _ ih => exact .escape hi lo upper upper' ih
  | plus _ ih => exact .plus rfl ih

/-- A hexadecimal digit is ASCII, in both cases. -/
theorem hexDigit_ascii (upper : Bool) (n : Fin 16) : (hexDigit upper n).toNat < 0x80 := by
  revert upper n
  decide

/-- An encoding of ASCII bytes is ASCII. -/
theorem isAscii (h : Writes reserved e b) (hb : IsAscii b) : IsAscii e := by
  induction h with
  | nil => exact hb
  | raw _ _ ih =>
      obtain ⟨hc, hrest⟩ := isAscii_cons.mp hb
      exact isAscii_cons.mpr ⟨hc, ih hrest⟩
  | escape hi lo upper upper' _ ih =>
      have hrest := ih (isAscii_cons.mp hb).2
      have hfirst := hexDigit_ascii upper hi
      have hsecond := hexDigit_ascii upper' lo
      apply isAscii_cons.mpr
      refine ⟨by decide, ?_⟩
      exact isAscii_cons.mpr ⟨hfirst, isAscii_cons.mpr ⟨hsecond, hrest⟩⟩
  | plus _ ih =>
      have hrest := ih (isAscii_cons.mp hb).2
      exact isAscii_cons.mpr ⟨by decide, hrest⟩

/-- A reserved separator does not occur in an encoding. -/
theorem notMem {c : UInt8} (hsep : c = 0x26 ∨ c = 0x3D) (h : Writes reserved e b)
    (hc : c ∈ reserved) : c ∉ e := by
  have hdigit : ∀ (upper : Bool) (n : Fin 16), c ≠ hexDigit upper n := by
    rcases hsep with rfl | rfl
    · decide
    · decide
  have hpercent : c ≠ 0x25 := by rcases hsep with rfl | rfl <;> decide
  have hplus : c ≠ 0x2B := by rcases hsep with rfl | rfl <;> decide
  induction h with
  | nil => exact List.not_mem_nil
  | @raw d e b hd _ ih =>
      have hne : c ≠ d := fun heq => hd (heq ▸ hc)
      simp [hne, ih]
  | escape hi lo upper upper' _ ih => simp [hpercent, hdigit, ih]
  | plus _ ih => simp [hplus, ih]

/-- Decoding gives the text of the bytes. -/
theorem decodeInto_eq (h : Writes reserved e b) (hpercent : 0x25 ∈ reserved)
    (hplus : 0x2B ∈ reserved) (hb : IsAscii b) :
    decodeInto (Str.utf8 (asciiText e)) true = asciiText b := by
  rw [utf8_asciiText (h.isAscii hb)]
  exact decodeInto_of_encodes hb (h.encodes hpercent hplus)

end Writes

/-! ## Reading a pair -/

/-- What the reader makes of one piece.
Source: `budu-rules/src/ruleset.rs` `parse_pairs` (the loop body) -/
def readPair (pair : Str) : Option (Str × Str) :=
  if pair.isEmpty then none
  else
    let (k, v) := (Str.splitOnce '=' pair).getD (pair, [])
    some (decodeInto (Str.utf8 k) true, decodeInto (Str.utf8 v) true)

/-- `parse_pairs` splits at `&` and reads each part. -/
theorem parsePairs_eq (s : Str) : parsePairs s = (s.splitOn '&').filterMap readPair := rfl

/-- The texts of a pair of ASCII byte strings. -/
def pairText (pair : Bytes × Bytes) : Str × Str := (asciiText pair.1, asciiText pair.2)

/-- Both parts of a pair are ASCII. -/
def IsAsciiPair (pair : Bytes × Bytes) : Prop := IsAscii pair.1 ∧ IsAscii pair.2

instance (pair : Bytes × Bytes) : Decidable (IsAsciiPair pair) :=
  inferInstanceAs (Decidable (_ ∧ _))

/-- The text of two byte strings in a row is their texts in a row. -/
theorem asciiText_append (a b : Bytes) : asciiText (a ++ b) = asciiText a ++ asciiText b :=
  List.map_append

/-- **A written pair is read as it is**, however it is written. -/
theorem readPair_of_writes {e : Bytes} {pair : Bytes × Bytes} (h : WritesPair e pair)
    (hpair : IsAsciiPair pair) : readPair (asciiText e) = some (pairText pair) := by
  obtain @⟨ek, ev, k, v, hkey, hvalue⟩ := h
  have htext : asciiText (ek ++ 0x3D :: ev) = asciiText ek ++ '=' :: asciiText ev :=
    asciiText_append ek (0x3D :: ev)
  have hnone : '=' ∉ asciiText ek := by
    have hbyte : (0x3D : UInt8) ∉ ek := hkey.notMem (.inr rfl) (by decide)
    intro hmem
    exact hbyte (mem_asciiText_iff.mp hmem)
  have hcut : Str.splitOnce '=' (asciiText ek ++ '=' :: asciiText ev) =
      some (asciiText ek, asciiText ev) := Str.splitOnce_append hnone _
  have hnonempty : (asciiText ek ++ '=' :: asciiText ev).isEmpty = false := by simp
  unfold readPair
  rw [htext, hnonempty, hcut]
  simp only [Bool.false_eq_true, if_false, Option.getD_some]
  rw [hkey.decodeInto_eq (by decide) (by decide) hpair.1,
    hvalue.decodeInto_eq (by decide) (by decide) hpair.2]
  rfl

/-- A pair that is written has no `&` in it. -/
theorem notMem_of_writesPair {e : Bytes} {pair : Bytes × Bytes} (h : WritesPair e pair) :
    (0x26 : UInt8) ∉ e := by
  obtain @⟨ek, ev, k, v, hkey, hvalue⟩ := h
  have hk : (0x26 : UInt8) ∉ ek := hkey.notMem (.inl rfl) (by decide)
  have hv : (0x26 : UInt8) ∉ ev := hvalue.notMem (.inl rfl) (by decide)
  simp [hk, hv]

/-- The writing of an ASCII pair is ASCII. -/
theorem isAscii_of_writesPair {e : Bytes} {pair : Bytes × Bytes} (h : WritesPair e pair)
    (hpair : IsAsciiPair pair) : IsAscii e := by
  obtain @⟨ek, ev, k, v, hkey, hvalue⟩ := h
  have hk := hkey.isAscii hpair.1
  have hv := hvalue.isAscii hpair.2
  intro c hc
  rcases List.mem_append.mp hc with hc | hc
  · exact hk c hc
  · rcases List.mem_cons.mp hc with rfl | hc
    · decide
    · exact hv c hc

/-! ## Reading the list -/

/-- The text of pieces joined by a byte is their texts joined by its character. -/
theorem asciiText_intercalate (sep : UInt8) (pieces : List Bytes) :
    asciiText ([sep].intercalate pieces) =
      [Char.ofNat sep.toNat].intercalate (pieces.map asciiText) := by
  induction pieces with
  | nil => rfl
  | cons piece pieces ih =>
      cases pieces with
      | nil => simp
      | cons next pieces =>
          have hpieces : (piece :: next :: pieces).map asciiText =
              asciiText piece :: asciiText next :: pieces.map asciiText := rfl
          rw [List.intercalate_cons_cons, asciiText_append, asciiText_append, ih, hpieces,
            List.intercalate_cons_cons]
          rfl

/-- What holds of all that was written holds of every piece. -/
theorem of_mem_pieces {P : Bytes → Prop} (hempty : P []) {pieces : List Bytes}
    {pairs : List (Bytes × Bytes)}
    (h : List.Forall₂ WritesPair (pieces.filter fun piece => !piece.isEmpty) pairs)
    (hwritten : ∀ e pair, pair ∈ pairs → WritesPair e pair → P e) :
    ∀ piece ∈ pieces, P piece := by
  intro piece hpiece
  by_cases hnil : piece = []
  · rwa [hnil]
  · have hmem : piece ∈ pieces.filter fun piece => !piece.isEmpty :=
      List.mem_filter.mpr ⟨hpiece, by simpa using hnil⟩
    obtain ⟨i, hi, rfl⟩ := List.mem_iff_getElem.mp hmem
    have hlength := h.length_eq
    have hwrites := List.forall₂_iff_get.mp h |>.2 i hi (by omega)
    exact hwritten _ _ (List.getElem_mem _) hwrites

/-- The reader gives the pairs of the pieces. -/
theorem filterMap_readPair {pieces : List Bytes} {pairs : List (Bytes × Bytes)}
    (h : List.Forall₂ WritesPair (pieces.filter fun piece => !piece.isEmpty) pairs)
    (hpairs : ∀ pair ∈ pairs, IsAsciiPair pair) :
    (pieces.map asciiText).filterMap readPair = pairs.map pairText := by
  induction pieces generalizing pairs with
  | nil =>
      cases h
      rfl
  | cons piece pieces ih =>
      cases piece with
      | nil => exact ih h hpairs
      | cons c piece =>
          obtain ⟨pair, rest, hpair, hrest, rfl⟩ := List.forall₂_cons_left_iff.mp h
          have hfirst := readPair_of_writes hpair (hpairs pair List.mem_cons_self)
          have hothers := ih hrest fun other hother =>
            hpairs other (List.mem_cons_of_mem pair hother)
          rw [List.map_cons, List.filterMap_cons_some hfirst, hothers, List.map_cons]

section encoding

variable {e : Bytes} {pairs : List (Bytes × Bytes)} (h : FormEncoding e pairs)
  (hpairs : ∀ pair ∈ pairs, IsAsciiPair pair)

include h hpairs

/-- **The reader inverts form encoding**: of the text of an encoding it reads the pairs. -/
theorem parsePairs_of_encoding : parsePairs (asciiText e) = pairs.map pairText := by
  obtain ⟨pieces, rfl, hpieces⟩ := h
  have hread := filterMap_readPair hpieces hpairs
  rw [parsePairs_eq, asciiText_intercalate]
  by_cases hnil : pieces = []
  · subst hnil
    cases hpieces
    rfl
  · have hfree : ∀ text ∈ pieces.map asciiText, '&' ∉ text := by
      intro text htext
      obtain ⟨piece, hpiece, rfl⟩ := List.mem_map.mp htext
      have hbyte : (0x26 : UInt8) ∉ piece :=
        of_mem_pieces (P := fun e => (0x26 : UInt8) ∉ e) List.not_mem_nil hpieces
          (fun _ _ _ hwrites => notMem_of_writesPair hwrites) piece hpiece
      intro hmem
      exact hbyte (mem_asciiText_iff.mp hmem)
    have hsplit : (['&'].intercalate (pieces.map asciiText)).splitOn '&' = pieces.map asciiText :=
      List.splitOn_intercalate '&' hfree (by simpa using hnil)
    exact (congrArg (List.filterMap readPair) hsplit).trans hread

/-- The encoding of ASCII pairs is ASCII. -/
theorem isAscii_of_encoding : IsAscii e := by
  obtain ⟨pieces, rfl, hpieces⟩ := h
  have hall : ∀ piece ∈ pieces, IsAscii piece :=
    of_mem_pieces (fun c hc => absurd hc List.not_mem_nil) hpieces
      fun _ pair hpair hwrites => isAscii_of_writesPair hwrites (hpairs pair hpair)
  exact Str.forall_mem_intercalate (by decide) hall

/-- Of the bytes of an encoding, read as text, it reads the pairs. -/
theorem parsePairs_of_body : parsePairs (Str.fromUtf8Lossy e) = pairs.map pairText := by
  have htext : Str.fromUtf8Lossy e = asciiText e := by
    rw [← Str.fromUtf8Lossy_utf8 (asciiText e), utf8_asciiText (isAscii_of_encoding h hpairs)]
  rw [htext]
  exact parsePairs_of_encoding h hpairs

end encoding

/-! ## What the parameter fields see -/

/-- The fields that read the parameters. -/
def isParamField : Field → Bool
  | .arg _ | .args | .argNames | .argsCount => true
  | _ => false

/-- The parameter fields read the arguments, and nothing else of the request. -/
theorem collectCandidates_congr {X : Crates} {now : Now} {counters : CounterStore X}
    {ctx ctx' : RequestCtx} (h : collectArgs X ctx = collectArgs X ctx') {f : Field}
    (hf : isParamField f = true) :
    collectCandidates now ctx counters f = collectCandidates now ctx' counters f := by
  cases f with
  | arg name => exact congrArg (valuesOf name) h
  | args => exact congrArg (List.map Prod.snd) h
  | argNames => exact congrArg (List.map Prod.fst) h
  | argsCount => exact congrArg (fun args => [Str.ofNat args.length]) h
  | _ => cases hf

/-- The request declares a body of an encoded form. -/
def IsForm (ctx : RequestCtx) : Prop :=
  ∃ ct, (ctx.headers.get "content-type").bind headerToStr = some ct ∧
    ("application/x-www-form-urlencoded" : Str).isPrefixOf (Str.toAsciiLowercase ct) = true

/-- The parameters of a request with a form body are those of its query and those of the body. -/
theorem collectArgs_form (X : Crates) {ctx : RequestCtx} (hform : IsForm ctx) (e : Bytes) :
    collectArgs X { ctx with body := .buffered e } =
      ctx.query.elim [] parsePairs ++ parsePairs (Str.fromUtf8Lossy e) := by
  obtain ⟨ct, hct, htype⟩ := hform
  unfold collectArgs
  dsimp only
  rw [hct]
  dsimp only
  unfold bodyArgs
  rw [if_pos htype]

/-- **Form encodings are seen through.** From every encoding of a list of ASCII pairs the reader
gives that list, in order, and every field about parameters sees the same in all of them, in the
query and in a form body. -/
theorem form_encoding_inverted :
    (∀ (pairs : List (Bytes × Bytes)) (e : Bytes), (∀ pair ∈ pairs, IsAsciiPair pair) →
      FormEncoding e pairs → parsePairs (asciiText e) = pairs.map pairText) ∧
    ∀ (X : Crates) (now : Now) (counters : CounterStore X) (ctx : RequestCtx)
      (pairs : List (Bytes × Bytes)) (e e' : Bytes), (∀ pair ∈ pairs, IsAsciiPair pair) →
      FormEncoding e pairs → FormEncoding e' pairs → ∀ f, isParamField f = true →
        collectCandidates now { ctx with query := some (asciiText e) } counters f =
            collectCandidates now { ctx with query := some (asciiText e') } counters f ∧
          (IsForm ctx → collectCandidates now { ctx with body := .buffered e } counters f =
            collectCandidates now { ctx with body := .buffered e' } counters f) := by
  constructor
  · intro pairs e hpairs h
    exact parsePairs_of_encoding h hpairs
  · intro X now counters ctx pairs e e' hpairs h h' f hf
    constructor
    · have hread := parsePairs_of_encoding h hpairs
      have hread' := parsePairs_of_encoding h' hpairs
      apply collectCandidates_congr _ hf
      simp only [collectArgs, Option.elim_some, hread, hread']
    · intro hform
      have hread := parsePairs_of_body h hpairs
      have hread' := parsePairs_of_body h' hpairs
      apply collectCandidates_congr _ hf
      rw [collectArgs_form X hform, collectArgs_form X hform, hread, hread']

/-! ### A disguised command -/

/-- The pair `cmd`, `ls -a`, and an empty one. -/
def commandPairs : List (Bytes × Bytes) :=
  [(Str.utf8 "cmd", Str.utf8 "ls -a"), (Str.utf8 "x", [])]

/-- Bytes that are not reserved may be written as they are. -/
theorem Writes.self_of_all {reserved : List UInt8} {b : Bytes}
    (h : (b.all fun c => decide (c ∉ reserved)) = true) : Writes reserved b b := by
  induction b with
  | nil => exact .nil
  | cons c b ih =>
      obtain ⟨hc, hrest⟩ := Bool.and_eq_true_iff.mp h
      exact .raw (of_decide_eq_true hc) (ih hrest)

/-- The query of the example is an encoding of its pairs. -/
theorem command_encoding : FormEncoding (Str.utf8 "&c%6Dd=ls+%2da&&x=") commandPairs := by
  refine ⟨[[], Str.utf8 "c%6Dd=ls+%2da", [], Str.utf8 "x="], by decide +kernel, ?_⟩
  have hkey : Writes keyReserved (Str.utf8 "c%6Dd") (Str.utf8 "cmd") :=
    .raw (by decide) (.escape 6 13 false true (.self_of_all (by decide)))
  have hvalue : Writes valueReserved (Str.utf8 "ls+%2da") (Str.utf8 "ls -a") :=
    .raw (by decide) (.raw (by decide) (.plus (.escape 2 13 false false
      (.self_of_all (by decide)))))
  have hx : Writes keyReserved (Str.utf8 "x") (Str.utf8 "x") := .self_of_all (by decide)
  exact .cons (.mk hkey hvalue) (.cons (.mk hx .nil) .nil)

/-- The parameters are read through the escapes. -/
theorem command_seen_through :
    parsePairs (asciiText (Str.utf8 "&c%6Dd=ls+%2da&&x=")) =
      [(("cmd" : Str), ("ls -a" : Str)), ("x", [])] :=
  form_encoding_inverted.1 commandPairs _ (by decide) command_encoding

end BuduWaf.Rules
