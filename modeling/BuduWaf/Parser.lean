import BuduWaf.Common

/-!
# `budu-parser`: normalization

Percent-decoding with optional case folding, and the stage that stores the normalized path and
query on the context. The source walks an index over the bytes; here each case of its loop body
takes one or three bytes off the front.

An escape is decoded where two hexadecimal digits follow the `%`, also at the very end of the
input; any other `%` is kept. A decoded byte is stored as the character of its value, so bytes from
`0x80` on become Latin-1 characters rather than parts of a UTF-8 sequence.
-/

namespace BuduWaf.Parser

/-- The value of a hexadecimal digit.
Source: `budu-parser/src/lib.rs` `hex` -/
def hex (b : UInt8) : Option UInt8 :=
  if 0x30 ≤ b ∧ b ≤ 0x39 then some (b - 0x30)
  else if 0x61 ≤ b ∧ b ≤ 0x66 then some (b - 0x61 + 10)
  else if 0x41 ≤ b ∧ b ≤ 0x46 then some (b - 0x41 + 10)
  else none

/-- The character a decoded byte is stored as.
Source: `budu-parser/src/lib.rs` `push_byte` -/
def pushByte (b : UInt8) (lowercase : Bool) : Char :=
  if b < 0x80 then
    let c := Char.ofNat b.toNat
    if lowercase then c.toLower else c
  else '?'

/-- A byte outside a percent escape: `+` is a space where the caller says so.
Source: `budu-parser/src/lib.rs` `decode_fold_into` -/
def plainByte (plusIsSpace : Bool) (b : UInt8) : UInt8 :=
  if b = 0x2B ∧ plusIsSpace then 0x20 else b

/-- Percent-decode, and fold the case if asked to.
Source: `budu-parser/src/lib.rs` `decode_fold_into` -/
def decodeFoldInto (plusIsSpace lowercase : Bool) : Bytes → Str
  | [] => []
  | b :: h :: l :: rest =>
    -- `b'%' if i + 2 < input.len()`
    if b = 0x25 then
      match hex h, hex l with
      | some hi, some lo =>
        pushByte ((hi <<< 4) ||| lo) lowercase :: decodeFoldInto plusIsSpace lowercase rest
      | _, _ => pushByte 0x25 lowercase :: decodeFoldInto plusIsSpace lowercase (h :: l :: rest)
    else
      pushByte (plainByte plusIsSpace b) lowercase
        :: decodeFoldInto plusIsSpace lowercase (h :: l :: rest)
  | b :: rest =>
    pushByte (plainByte plusIsSpace b) lowercase :: decodeFoldInto plusIsSpace lowercase rest

/-- Percent-decode and fold the case.
Source: `budu-parser/src/lib.rs` `normalize_into` -/
def normalizeInto (input : Bytes) (plusIsSpace : Bool) : Str :=
  decodeFoldInto plusIsSpace true input

/-- Percent-decode only.
Source: `budu-parser/src/lib.rs` `decode_into` -/
def decodeInto (input : Bytes) (plusIsSpace : Bool) : Str :=
  decodeFoldInto plusIsSpace false input

/-- What `NormalizeStage` writes on the context.
Source: `budu-parser/src/lib.rs` `NormalizeStage::inspect` -/
def normalize (ctx : RequestCtx) : RequestCtx :=
  { ctx with normalized :=
      { path := some (normalizeInto (Str.utf8 ctx.path) false)
        query := ctx.query.map fun q => normalizeInto (Str.utf8 q) true } }

end BuduWaf.Parser
