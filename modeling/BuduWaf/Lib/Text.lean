import Mathlib.Algebra.Group.Int.Defs
import Mathlib.Algebra.GroupWithZero.Nat
import Mathlib.Data.List.DropRight

/-!
# Text and bytes

The part of Rust's `str` and `[u8]` that the rest of the development computes with. A `str` is
the list of its characters and a byte string the list of its bytes, so every function below is a
structural recursion and evaluates in the kernel.

* **Shape**: `utf8` (the bytes of a text), `byteLen`, `fromUtf8Lossy` (the inverse direction,
  with one replacement character for each maximal ill-formed piece).
* **Case and space**: ASCII case folding, the Unicode `White_Space` property, `trim`.
* **Cutting**: `splitOnce`, `stripPrefix`, `contains`, the splits on a character and on white
  space.
* **Numbers**: decimal output and the integer readers of `FromStr` (an optional sign, at least
  one digit, a bound on the value).

Nothing is modelled of allocation, so texts may have any length. Characters are Unicode scalar
values, as Rust's are, and white space and case are those of the functions named beside each
definition: ASCII where these say so, Unicode where they do not.
-/

namespace BuduWaf

/-- A text: the characters of a `str`, Unicode scalar values. -/
abbrev Str := List Char

/-- A byte string, as `[u8]` and `Bytes` are. -/
abbrev Bytes := List UInt8

/-- String literals stand for their characters. -/
instance : Coe String Str := ⟨String.toList⟩

/-- Membership in a list of texts is decided by comparing them; the definitions that test it share
this proof. -/
instance lawfulBEq_str : LawfulBEq Str := inferInstance

namespace Str

/-! ## Bytes of a text -/

/-- `str::as_bytes`: the characters of a text in UTF-8. -/
def utf8 (s : Str) : Bytes := s.flatMap String.utf8EncodeChar

/-- `str::len`: the length of a text in bytes, not in characters. -/
def byteLen (s : Str) : Nat := (utf8 s).length

/-- The character that stands for an ill-formed piece. -/
def replacement : Char := Char.ofNat 0xFFFD

/-- A continuation byte whose value lies in `[lo, hi]`. -/
def contIn (lo hi : Nat) (b : UInt8) : Bool := lo ≤ b.toNat && b.toNat ≤ hi

/-- The range of the second byte of a three-byte sequence led by `b`, if `b` leads one. -/
def second3 (b : UInt8) : Option (Nat × Nat) :=
  if b.toNat = 0xE0 then some (0xA0, 0xBF)
  else if b.toNat = 0xED then some (0x80, 0x9F)
  else if 0xE1 ≤ b.toNat ∧ b.toNat ≤ 0xEF then some (0x80, 0xBF)
  else none

/-- The range of the second byte of a four-byte sequence led by `b`, if `b` leads one. -/
def second4 (b : UInt8) : Option (Nat × Nat) :=
  if b.toNat = 0xF0 then some (0x90, 0xBF)
  else if b.toNat = 0xF4 then some (0x80, 0x8F)
  else if 0xF1 ≤ b.toNat ∧ b.toNat ≤ 0xF3 then some (0x80, 0xBF)
  else none

/-- The scalar value of a two-byte sequence. -/
def scalar2 (b₀ b₁ : UInt8) : Char :=
  Char.ofNat ((b₀.toNat % 0x20) * 0x40 + b₁.toNat % 0x40)

/-- The scalar value of a three-byte sequence. -/
def scalar3 (b₀ b₁ b₂ : UInt8) : Char :=
  Char.ofNat ((b₀.toNat % 0x10) * 0x1000 + (b₁.toNat % 0x40) * 0x40 + b₂.toNat % 0x40)

/-- The scalar value of a four-byte sequence. -/
def scalar4 (b₀ b₁ b₂ b₃ : UInt8) : Char :=
  Char.ofNat ((b₀.toNat % 0x08) * 0x40000 + (b₁.toNat % 0x40) * 0x1000
    + (b₂.toNat % 0x40) * 0x40 + b₃.toNat % 0x40)

/-- One decoding step: the character of the sequence (or of the maximal ill-formed piece) at the
front, and how many further bytes it takes up. -/
def decodeOne (b₀ : UInt8) (rest : Bytes) : Char × Nat :=
  if b₀.toNat < 0x80 then (Char.ofNat b₀.toNat, 0)
  else if 0xC2 ≤ b₀.toNat ∧ b₀.toNat ≤ 0xDF then
    match rest with
    | b₁ :: _ => if contIn 0x80 0xBF b₁ then (scalar2 b₀ b₁, 1) else (replacement, 0)
    | [] => (replacement, 0)
  else
    match second3 b₀, second4 b₀ with
    | some (lo, hi), _ =>
      match rest with
      | b₁ :: rest' =>
        if contIn lo hi b₁ then
          match rest' with
          | b₂ :: _ => if contIn 0x80 0xBF b₂ then (scalar3 b₀ b₁ b₂, 2) else (replacement, 1)
          | [] => (replacement, 1)
        else (replacement, 0)
      | [] => (replacement, 0)
    | none, some (lo, hi) =>
      match rest with
      | b₁ :: rest' =>
        if contIn lo hi b₁ then
          match rest' with
          | b₂ :: rest'' =>
            if contIn 0x80 0xBF b₂ then
              match rest'' with
              | b₃ :: _ =>
                if contIn 0x80 0xBF b₃ then (scalar4 b₀ b₁ b₂ b₃, 3) else (replacement, 2)
              | [] => (replacement, 2)
            else (replacement, 1)
          | [] => (replacement, 1)
        else (replacement, 0)
      | [] => (replacement, 0)
    | none, none => (replacement, 0)

/-- `fromUtf8Lossy` with `skip` bytes of the current sequence still to pass over. -/
def lossyFrom : Nat → Bytes → Str
  | _, [] => []
  | skip + 1, _ :: rest => lossyFrom skip rest
  | 0, b :: rest => (decodeOne b rest).1 :: lossyFrom (decodeOne b rest).2 rest

/-- `String::from_utf8_lossy`: each maximal ill-formed piece becomes one replacement character. -/
def fromUtf8Lossy (b : Bytes) : Str := lossyFrom 0 b

/-! ## Case and space -/

/-- `str::to_ascii_lowercase`: other characters than ASCII letters stay as they are. -/
def toAsciiLowercase (s : Str) : Str := s.map Char.toLower

/-- `str::to_ascii_uppercase`: other characters than ASCII letters stay as they are. -/
def toAsciiUppercase (s : Str) : Str := s.map Char.toUpper

/-- `char::is_whitespace`: the Unicode `White_Space` property. -/
def isWhitespace (c : Char) : Bool :=
  (0x09 ≤ c.toNat && c.toNat ≤ 0x0D) || (0x2000 ≤ c.toNat && c.toNat ≤ 0x200A) ||
  [0x20, 0x85, 0xA0, 0x1680, 0x2028, 0x2029, 0x202F, 0x205F, 0x3000].contains c.toNat

/-- `str::trim`: without the white space at both ends. -/
def trim (s : Str) : Str := (s.dropWhile isWhitespace).rdropWhile isWhitespace

/-- `str::trim_start`: without the white space at the begin. -/
def trimStart (s : Str) : Str := s.dropWhile isWhitespace

/-- `str::trim_matches` for one character. -/
def trimMatches (c : Char) (s : Str) : Str := (s.dropWhile (· == c)).rdropWhile (· == c)

/-- The pieces of a text between white space, the current piece held in reverse. -/
def splitWhitespaceFrom : Str → Str → List Str
  | [], [] => []
  | cur, [] => [cur.reverse]
  | cur, c :: rest =>
    if isWhitespace c then
      if cur.isEmpty then splitWhitespaceFrom [] rest
      else cur.reverse :: splitWhitespaceFrom [] rest
    else splitWhitespaceFrom (c :: cur) rest

/-- `str::split_whitespace`: the words between runs of white space, none of them empty. -/
def splitWhitespace (s : Str) : List Str := splitWhitespaceFrom [] s

/-- `slice::join`: the texts with a separator between each two. -/
def join (sep : Str) (parts : List Str) : Str := List.intercalate sep parts

/-! ## Cutting -/

/-- `str::split_once` on a character: what stands before and behind its first place. -/
def splitOnce (c : Char) (s : Str) : Option (Str × Str) :=
  match s.span (· != c) with
  | (a, _ :: b) => some (a, b)
  | (_, []) => none

/-- The lines of a text, the current one held in reverse. -/
def linesFrom : Str → Str → List Str
  | [], [] => []
  | cur, [] => [cur.reverse]
  | cur, c :: rest =>
    if c = '\n' then
      (match cur with
        | '\r' :: line => line.reverse
        | line => line.reverse) :: linesFrom [] rest
    else linesFrom (c :: cur) rest

/-- `str::lines`: cut at line feeds, with a carriage return before one dropped and no empty line at
the end. -/
def lines (s : Str) : List Str := linesFrom [] s

/-- `str::strip_prefix`, on texts and on byte strings. -/
def stripPrefix {α : Type} [BEq α] : List α → List α → Option (List α)
  | [], s => some s
  | _ :: _, [] => none
  | p :: ps, c :: cs => if p == c then stripPrefix ps cs else none

/-- `slice::strip_suffix`: without a suffix, if the text ends with it. -/
def stripSuffix {α : Type} [BEq α] (p s : List α) : Option (List α) :=
  (stripPrefix p.reverse s.reverse).map List.reverse

/-- `str::contains`, on texts and on byte strings. -/
def contains {α : Type} [BEq α] (needle : List α) : List α → Bool
  | [] => needle.isEmpty
  | c :: cs => needle.isPrefixOf (c :: cs) || contains needle cs

/-- The pieces between the leftmost non-overlapping occurrences of a needle, the current piece
held in reverse and `skip` elements of an occurrence still to pass over. -/
def splitSubFrom {α : Type} [BEq α] (needle : List α) : Nat → List α → List α → List (List α)
  | _, cur, [] => [cur.reverse]
  | skip + 1, cur, _ :: rest => splitSubFrom needle skip cur rest
  | 0, cur, c :: rest =>
    if needle.isPrefixOf (c :: rest) then
      cur.reverse :: splitSubFrom needle (needle.length - 1) [] rest
    else splitSubFrom needle 0 (c :: cur) rest

/-- `str::split` on a non-empty text, cut at each place where it stands, from the left. -/
def splitSub {α : Type} [BEq α] (needle hay : List α) : List (List α) :=
  splitSubFrom needle 0 [] hay

/-! ## Numbers -/

/-- The decimal form of a natural number. -/
def ofNat (n : Nat) : Str := Nat.toDigits 10 n

/-- The value of a non-empty run of decimal digits. -/
def parseDigits (s : Str) : Option Nat :=
  if s.isEmpty then none
  else s.foldl (fun acc c => acc.bind fun n =>
    if c.isDigit then some (10 * n + (c.toNat - '0'.toNat)) else none) (some 0)

/-- `FromStr` of an unsigned integer type with `bits` bits: an optional `+`, then digits, and the
value has to fit. -/
def parseUInt (bits : Nat) (s : Str) : Option Nat :=
  let digits := match s with
    | '+' :: rest => rest
    | _ => s
  (parseDigits digits).filter (· < 2 ^ bits)

/-- `FromStr` of a signed integer type with `bits` bits. -/
def parseInt (bits : Nat) (s : Str) : Option Int :=
  match s with
  | '-' :: rest =>
    (parseDigits rest).bind fun n => if n ≤ 2 ^ (bits - 1) then some (-(n : Int)) else none
  | '+' :: rest =>
    (parseDigits rest).bind fun n => if n < 2 ^ (bits - 1) then some (n : Int) else none
  | _ => (parseDigits s).bind fun n => if n < 2 ^ (bits - 1) then some (n : Int) else none

end Str

end BuduWaf
