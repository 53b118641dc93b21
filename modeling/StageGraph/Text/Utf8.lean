/-
# `StageGraph.Text.Utf8` — characters as bytes

Every document of the library travels as bytes, and every string in a document
is UTF-8.  This module holds the two directions: `encode` writes the bytes of a
list of characters, `decode?` reads them back and refuses everything that no
list of characters is written as (a stray continuation byte, a form longer than
needed, a surrogate, a number past the last character, a form cut short).
-/

namespace StageGraph

/-- A sequence of bytes: a document, or the payload of a blob. -/
abbrev Bytes := List UInt8

namespace Utf8

/-- The bytes of one character: one to four of them, by its number. -/
def encodeChar (c : Char) : Bytes :=
  let n := c.toNat
  let tail (m : Nat) : UInt8 := UInt8.ofNat (0x80 + m % 64)
  if n < 0x80 then [UInt8.ofNat n]
  else if n < 0x800 then [UInt8.ofNat (0xC0 + n / 64), tail n]
  else if n < 0x10000 then [UInt8.ofNat (0xE0 + n / 4096), tail (n / 64), tail n]
  else [UInt8.ofNat (0xF0 + n / 262144), tail (n / 4096), tail (n / 64), tail n]

/-- The bytes of a list of characters. -/
def encode (cs : List Char) : Bytes := cs.flatMap encodeChar

/-- The bytes of a string. -/
def ofString (s : String) : Bytes := encode s.toList

/-- The six bits that a continuation byte carries. -/
def tail? (b : UInt8) : Option Nat :=
  if 0x80 ≤ b.toNat ∧ b.toNat < 0xC0 then some (b.toNat - 0x80) else none

/-- The character with number `n`, if it needs a form of this length (`least ≤ n`)
and the number names a character at all. -/
def scalar? (least n : Nat) : Option Char :=
  if least ≤ n ∧ n.isValidChar then some (Char.ofNat n) else none

/-- The character of a two-byte form. -/
def two? (a b : UInt8) : Option Char := do
  scalar? 0x80 ((a.toNat - 0xC0) * 64 + (← tail? b))

/-- The character of a three-byte form. -/
def three? (a b c : UInt8) : Option Char := do
  scalar? 0x800 (((a.toNat - 0xE0) * 64 + (← tail? b)) * 64 + (← tail? c))

/-- The character of a four-byte form. -/
def four? (a b c d : UInt8) : Option Char := do
  scalar? 0x10000 ((((a.toNat - 0xF0) * 64 + (← tail? b)) * 64 + (← tail? c)) * 64 + (← tail? d))

/-- The characters that a sequence of bytes encodes, if it encodes any. -/
def decode? : Bytes → Option (List Char)
  | [] => some []
  | a :: rest =>
    if a.toNat < 0x80 then (decode? rest).map (Char.ofNat a.toNat :: ·)
    else if a.toNat < 0xC0 then none
    else if a.toNat < 0xE0 then
      match rest with
      | b :: rest => (two? a b).bind fun ch => (decode? rest).map (ch :: ·)
      | _ => none
    else if a.toNat < 0xF0 then
      match rest with
      | b :: c :: rest => (three? a b c).bind fun ch => (decode? rest).map (ch :: ·)
      | _ => none
    else if a.toNat < 0xF8 then
      match rest with
      | b :: c :: d :: rest => (four? a b c d).bind fun ch => (decode? rest).map (ch :: ·)
      | _ => none
    else none

/-- The string that a sequence of bytes encodes, if it encodes one. -/
def toString? (bytes : Bytes) : Option String := (decode? bytes).map String.ofList

end Utf8

end StageGraph
