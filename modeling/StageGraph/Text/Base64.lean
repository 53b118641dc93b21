/-
# `StageGraph.Text.Base64` — bytes inside a JSON string

Payloads of blobs travel as base64: the standard alphabet, padding required, no
blanks, unused bits zero.  `encode` writes the one form that `decode` accepts.

What makes a text unreadable is reported with the first reason met from left to
right, except that a text one symbol longer than whole groups is blamed on that
last symbol when it is no symbol at all.
-/
import StageGraph.Text.Utf8

namespace StageGraph.Base64

/-- Why a text is no base64. -/
inductive Fault where
  /-- A byte outside the alphabet, or a padding sign out of place. -/
  | symbol (byte : UInt8) (offset : Nat)
  /-- A last group of one symbol. -/
  | length (count : Nat)
  /-- A last symbol that carries bits beyond the last byte. -/
  | lastSymbol (byte : UInt8) (offset : Nat)
  /-- A last group that is not filled up to four. -/
  | padding
deriving DecidableEq, Repr

/-- The wording of a fault. -/
def Fault.message : Fault → String
  | .symbol b i => s!"Invalid symbol {b.toNat}, offset {i}."
  | .length n => s!"Invalid input length: {n}"
  | .lastSymbol b i => s!"Invalid last symbol {b.toNat}, offset {i}."
  | .padding => "Invalid padding"

/-- The padding sign. -/
def pad : UInt8 := 61

/-- The symbol of six bits. -/
def symbol (n : Nat) : Char :=
  if n < 26 then Char.ofNat (65 + n)
  else if n < 52 then Char.ofNat (97 + (n - 26))
  else if n < 62 then Char.ofNat (48 + (n - 52))
  else if n = 62 then '+' else '/'

/-- The six bits of a symbol. -/
def sextet? (b : UInt8) : Option Nat :=
  let n := b.toNat
  if 65 ≤ n ∧ n ≤ 90 then some (n - 65)
  else if 97 ≤ n ∧ n ≤ 122 then some (n - 97 + 26)
  else if 48 ≤ n ∧ n ≤ 57 then some (n - 48 + 52)
  else if n = 43 then some 62
  else if n = 47 then some 63
  else none

/-- Groups of three bytes as four symbols; the last group is padded to four. -/
def encode : Bytes → List Char
  | a :: b :: c :: rest =>
    let n := (a.toNat * 256 + b.toNat) * 256 + c.toNat
    symbol (n / 262144) :: symbol (n / 4096 % 64) :: symbol (n / 64 % 64) :: symbol (n % 64)
      :: encode rest
  | [a, b] =>
    let n := (a.toNat * 256 + b.toNat) * 4
    [symbol (n / 4096), symbol (n / 64 % 64), symbol (n % 64), '=']
  | [a] =>
    let n := a.toNat * 16
    [symbol (n / 64), symbol (n % 64), '=', '=']
  | [] => []

/-- The six bits of a symbol, or the fault at its place. -/
def sextet (offset : Nat) (b : UInt8) : Except Fault Nat :=
  match sextet? b with
  | some n => .ok n
  | none => .error (.symbol b offset)

/-- What has been read of the last group. -/
structure Group where
  /-- The symbols so far, latest first. -/
  symbols : List Nat := []
  /-- The byte of the latest symbol. -/
  latest : UInt8 := 0
  /-- How many padding signs followed, and where the first one stood. -/
  pads : Nat := 0
  firstPad : Nat := 0

/-- Reads the last group, whose first symbol stands at `start`; `i` counts within it. -/
def readGroup (start : Nat) : Nat → Group → Bytes → Except Fault Group
  | _, g, [] => .ok g
  | i, g, b :: rest =>
    if b = pad then
      if i < 2 then .error (.symbol b (start + i))
      else readGroup start (i + 1)
        { g with pads := g.pads + 1, firstPad := if g.pads = 0 then i else g.firstPad } rest
    else if 0 < g.pads then .error (.symbol pad (start + g.firstPad))
    else do
      let n ← sextet (start + i) b
      readGroup start (i + 1) { g with symbols := n :: g.symbols, latest := b } rest

/-- The bytes of a last group, once it is known to be full and to carry no stray bits. -/
def Group.bytes (start : Nat) (g : Group) : Except Fault Bytes :=
  if g.symbols.length < 2 then .error (.length (start + g.symbols.length))
  else if (g.symbols.length + g.pads) % 4 ≠ 0 then .error .padding
  else
    match g.symbols with
    | [y, x] =>
      if y % 16 ≠ 0 then .error (.lastSymbol g.latest (start + 1))
      else .ok [UInt8.ofNat ((x * 64 + y) / 16)]
    | [z, y, x] =>
      if z % 4 ≠ 0 then .error (.lastSymbol g.latest (start + 2))
      else
        let n := ((x * 64 + y) * 64 + z) / 4
        .ok [UInt8.ofNat (n / 256), UInt8.ofNat n]
    | [w, z, y, x] =>
      let n := ((x * 64 + y) * 64 + z) * 64 + w
      .ok [UInt8.ofNat (n / 65536), UInt8.ofNat (n / 256), UInt8.ofNat n]
    | _ => .error .padding

/-- Reads groups of four symbols as long as more follows, then the last group. -/
def decodeFrom (start : Nat) : Bytes → Except Fault Bytes
  | [] => .ok []
  | a :: b :: c :: d :: e :: rest => do
    let x ← sextet start a
    let y ← sextet (start + 1) b
    let z ← sextet (start + 2) c
    let w ← sextet (start + 3) d
    let n := ((x * 64 + y) * 64 + z) * 64 + w
    let more ← decodeFrom (start + 4) (e :: rest)
    .ok (UInt8.ofNat (n / 65536) :: UInt8.ofNat (n / 256) :: UInt8.ofNat n :: more)
  | last => do
    let g ← readGroup start 0 {} last
    g.bytes start

/-- The bytes that a text stands for. -/
def decode (text : Bytes) : Except Fault Bytes :=
  match text.getLast? with
  | some b =>
    if text.length % 4 = 1 ∧ b ≠ pad ∧ (sextet? b).isNone then
      .error (.symbol b (text.length - 1))
    else decodeFrom 0 text
  | none => .ok []

end StageGraph.Base64
