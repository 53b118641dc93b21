/-
# `StageGraph.Json.Token` — blanks, words, strings and numbers

The smallest parts of a document.  A reader takes bytes and gives what it read
together with the bytes that follow; the first fault from the left is the one
reported, with the bytes that were left when it was met.
-/
import StageGraph.Json.Fault

namespace StageGraph.Json

/-- A reading that cannot go on: why, and which bytes follow the place of the fault.  A `loose`
fault belongs to the bracket around it, and its place is only known when that bracket has been
left. -/
structure Stop where
  fault : Fault
  rest : Bytes
  loose : Bool
deriving DecidableEq, Repr

/-- Reads something at the start of some bytes and gives what follows. -/
abbrev Reader (α : Type) := Bytes → Except Stop (α × Bytes)

/-- Stops at a fault that was met when all but `rest` had been taken. -/
def stop {α : Type} (f : Fault) (rest : Bytes) : Except Stop α := .error ⟨f, rest, false⟩

/-- Stops at the next byte, whose place counts as taken; at the end of the text there is none. -/
def stopAtNext {α : Type} (f : Fault) (s : Bytes) : Except Stop α := stop f (s.drop 1)

/-- Stops at a fault of the bracket around what comes next. -/
def stopLoose {α : Type} (f : Fault) (s : Bytes) : Except Stop α := .error ⟨f, s, true⟩

/-- The byte of an ASCII character. -/
def byte (c : Char) : UInt8 := UInt8.ofNat c.toNat

/-- Whether a byte may stand between tokens. -/
def isBlank (b : UInt8) : Bool := b == 32 || b == 10 || b == 9 || b == 13

/-- The bytes from the next token on. -/
def skipBlanks : Bytes → Bytes
  | [] => []
  | b :: rest => if isBlank b then skipBlanks rest else b :: rest

/-- Whether a byte is a decimal digit. -/
def isDigit (b : UInt8) : Bool := 48 ≤ b && b ≤ 57

/-- Reads the letters of a word. -/
def readWord : List UInt8 → Bytes → Except Stop Bytes
  | [], s => .ok s
  | _ :: _, [] => stop .endOfValue []
  | w :: ws, b :: s => if b = w then readWord ws s else stop .expectedIdent s

/-! ## Strings -/

/-- The value of a hexadecimal digit of either case. -/
def hexValue? (b : UInt8) : Option Nat :=
  let n := b.toNat
  if 48 ≤ n ∧ n ≤ 57 then some (n - 48)
  else if 97 ≤ n ∧ n ≤ 102 then some (n - 87)
  else if 65 ≤ n ∧ n ≤ 70 then some (n - 55)
  else none

/-- The number of four hexadecimal digits. -/
def hex4? (a b c d : UInt8) : Option Nat := do
  some (((((← hexValue? a) * 16) + (← hexValue? b)) * 16 + (← hexValue? c)) * 16 + (← hexValue? d))

/-- The byte that a one-letter escape stands for. -/
def shortEscape? (b : UInt8) : Option UInt8 :=
  if b = byte '"' ∨ b = byte '\\' ∨ b = byte '/' then some b
  else if b = byte 'b' then some 8
  else if b = byte 'f' then some 12
  else if b = byte 'n' then some 10
  else if b = byte 'r' then some 13
  else if b = byte 't' then some 9
  else none

/-- Whether a number is the first, or the second, half of a pair of escapes. -/
def isLeading (n : Nat) : Bool := 0xD800 ≤ n && n ≤ 0xDBFF

@[inherit_doc isLeading]
def isTrailing (n : Nat) : Bool := 0xDC00 ≤ n && n ≤ 0xDFFF

/-- The character of a pair of escapes. -/
def joinPair (hi lo : Nat) : Char := Char.ofNat ((hi - 0xD800) * 0x400 + (lo - 0xDC00) + 0x10000)

/-- Adds the bytes of a character to bytes kept latest first. -/
def push (c : Char) (acc : Bytes) : Bytes := (Utf8.encodeChar c).reverse ++ acc

/-- Reads a string after its opening mark, collecting its bytes latest first. -/
def readStringBytes : Bytes → Bytes → Except Stop (Bytes × Bytes)
  | _, [] => stop .endOfString []
  | acc, b :: rest =>
    if b = byte '"' then .ok (acc.reverse, rest)
    else if b < 0x20 then stop .controlCharacter rest
    else if b ≠ byte '\\' then readStringBytes (b :: acc) rest
    else
      match rest with
      | [] => stop .endOfString []
      | e :: rest =>
        if e ≠ byte 'u' then
          match shortEscape? e with
          | some x => readStringBytes (x :: acc) rest
          | none => stop .invalidEscape rest
        else
          match rest with
          | p :: q :: r :: s :: rest =>
            match hex4? p q r s with
            | none => stop .invalidEscape rest
            | some n =>
              if isTrailing n then stop .loneSurrogate rest
              else if !isLeading n then readStringBytes (push (Char.ofNat n) acc) rest
              else
                match rest with
                | [] => stop .endOfString []
                | [x] => if x = byte '\\' then stop .endOfString [] else stop .endOfHexEscape []
                | x :: y :: rest =>
                  if x ≠ byte '\\' then stop .endOfHexEscape (y :: rest)
                  else if y ≠ byte 'u' then stop .endOfHexEscape rest
                  else
                    match rest with
                    | p :: q :: r :: s :: rest =>
                      match hex4? p q r s with
                      | none => stop .invalidEscape rest
                      | some m =>
                        if isTrailing m then readStringBytes (push (joinPair n m) acc) rest
                        else stop .loneSurrogate rest
                    | _ => stop .endOfString []
          | _ => stop .endOfString []

/-- Reads a string after its opening mark. -/
def readString : Reader String := fun s => do
  let (bytes, rest) ← readStringBytes [] s
  match Utf8.toString? bytes with
  | some text => .ok (text, rest)
  | none => stop .invalidCodePoint rest

/-! ## Numbers

The digits of a number, point left aside, are collected while they fit 64 bits;
what follows only moves the point.
-/

/-- A number, by the form that it is kept in. -/
inductive Number where
  | int (n : Int)
  | float (x : Binary64)
deriving DecidableEq, Repr

/-- The digits at the start, and what follows them. -/
def takeDigits : Bytes → List Nat × Bytes
  | [] => ([], [])
  | b :: rest =>
    if isDigit b then
      let (ds, rest) := takeDigits rest
      ((b.toNat - 48) :: ds, rest)
    else ([], b :: rest)

/-- Appends digits to a significand as long as it fits 64 bits; gives it and how many were
used. -/
def accumulate (n : Nat) : List Nat → Nat × Nat
  | [] => (n, 0)
  | d :: ds =>
    if n * 10 + d < Nat.pow 2 64 then
      let (m, k) := accumulate (n * 10 + d) ds
      (m, k + 1)
    else (n, 0)

/-- The floating point number of a significand and an exponent, before `rest`. -/
def decimalNumber (negative : Bool) (n : Nat) (e : Int) (rest : Bytes) :
    Except Stop (Number × Bytes) :=
  match Binary64.ofDecimal? negative n e with
  | some x => .ok (.float x, rest)
  | none => stop .numberOutOfRange rest

/-- The value of digits. -/
def digitsValue (ds : List Nat) : Nat := ds.foldl (fun n d => n * 10 + d) 0

/-- With how many of its digits, after those of `n`, an exponent leaves 32 bits, if it does. -/
def digitsTooFar? (n : Nat) : List Nat → Option Nat
  | [] => none
  | d :: ds =>
    if Nat.pow 2 31 ≤ n * 10 + d then some 1 else (digitsTooFar? (n * 10 + d) ds).map (· + 1)

/-- Reads an exponent after its mark, for a significand `n` with the point moved by `e`.  An
exponent past 32 bits decides alone: too large, or a zero. -/
def readExponent (negative : Bool) (n : Nat) (e : Int) (s : Bytes) :
    Except Stop (Number × Bytes) :=
  let (down, s) := match s with
    | b :: rest => if b = byte '-' then (true, rest) else if b = byte '+' then (false, rest)
      else (false, s)
    | [] => (false, s)
  match takeDigits s with
  | ([], []) => stop .endOfValue []
  | ([], _ :: rest) => stop .invalidNumber rest
  | (ds, rest) =>
    match digitsTooFar? 0 ds with
    | some taken =>
      if n ≠ 0 ∧ !down then stop .numberOutOfRange (s.drop taken)
      else .ok (.float (Binary64.signed negative 0), rest)
    | none =>
      let k := digitsValue ds
      decimalNumber negative n (if down then e - k else e + k) rest

/-- Reads what follows the integer digits: a fraction, an exponent, or nothing.  Of the integer
digits `dropped` did not fit. -/
def readNumberTail (negative : Bool) (n dropped : Nat) (s : Bytes) :
    Except Stop (Number × Bytes) :=
  let isMark (b : UInt8) : Bool := b == byte 'e' || b == byte 'E'
  let plain : Except Stop (Number × Bytes) :=
    if dropped ≠ 0 then decimalNumber negative n dropped s
    else if !negative then .ok (.int n, s)
    else if n = 0 ∨ Nat.pow 2 63 < n then .ok (.float (Binary64.ofNat n).negate, s)
    else .ok (.int (-(n : Int)), s)
  match s with
  | b :: rest =>
    if b = byte '.' then
      match takeDigits rest with
      | ([], []) => stop .endOfValue []
      | ([], rest) => stopAtNext .invalidNumber rest
      | (ds, rest) =>
        let (m, used) := accumulate n ds
        let e : Int := (dropped : Int) - used
        match rest with
        | b :: after =>
          if isMark b then readExponent negative m e after
          else decimalNumber negative m e rest
        | [] => decimalNumber negative m e rest
    else if isMark b then readExponent negative n dropped rest
    else plain
  | [] => plain

/-- Reads a number after its sign. -/
def readUnsigned (negative : Bool) (s : Bytes) : Except Stop (Number × Bytes) :=
  match s with
  | [] => stop .endOfValue []
  | b :: rest =>
    if b = byte '0' then
      match rest with
      | c :: after =>
        if isDigit c then stop .invalidNumber after else readNumberTail negative 0 0 rest
      | [] => readNumberTail negative 0 0 rest
    else if isDigit b then
      let (ds, rest) := takeDigits s
      let (n, used) := accumulate 0 ds
      readNumberTail negative n (ds.length - used) rest
    else stop .invalidNumber rest

/-- Reads a number. -/
def readNumber (s : Bytes) : Except Stop (Number × Bytes) :=
  match s with
  | b :: rest => if b = byte '-' then readUnsigned true rest else readUnsigned false s
  | [] => stop .endOfValue []

/-- A number as a value. -/
def Number.toValue : Number → Value
  | .int n => .int n
  | .float x => .float x

end StageGraph.Json
