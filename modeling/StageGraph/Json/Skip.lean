/-
# `StageGraph.Json.Skip` — values that nobody asked for

The value of an unknown field is read past without being kept.  Its form is
checked, but less is demanded of it than of a value that is kept: numbers may
be of any size, strings may hold any bytes and halves of pairs, and nesting may
be of any depth.  The open brackets are therefore a list, not a recursion.
-/
import StageGraph.Json.Token

namespace StageGraph.Json

/-- Skips a string after its opening mark. -/
def skipString : Bytes → Except Stop Bytes
  | [] => stop .endOfString []
  | b :: rest =>
    if b = byte '"' then .ok rest
    else if b < 0x20 then stop .controlCharacter (b :: rest)
    else if b ≠ byte '\\' then skipString rest
    else
      match rest with
      | [] => stop .endOfString []
      | e :: rest =>
        if e ≠ byte 'u' then
          if (shortEscape? e).isSome then skipString rest else stop .invalidEscape rest
        else
          match rest with
          | p :: q :: r :: s :: rest =>
            if (hex4? p q r s).isSome then skipString rest else stop .invalidEscape rest
          | _ => stop .endOfString []

/-- Skips an exponent, if one follows. -/
def skipExponent (s : Bytes) : Except Stop Bytes :=
  let digits (s : Bytes) : Except Stop Bytes :=
    match takeDigits s with
    | ([], _) => stopAtNext .invalidNumber s
    | (_, rest) => .ok rest
  match s with
  | b :: rest =>
    if b = byte 'e' ∨ b = byte 'E' then
      match rest with
      | c :: after => if c = byte '+' ∨ c = byte '-' then digits after else digits rest
      | [] => digits rest
    else .ok s
  | [] => .ok s

/-- Skips a fraction and an exponent, as far as they follow. -/
def skipNumberTail (s : Bytes) : Except Stop Bytes :=
  match s with
  | b :: rest =>
    if b = byte '.' then
      match takeDigits rest with
      | ([], _) => stopAtNext .invalidNumber rest
      | (_, rest) => skipExponent rest
    else skipExponent s
  | [] => .ok s

/-- Skips a number after its sign. -/
def skipUnsigned (s : Bytes) : Except Stop Bytes :=
  match s with
  | b :: rest =>
    if b = byte '0' then
      match rest with
      | c :: after => if isDigit c then stop .invalidNumber after else skipNumberTail rest
      | [] => skipNumberTail rest
    else
      match takeDigits s with
      | ([], _) => stop .invalidNumber rest
      | (_, rest) => skipNumberTail rest
  | [] => stop .invalidNumber []

/-- An open bracket. -/
inductive Bracket where
  | square
  | curly
deriving DecidableEq, Repr

/-- The byte that closes a bracket. -/
def Bracket.close : Bracket → UInt8
  | .square => byte ']'
  | .curly => byte '\x7d'

/-- What is missing when the text ends inside a bracket. -/
def Bracket.unfinished : Bracket → Fault
  | .square => .endOfList
  | .curly => .endOfObject

/-- What is missing after a part inside a bracket. -/
def Bracket.unseparated : Bracket → Fault
  | .square => .expectedCommaOrBracket
  | .curly => .expectedCommaOrBrace

/-- After a finished value: closes brackets and stops after a comma, with the brackets still
open.  None are left when everything is finished. -/
def skipClosing : List Bracket → Bytes → Except Stop (List Bracket × Bytes)
  | [], s => .ok ([], s)
  | open_ :: outer, s =>
    match skipBlanks s with
    | [] => stop open_.unfinished []
    | b :: rest =>
      if b = byte ',' then .ok (open_ :: outer, rest)
      else if b = open_.close then skipClosing outer rest
      else stop open_.unseparated rest

/-- Before a part inside a bracket: skips the name of a field. -/
def skipName : Bracket → Bytes → Except Stop Bytes
  | .square, s => .ok s
  | .curly, s =>
    match skipBlanks s with
    | [] => stop .endOfObject []
    | b :: rest =>
      if b ≠ byte '"' then stop .keyNotString rest
      else do
        let rest ← skipString rest
        match skipBlanks rest with
        | [] => stop .endOfObject []
        | c :: rest => if c = byte ':' then .ok rest else stop .expectedColon rest

/-- Skips a value that is no array and no object, whose first byte is `b`. -/
def skipScalar (b : UInt8) (rest : Bytes) : Except Stop Bytes :=
  if b = byte 'n' then readWord ("ull".toList.map byte) rest
  else if b = byte 't' then readWord ("rue".toList.map byte) rest
  else if b = byte 'f' then readWord ("alse".toList.map byte) rest
  else if b = byte '-' then skipUnsigned rest
  else if isDigit b then skipUnsigned (b :: rest)
  else if b = byte '"' then skipString rest
  else stop .expectedValue rest

/-- Skips a value and all that is needed to close the brackets open around it.  Every round takes
at least one byte, so as many rounds as bytes are enough. -/
def skipParts : Nat → List Bracket → Bytes → Except Stop Bytes
  | 0, _, s => stop .endOfValue s
  | fuel + 1, brackets, s =>
    let next (p : List Bracket × Bytes) : Except Stop Bytes :=
      match p.1 with
      | [] => .ok p.2
      | b :: _ => do
        let rest ← skipName b p.2
        skipParts fuel p.1 rest
    let opened (b : Bracket) (rest : Bytes) : Except Stop Bytes :=
      match skipBlanks rest with
      | [] => stop b.unfinished []
      | c :: after =>
        if c = b.close then skipClosing brackets after >>= next
        else next (b :: brackets, c :: after)
    match skipBlanks s with
    | [] => stop .endOfValue []
    | b :: rest =>
      if b = byte '[' then opened .square rest
      else if b = byte '\x7b' then opened .curly rest
      else do
        let rest ← skipScalar b rest
        skipClosing brackets rest >>= next

/-- Skips one value. -/
def skipValue (s : Bytes) : Except Stop Bytes := skipParts (s.length + 1) [] s

end StageGraph.Json
