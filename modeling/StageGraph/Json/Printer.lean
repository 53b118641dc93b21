/-
# `StageGraph.Json.Printer` — values as text

The compact form: no blanks, fields in the order of the value, and in strings
only the quotation mark, the backslash and control characters escaped.
-/
import StageGraph.Json.Fault

namespace StageGraph.Json

/-- A hexadecimal digit, lower case. -/
def hexDigit (n : Nat) : Char := Char.ofNat (if n < 10 then 48 + n else 87 + n)

/-- One character inside a string. -/
def escapeChar (c : Char) : List Char :=
  if c = '"' then ['\\', '"']
  else if c = '\\' then ['\\', '\\']
  else if 0x20 ≤ c.toNat then [c]
  else if c.toNat = 8 then ['\\', 'b']
  else if c.toNat = 9 then ['\\', 't']
  else if c.toNat = 10 then ['\\', 'n']
  else if c.toNat = 12 then ['\\', 'f']
  else if c.toNat = 13 then ['\\', 'r']
  else ['\\', 'u', '0', '0', hexDigit (c.toNat / 16), hexDigit (c.toNat % 16)]

/-- A string between quotation marks. -/
def printString (s : String) : List Char := '"' :: s.toList.flatMap escapeChar ++ ['"']

/-- Pieces of text with commas between them. -/
def joined : List (List Char) → List Char
  | [] => []
  | [x] => x
  | x :: y :: rest => x ++ ',' :: joined (y :: rest)

/-- The text of an integer. -/
def printInt : Int → List Char
  | .ofNat n => Nat.toDigits 10 n
  | .negSucc n => '-' :: Nat.toDigits 10 (n + 1)

/-- The text of a number with a point; one that is not finite has no text and is written as
null. -/
def printFloat (x : Binary64) : List Char :=
  if x.isFinite then (numberNotation.render x).toList else "null".toList

mutual

/-- The text of a value. -/
def print : Value → List Char
  | .null => "null".toList
  | .bool true => "true".toList
  | .bool false => "false".toList
  | .int n => printInt n
  | .float x => printFloat x
  | .string s => printString s
  | .array items => '[' :: joined (printItems items) ++ [']']
  | .object fields => '\x7b' :: joined (printFields fields) ++ ['\x7d']

/-- The texts of the items of an array. -/
def printItems : List Value → List (List Char)
  | [] => []
  | v :: rest => print v :: printItems rest

/-- The texts of the fields of an object. -/
def printFields : List (String × Value) → List (List Char)
  | [] => []
  | (name, v) :: rest => (printString name ++ ':' :: print v) :: printFields rest

end

/-- The text of a value as a string. -/
def Value.compact (v : Value) : String := String.ofList (print v)

/-- The bytes of a value's text. -/
def Value.encode (v : Value) : Bytes := Utf8.encode (print v)

end StageGraph.Json
