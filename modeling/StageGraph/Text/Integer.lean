/-
# `StageGraph.Text.Integer` — decimal integers within bounds

Reads an optional sign and decimal digits.  A digit that cannot be one is
reported before the size is looked at, and digits are taken from the left, so
the first reason met is the one given.
-/

namespace StageGraph.Integer

/-- Why a text is no integer within bounds. -/
inductive Fault where
  | empty
  | invalidDigit
  | tooLarge
  | tooSmall
deriving DecidableEq, Repr

/-- The wording of a fault. -/
def Fault.message : Fault → String
  | .empty => "cannot parse integer from empty string"
  | .invalidDigit => "invalid digit found in string"
  | .tooLarge => "number too large to fit in target type"
  | .tooSmall => "number too small to fit in target type"

/-- The value of a decimal digit. -/
def digit? (c : Char) : Option Nat :=
  if 48 ≤ c.toNat ∧ c.toNat ≤ 57 then some (c.toNat - 48) else none

/-- Appends digits to a number read so far, which must not pass `limit`. -/
def readDigits (limit : Nat) (tooFar : Fault) : Nat → List Char → Except Fault Nat
  | n, [] => .ok n
  | n, c :: rest =>
    match digit? c with
    | none => .error .invalidDigit
    | some d =>
      if limit < n * 10 + d then .error tooFar else readDigits limit tooFar (n * 10 + d) rest

/-- Reads an integer from `-below` to `above`. -/
def readBetween (below above : Nat) : List Char → Except Fault Int
  | [] => .error .empty
  | ['+'] => .error .invalidDigit
  | ['-'] => .error .invalidDigit
  | '+' :: rest => (readDigits above .tooLarge 0 rest).map Int.ofNat
  | '-' :: rest => (readDigits below .tooSmall 0 rest).map fun n => -(n : Int)
  | cs => (readDigits above .tooLarge 0 cs).map Int.ofNat

/-- Reads a signed integer of 64 bits. -/
def readSigned64 (cs : List Char) : Except Fault Int := readBetween (Nat.pow 2 63) (Nat.pow 2 63 - 1) cs

/-- Reads an index: a plus sign is allowed, a minus sign is not, and the number has at most 64
bits. -/
def readIndex? : List Char → Option Nat
  | [] => none
  | ['+'] => none
  | '+' :: rest => (readDigits (Nat.pow 2 64 - 1) .tooLarge 0 rest).toOption
  | cs => (readDigits (Nat.pow 2 64 - 1) .tooLarge 0 cs).toOption

end StageGraph.Integer
