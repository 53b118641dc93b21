/-
# `StageGraph.Number.Binary64` — floating point numbers as exact data

Numbers with a point in a document are binary floating point numbers of 64
bits.  They are kept as their bits, so two of them are equal exactly when they
are the same datum, and all arithmetic is done on natural numbers: an operation
takes the exact quotient of its operands and rounds it once, to the nearest
representable number, a tie going to the even one.

Powers are written with `Nat.pow`: what `^` stands for depends on which other
powers are in scope.
-/

namespace StageGraph

/-- A floating point number of 64 bits. -/
structure Binary64 where
  /-- Sign, eleven bits of exponent, 52 bits of fraction. -/
  bits : UInt64
deriving DecidableEq, Repr

namespace Binary64

/-- The number of the largest finite magnitude's successor: the bits of infinity. -/
def infinityBits : Nat := 2047 * Nat.pow 2 52

/-- Puts a sign on a magnitude given by its bits. -/
def signed (negative : Bool) (magnitude : Nat) : Binary64 :=
  ⟨UInt64.ofNat (if negative then Nat.pow 2 63 + magnitude else magnitude)⟩

/-- Whether the sign bit is set. -/
def isNegative (x : Binary64) : Bool := Nat.pow 2 63 ≤ x.bits.toNat

/-- The bits without the sign. -/
def magnitudeBits (x : Binary64) : Nat := x.bits.toNat % Nat.pow 2 63

/-- The same number with the other sign. -/
def negate (x : Binary64) : Binary64 := signed (!x.isNegative) x.magnitudeBits

/-- Whether the number is neither infinite nor undefined. -/
def isFinite (x : Binary64) : Bool := x.magnitudeBits < infinityBits

/-- Whether the number is a zero of either sign. -/
def isZero (x : Binary64) : Bool := x.magnitudeBits == 0

/-- The magnitude as `m * 2 ^ q`, given as `m` and `q + 1074`. -/
def parts (x : Binary64) : Nat × Nat :=
  let e := x.magnitudeBits / Nat.pow 2 52
  let f := x.magnitudeBits % Nat.pow 2 52
  if e = 0 then (f, 0) else (Nat.pow 2 52 + f, e - 1)

/-- The magnitude as an exact quotient. -/
def ratio (x : Binary64) : Nat × Nat :=
  let (m, q) := x.parts
  (m * Nat.pow 2 q, Nat.pow 2 1074)

/-- The quotient rounded to the nearest natural number, a tie to the even one. -/
def roundHalfEven (num den : Nat) : Nat :=
  let n := num / den
  let r := num % den
  if 2 * r < den then n
  else if den < 2 * r then n + 1
  else if n % 2 = 0 then n else n + 1

/-- The largest `k` with `2 ^ k ≤ num / den`, shifted up by 1074 and cut off at zero. -/
def exponentOf (num den : Nat) : Nat :=
  let k := Nat.log2 (num * Nat.pow 2 1074 / den)
  if num * Nat.pow 2 1074 < den then 0 else k

/-- The bits of the magnitude nearest to `num / den`: of all numbers `m * 2 ^ q` with `m` of at
most 53 bits and `q ≥ -1074` the nearest one, or infinity past the largest. -/
def nearestBits (num den : Nat) : Nat :=
  let q := exponentOf num den - 52
  let m := roundHalfEven (num * Nat.pow 2 1074) (den * Nat.pow 2 q)
  min infinityBits (q * Nat.pow 2 52 + m)

/-- The number nearest to a quotient. -/
def ofRatio (negative : Bool) (num den : Nat) : Binary64 :=
  signed negative (nearestBits num den)

/-- The number nearest to a natural number. -/
def ofNat (n : Nat) : Binary64 := ofRatio false n 1

/-- The number nearest to an integer. -/
def ofInt (n : Int) : Binary64 := ofRatio (n < 0) n.natAbs 1

/-- The product of two magnitudes, rounded once. -/
def mul (x y : Binary64) : Binary64 :=
  ofRatio (x.isNegative != y.isNegative) (x.ratio.1 * y.ratio.1) (x.ratio.2 * y.ratio.2)

/-- The quotient of two magnitudes, rounded once; the divisor is no zero. -/
def div (x y : Binary64) : Binary64 :=
  ofRatio (x.isNegative != y.isNegative) (x.ratio.1 * y.ratio.2) (x.ratio.2 * y.ratio.1)

/-- The sum of two numbers that are not negative, rounded once. -/
def addMagnitudes (x y : Binary64) : Binary64 :=
  ofRatio false (x.ratio.1 + y.ratio.1) x.ratio.2

/-- The number nearest to a power of ten. -/
def pow10 (k : Nat) : Binary64 := ofNat (Nat.pow 10 k)

/-! ## Reading a decimal

A decimal arrives as an integer significand and a power of ten.  The
significand is rounded first, then scaled by one rounded power of ten; only a
power below `10 ^ -308` takes more than one step.
-/

/-- Divides by `10 ^ k`, in steps of at most `10 ^ 308`. -/
def scaleDown (x : Binary64) (k : Nat) : Binary64 :=
  if k ≤ 308 then x.div (pow10 k)
  else if x.isZero then x
  else scaleDown (x.div (pow10 308)) (k - 308)
termination_by k

/-- The number written as `significand * 10 ^ exponent`, unless it is too large. -/
def ofDecimal? (negative : Bool) (significand : Nat) (exponent : Int) : Option Binary64 :=
  let x := ofNat significand
  let sign (y : Binary64) : Binary64 := if negative then y.negate else y
  match exponent with
  | .ofNat k =>
    if x.isZero then some (sign x)
    else if 308 < k then none
    else
      let y := x.mul (pow10 k)
      if y.isFinite then some (sign y) else none
  | .negSucc k => some (sign (scaleDown x (k + 1)))

end Binary64

end StageGraph
