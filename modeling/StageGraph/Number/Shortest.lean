/-
# `StageGraph.Number.Shortest` — the fewest digits that read back

A floating point number is written with the fewest decimal digits that
identify it: among the decimals of `n` digits the one nearest to the number,
for the least `n` at which that decimal rounds back to the number.

`digits` finds the digits and the place of the point; how they are laid out is
a decision of the format, given by a `Notation`.
-/
import StageGraph.Number.Binary64

namespace StageGraph.Shortest

/-- The reals that round to a magnitude `m * 2 ^ q`, in units of `2 ^ (q - 2)`: from `low` to
`high`, the ends included if the fraction is even. -/
structure Interval where
  low : Nat
  value : Nat
  high : Nat
  closed : Bool

/-- The interval of a magnitude.  The gap below a power of two is half as wide. -/
def Interval.of (x : Binary64) : Interval :=
  let (m, q) := x.parts
  let narrow := m = Nat.pow 2 52 ∧ 0 < q
  { low := if narrow then 4 * m - 1 else 4 * m - 2
    value := 4 * m
    high := 4 * m + 2
    closed := m % 2 = 0 }

/-- Whether the point `num / den` lies in the interval, the interval's unit being `1 / den`
scaled by `unit`. -/
def Interval.contains (i : Interval) (num unit : Nat) : Bool :=
  if i.closed then i.low * unit ≤ num && num ≤ i.high * unit
  else i.low * unit < num && num < i.high * unit

/-- Digits `d` at decimal exponent `e`: the number `d * 10 ^ e`. -/
structure Decimal where
  digits : Nat
  exponent : Int
deriving DecidableEq, Repr

/-- The count of decimal digits of a number. -/
def digitCount (n : Nat) : Nat := (Nat.toDigits 10 n).length

/-- On the grid `10 ^ e`, the neighbours of the number that lie in its interval, the nearer one
first; an exact tie goes to the even neighbour.

With `2 ^ 1076` as common denominator the number is `value * 2 ^ q`, and a grid point `d * 10 ^ e`
is `d * step` over the same denominator, both multiplied by `scale` where `e` is negative. -/
def onGrid (x : Binary64) (e : Int) : Option Nat :=
  let i := Interval.of x
  let q := x.parts.2
  let scale := match e with
    | .ofNat _ => 1
    | .negSucc k => Nat.pow 10 (k + 1)
  let step := match e with
    | .ofNat k => Nat.pow 10 k * Nat.pow 2 1076
    | .negSucc _ => Nat.pow 2 1076
  let unit := Nat.pow 2 q * scale
  let exact := i.value * unit
  let below := exact / step
  let rest := exact % step
  let nearFirst :=
    if 2 * rest < step ∨ (2 * rest = step ∧ below % 2 = 0) then [below, below + 1]
    else [below + 1, below]
  nearFirst.find? fun d => 0 < d && i.contains (d * step) unit

/-- The least power of ten whose next is above the number: the place of its first digit. -/
def leadingExponent (x : Binary64) : Int :=
  let (num, den) := x.ratio
  if den ≤ num then (digitCount (num / den) : Int) - 1
  else -(digitCount (den / num) : Int)

/-- Tries grids from coarse to fine. -/
def search (x : Binary64) (top : Int) : Nat → Nat → Decimal
  | 0, n => ⟨0, top - n⟩
  | fuel + 1, n =>
    match onGrid x (top - n) with
    | some d => ⟨d, top - n⟩
    | none => search x top fuel (n + 1)

/-- Drops zeros at the end of the digits. -/
def trimZeros : Nat → Decimal → Decimal
  | 0, d => d
  | fuel + 1, d =>
    if d.digits ≠ 0 ∧ d.digits % 10 = 0 then trimZeros fuel ⟨d.digits / 10, d.exponent + 1⟩ else d

/-- The shortest decimal of a finite number that is no zero.  Seventeen digits always suffice;
the search starts one place above the first digit, where a number just below a power of ten may
find its decimal. -/
def decimal (x : Binary64) : Decimal :=
  trimZeros 20 (search x (leadingExponent x + 1) 20 0)

/-- How a format lays out digits. -/
structure Notation where
  /-- The least and the largest place of the first digit that is written without exponent. -/
  leastPlain : Int
  largestPlain : Int
  /-- What stands between the digits and the exponent, by the exponent's sign. -/
  markPositive : String
  markNegative : String
deriving DecidableEq, Repr

/-- `n` zeros. -/
def zeros (n : Nat) : String := String.ofList (List.replicate n '0')

/-- Digits with a point after the first `n` of them, or with `.0` if none is left over. -/
def withPoint (digits : List Char) (n : Nat) : String :=
  if digits.length ≤ n then String.ofList digits ++ zeros (n - digits.length) ++ ".0"
  else String.ofList (digits.take n) ++ "." ++ String.ofList (digits.drop n)

/-- Lays out a magnitude. -/
def Notation.layout (f : Notation) (d : Decimal) : String :=
  let digits := Nat.toDigits 10 d.digits
  let place := d.exponent + digits.length - 1
  if f.leastPlain ≤ place ∧ place ≤ f.largestPlain then
    if place < 0 then "0." ++ zeros (place.natAbs - 1) ++ String.ofList digits
    else withPoint digits (place.toNat + 1)
  else
    let head := match digits with
      | [] => "0"
      | [c] => String.ofList [c]
      | c :: rest => String.ofList (c :: '.' :: rest)
    head ++ (if place < 0 then f.markNegative else f.markPositive) ++ toString place.natAbs

/-- Writes a finite number. -/
def Notation.render (f : Notation) (x : Binary64) : String :=
  let text := if x.isZero then "0.0" else f.layout (decimal x)
  if x.isNegative then "-" ++ text else text

end StageGraph.Shortest
