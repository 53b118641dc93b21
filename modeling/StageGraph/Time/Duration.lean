/-
# `StageGraph.Time.Duration` — spans of time

A duration counts nanoseconds.  Clocks tick in milliseconds, so a duration has
two readings: `ticks`, the number of ticks a timer of that duration takes (a
started millisecond counts as one), and `wholeMillis`, the milliseconds that
are over when it ends, which is what a request to a service states.
-/
import StageGraph.Number.Binary64

namespace StageGraph

/-- A span of time in nanoseconds. -/
structure Duration where
  nanos : Nat
deriving DecidableEq, Repr

namespace Duration

/-- No time at all. -/
def zero : Duration := ⟨0⟩

def ofSeconds (n : Nat) : Duration := ⟨n * 1000000000⟩

def ofMillis (n : Nat) : Duration := ⟨n * 1000000⟩

def ofMicros (n : Nat) : Duration := ⟨n * 1000⟩

/-- The ticks until a timer of this duration fires. -/
def ticks (d : Duration) : Nat := (d.nanos + 999999) / 1000000

/-- The milliseconds stated in a request: whole ones, and at most what 64 bits hold. -/
def wholeMillis (d : Duration) : Nat := min (d.nanos / 1000000) (Nat.pow 2 64 - 1)

/-! ## Seconds as a floating point number -/

/-- The duration of a number of seconds, to the nearest nanosecond, a tie to the even one.
Negative, undefined and too large numbers have none. -/
def ofSeconds? (x : Binary64) : Option Duration :=
  if !x.isFinite || (x.isNegative && !x.isZero) then none
  else
    let n := Binary64.roundHalfEven (x.ratio.1 * 1000000000) x.ratio.2
    if n < Nat.pow 2 64 * 1000000000 then some ⟨n⟩ else none

/-- The seconds of a duration: whole seconds and the fraction are rounded each, then their sum. -/
def toSeconds (d : Duration) : Binary64 :=
  (Binary64.ofNat (d.nanos / 1000000000)).addMagnitudes
    ((Binary64.ofNat (d.nanos % 1000000000)).div (Binary64.ofNat 1000000000))

/-! ## In messages -/

/-- A number of `places` decimal places given as digits, without zeros at the end. -/
def fraction (places n : Nat) : String :=
  let digits := (Nat.toDigits 10 n)
  let padded := List.replicate (places - digits.length) '0' ++ digits
  let kept := (padded.reverse.dropWhile (· == '0')).reverse
  if kept.isEmpty then "" else "." ++ String.ofList kept

/-- The duration in the largest unit that leaves a whole part: seconds, milli-, micro- or
nanoseconds. -/
def render (d : Duration) : String :=
  let n := d.nanos
  if 1000000000 ≤ n then s!"{n / 1000000000}{fraction 9 (n % 1000000000)}s"
  else if 1000000 ≤ n then s!"{n / 1000000}{fraction 6 (n % 1000000)}ms"
  else if 1000 ≤ n then s!"{n / 1000}{fraction 3 (n % 1000)}µs"
  else s!"{n}ns"

end Duration

end StageGraph
