/-
# `StageGraph.Wire.ValueType` — types that are chosen at run time

Some retrievals say by name at which type a value is to be read.  A value that
was read at a type is shown as the type writes it.
-/
import StageGraph.Wire.Codec

namespace StageGraph.Wire

open StageGraph.Json (Value)

/-- A codec that gives what it reads as a value, in the form in which the type writes it. -/
def Codec.shown {α : Type} (c : Codec α) : Codec Value where
  read room s := do
    let (a, rest) ← c.read room s
    .ok (c.toValue a, rest)
  ofValue v := (c.ofValue v).map c.toValue
  toValue v := v

/-- A type for values. -/
inductive ValueType where
  | int64
  | uint8
  | uint64
  | float
  | bool
  | string
  | unit
  | optionalInt64
  | int64List
  /-- A string with an integer. -/
  | labelledInt64
  | any
deriving DecidableEq, Repr, Inhabited

/-- Reads values of a type. -/
def ValueType.codec : ValueType → Codec Value
  | int64 => Codec.int64.shown
  | uint8 => Codec.uint8.shown
  | uint64 => Codec.uint64.shown
  | float => Codec.float.shown
  | bool => Codec.bool.shown
  | string => Codec.string.shown
  | unit => Codec.unit.shown
  | optionalInt64 => (Codec.option Codec.int64).shown
  | int64List => (Codec.list Codec.int64).shown
  | labelledInt64 => (Codec.pair Codec.string Codec.int64).shown
  | any => Codec.value

end StageGraph.Wire
