/-
# `StageGraph.Model.Closure` — bodies as data

A body is shipped as the name of a registered entry and the data that it
captured.
-/
import StageGraph.Model.Datum

namespace StageGraph

open StageGraph.Wire (Codec HasCodec)

/-- A body: the entry to run and the data captured for it. -/
structure Closure where
  entry : String
  captured : Json.Value
deriving Repr, Inhabited, BEq

namespace Closure

/-- A closure that captures nothing. -/
def bare (entry : String) : Closure := ⟨entry, .null⟩

/-- Whether nothing is captured. -/
def isBare (c : Closure) : Bool := c.captured.isNull

def fields : Wire.Fields Closure :=
  ((Wire.Fields.none Closure.mk).required "entry" Codec.string).optional
    "captured" Codec.value .null

def codec : Codec Closure :=
  .record "Closure" fields fun c => [("entry", .string c.entry), ("captured", c.captured)]

end Closure

instance : HasCodec Closure := ⟨Closure.codec⟩

end StageGraph
