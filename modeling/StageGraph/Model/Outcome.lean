/-
# `StageGraph.Model.Outcome` — how a stage ended

A terminal stage holds exactly one of success and failure, each with a datum.
-/
import StageGraph.Model.Datum

namespace StageGraph

open StageGraph.Wire (Codec HasCodec)

/-- The result of a terminal stage. -/
inductive Outcome where
  | success (d : Datum)
  | failure (d : Datum)
deriving DecidableEq, Repr, Inhabited

namespace Outcome

/-- Success with nothing. -/
def empty : Outcome := .success .empty

def isSuccess : Outcome → Bool
  | success _ => true
  | failure _ => false

def isFailure (o : Outcome) : Bool := !o.isSuccess

/-- What either kind of outcome holds. -/
def datum : Outcome → Datum
  | success d => d
  | failure d => d

/-- An outcome from its two parts on the wire. -/
def ofParts (successful : Bool) (d : Datum) : Outcome :=
  if successful then .success d else .failure d

def fields : Wire.Fields Outcome :=
  ((Wire.Fields.none ofParts).required "successful" Codec.bool).required "datum" Datum.codec

def codec : Codec Outcome :=
  .record "WireResult" fields fun o =>
    [("successful", .bool o.isSuccess), ("datum", o.datum.toValue)]

end Outcome

instance : HasCodec Outcome := ⟨Outcome.codec⟩

end StageGraph
