/-
# `StageGraph.Model.Operation` — what a stage does

The fourteen operations that a stage may be created with, their tags, and three
questions about them: how many inputs the operation is about (`kind`), whether
it runs a body, and whether the stage that its body names is adopted.
-/
import StageGraph.Wire.Choice

namespace StageGraph

open StageGraph.Wire (Codec)

/-- The broad class of an operation. -/
inductive OperationKind where
  /-- No inputs. -/
  | source
  /-- One parent. -/
  | transform
  /-- Several inputs. -/
  | barrier
deriving DecidableEq, Repr

namespace OperationKind

def all : List OperationKind := [source, transform, barrier]

def tag : OperationKind → String
  | source => "source"
  | transform => "transform"
  | barrier => "barrier"

def codec : Codec OperationKind := Codec.names all tag none

end OperationKind

/-- What a stage was created to do. -/
inductive Operation where
  | supply
  | thenApply
  | thenCompose
  | exceptionally
  | exceptionallyCompose
  | handle
  | whenComplete
  | thenCombine
  | applyToEither
  | allOf
  | anyOf
  | delay
  | completedValue
  | terminationHook
deriving DecidableEq, Repr, Inhabited

namespace Operation

/-- All operations, in the order of their declaration. -/
def all : List Operation :=
  [supply, thenApply, thenCompose, exceptionally, exceptionallyCompose, handle, whenComplete,
    thenCombine, applyToEither, allOf, anyOf, delay, completedValue, terminationHook]

/-- The tag of an operation. -/
def tag : Operation → String
  | supply => "supply"
  | thenApply => "thenApply"
  | thenCompose => "thenCompose"
  | exceptionally => "exceptionally"
  | exceptionallyCompose => "exceptionallyCompose"
  | handle => "handle"
  | whenComplete => "whenComplete"
  | thenCombine => "thenCombine"
  | applyToEither => "applyToEither"
  | allOf => "allOf"
  | anyOf => "anyOf"
  | delay => "delay"
  | completedValue => "completedValue"
  | terminationHook => "terminationHook"

def codec : Codec Operation := Codec.names all tag none

/-- The broad class of an operation. -/
def kind : Operation → OperationKind
  | supply | delay | completedValue | terminationHook => .source
  | thenApply | thenCompose | exceptionally | exceptionallyCompose | handle | whenComplete =>
    .transform
  | allOf | anyOf | thenCombine | applyToEither => .barrier

/-- Whether stages of this operation run a body. -/
def hasBody : Operation → Bool
  | allOf | anyOf | delay | completedValue => false
  | _ => true

/-- Whether the body of such a stage names a stage to adopt. -/
def adopts : Operation → Bool
  | thenCompose | exceptionallyCompose => true
  | _ => false

/-- Whether stages of this operation are made by a call of their own. -/
def hasOwnCall : Operation → Bool
  | delay | completedValue | terminationHook => true
  | _ => false

end Operation

end StageGraph
