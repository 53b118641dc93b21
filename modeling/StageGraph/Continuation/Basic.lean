/-
# `StageGraph.Continuation.Basic` — bodies that are registered by name

A continuation is a body together with its kind.  The kind fixes how many
arguments a stage supplies and what they must look like; the constructors
below take a typed body and put the reading of captured data and arguments in
front of it.  Captured data are read first, then the arguments in their order,
and the body runs only when all of them could be read.
-/
import StageGraph.Flow.Handle

namespace StageGraph

open StageGraph.Wire (Codec HasCodec)

/-- The shape of a body. -/
inductive BodyKind where
  /-- No inputs. -/
  | supplier
  /-- The value of one stage. -/
  | function
  /-- The value of one stage; names a stage to adopt. -/
  | composer
  /-- The failure of one stage. -/
  | recovery
  /-- The failure of one stage; names a stage to adopt. -/
  | recoveryComposer
  /-- The values of two stages. -/
  | combiner
  /-- Either outcome of one stage. -/
  | handler
  /-- The state in which the flow ended. -/
  | hook
deriving DecidableEq, Repr, Inhabited

namespace BodyKind

/-- How many arguments bodies of a kind take. -/
def arity : BodyKind → Nat
  | supplier => 0
  | function | composer | recovery | recoveryComposer | hook => 1
  | combiner | handler => 2

/-- The name of a kind in messages. -/
def name : BodyKind → String
  | supplier => "supplier"
  | function => "function"
  | composer => "composer"
  | recovery => "recovery"
  | recoveryComposer => "recovery composer"
  | combiner => "combiner"
  | handler => "handler"
  | hook => "hook"

end BodyKind

namespace Argument

/-- The value of a successful argument; a failure is passed on. -/
def value {α : Type} [HasCodec α] : Option Outcome → Except FlowError α
  | some (.success d) => d.decode α
  | some (.failure d) => .error (.stageFailure d)
  | none => .error (.invalidArgument .missingInput)

/-- The failure of a failed argument. -/
def failure : List Outcome → Except FlowError FlowError
  | .failure d :: _ => .ok (.stageFailure d)
  | _ => .error (.invalidArgument .recoveryShape)

/-- The outcome that is spread over a slot for the value and one for the failure. -/
def outcome {α : Type} [HasCodec α] : List Outcome → Except FlowError (Except FlowError α)
  | [_, .failure d] => .ok (.error (.stageFailure d))
  | [.success d, _] => (d.decode α).map .ok
  | _ => .error (.invalidArgument .handlerShape)

/-- The state that a hook is given. -/
def state : List Outcome → Except FlowError FlowState
  | .success (.state s) :: _ => .ok s
  | _ => .error (.invalidArgument .hookShape)

end Argument

/-- The captured data of a closure, as a type. -/
def Closure.capturedAs (c : Closure) (α : Type) [HasCodec α] : Except FlowError α :=
  ((HasCodec.codec (α := α)).ofValue c.captured).mapError fun f => .codec (.captured c.entry f)

/-- A body that can be run for a stage. -/
structure Continuation where
  kind : BodyKind
  /-- Runs on captured data and the results of the stage's inputs. -/
  run : Closure → List Outcome → BodyM bodySignature Datum

namespace Continuation

variable {C A B R : Type} [HasCodec C] [HasCodec A] [HasCodec B] [HasCodec R]

/-- Programs of bodies. -/
abbrev Body (α : Type) := BodyM bodySignature α

/-- The reference by which a body names a stage: it has to be of the current flow. -/
def stageReference (h : Handle) : Body Datum := do
  let flow ← (FlowM.currentFlow : FlowM bodySignature FlowId)
  let stage ← BodyM.ofExcept (flow.ownStage h)
  return .stageRef stage

def supplier (body : C → Body R) : Continuation where
  kind := .supplier
  run closure _ := do
    let c ← BodyM.ofExcept (closure.capturedAs C)
    let r ← body c
    return .ofTyped r

def function (body : C → A → Body R) : Continuation where
  kind := .function
  run closure args := do
    let c ← BodyM.ofExcept (closure.capturedAs C)
    let a ← BodyM.ofExcept (Argument.value args.head?)
    let r ← body c a
    return .ofTyped r

def composer (body : C → A → Body Handle) : Continuation where
  kind := .composer
  run closure args := do
    let c ← BodyM.ofExcept (closure.capturedAs C)
    let a ← BodyM.ofExcept (Argument.value args.head?)
    let h ← body c a
    stageReference h

def recovery (body : C → FlowError → Body R) : Continuation where
  kind := .recovery
  run closure args := do
    let c ← BodyM.ofExcept (closure.capturedAs C)
    let e ← BodyM.ofExcept (Argument.failure args)
    let r ← body c e
    return .ofTyped r

def recoveryComposer (body : C → FlowError → Body Handle) : Continuation where
  kind := .recoveryComposer
  run closure args := do
    let c ← BodyM.ofExcept (closure.capturedAs C)
    let e ← BodyM.ofExcept (Argument.failure args)
    let h ← body c e
    stageReference h

def combiner (body : C → A → B → Body R) : Continuation where
  kind := .combiner
  run closure args := do
    let c ← BodyM.ofExcept (closure.capturedAs C)
    let a ← BodyM.ofExcept (Argument.value args.head?)
    let b ← BodyM.ofExcept (Argument.value args.tail.head?)
    let r ← body c a b
    return .ofTyped r

def handler (body : C → Except FlowError A → Body R) : Continuation where
  kind := .handler
  run closure args := do
    let c ← BodyM.ofExcept (closure.capturedAs C)
    let o ← BodyM.ofExcept (Argument.outcome args)
    let r ← body c o
    return .ofTyped r

def hook (body : C → FlowState → Body Unit) : Continuation where
  kind := .hook
  run closure args := do
    let c ← BodyM.ofExcept (closure.capturedAs C)
    let s ← BodyM.ofExcept (Argument.state args)
    body c s
    return .empty

/-- The body that gives back what was captured, whatever its input is. -/
def captured : Continuation := function fun (c : Json.Value) (_ : Json.Value) => return c

end Continuation

end StageGraph
