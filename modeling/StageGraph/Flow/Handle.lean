/-
# `StageGraph.Flow.Handle` — building a graph and looking at its stages

A handle names a stage together with its flow.  The functions here are what a
program says to build a graph: stages without inputs from a flow, dependent
stages from handles, barriers over several handles.  None of them decides
anything about results; each comes down to calls of the completer.

Where several handles go in, all must belong to one flow, and that is checked
before any call is made.
-/
import StageGraph.Program.Flow
import StageGraph.Resolution

namespace StageGraph

open StageGraph.Wire (Codec HasCodec)

/-- A stage of a flow. -/
structure Handle where
  flow : FlowId
  stage : StageId
deriving DecidableEq, Repr, Inhabited

/-- The entry whose body gives back its captured data. -/
def Closure.capturedEntry : String := "fnflow.captured"

namespace FlowId

variable {E : Signature}

/-- Makes a stage by a request. -/
def addStage (flow : FlowId) (r : StageRequest) : FlowM E Handle := do
  let stage ← FlowM.call (.addStage flow r)
  return ⟨flow, stage⟩

/-- A stage that runs a body without inputs. -/
def supply (flow : FlowId) (body : Closure) : FlowM E Handle :=
  flow.addStage ⟨.supply, some body, []⟩

/-- A stage that is terminal from the start. -/
def addCompleted (flow : FlowId) (o : Outcome) : FlowM E Handle := do
  let stage ← FlowM.call (.addCompleted flow o)
  return ⟨flow, stage⟩

/-- A stage that has a value from the start. -/
def completed (flow : FlowId) (v : Json.Value) : FlowM E Handle :=
  flow.addCompleted (.success (.ofValue v))

/-- A stage that has failed from the start. -/
def failed (flow : FlowId) (d : Datum) : FlowM E Handle := flow.addCompleted (.failure d)

/-- A stage that succeeds with nothing after a while. -/
def delay (flow : FlowId) (d : Duration) : FlowM E Handle := do
  let stage ← FlowM.call (.addDelay flow d)
  return ⟨flow, stage⟩

/-- The stage of a handle, which has to be of this flow. -/
def ownStage (flow : FlowId) (h : Handle) : Except FlowError StageId :=
  if h.flow = flow then .ok h.stage
  else .error (.invalidArgument (.foreignStage h.stage h.flow flow))

/-- The inputs of a new stage: as many as the operation takes, all of this flow. -/
def dependencies (flow : FlowId) (op : Operation) (hs : List Handle) :
    Except FlowError (List StageId) := do
  op.checkInputs hs.length
  hs.mapM flow.ownStage

/-- A stage over several handles. -/
def join (flow : FlowId) (op : Operation) (body : Option Closure) (hs : List Handle) :
    FlowM E Handle := do
  let deps ← FlowM.ofExcept (flow.dependencies op hs)
  flow.addStage ⟨op, body, deps⟩

/-- A stage that succeeds with nothing once all inputs are terminal, whatever they are. -/
def allOf (flow : FlowId) (hs : List Handle) : FlowM E Handle := flow.join .allOf none hs

/-- A stage that ends as the first terminal input did. -/
def anyOf (flow : FlowId) (hs : List Handle) : FlowM E Handle := flow.join .anyOf none hs

/-- Registers a body to be run when the flow is over. -/
def addHook (flow : FlowId) (body : Closure) : FlowM E Unit := FlowM.call (.addHook flow body)

end FlowId

namespace Handle

variable {E : Signature} {α : Type}

/-- A stage with this one as its only input. -/
def dependent (h : Handle) (op : Operation) (body : Closure) : FlowM E Handle :=
  h.flow.addStage ⟨op, some body, [h.stage]⟩

/-- Runs a body on the value. -/
def thenApply (h : Handle) (body : Closure) : FlowM E Handle := h.dependent .thenApply body

/-- Runs a body on the value and adopts the stage that the body names. -/
def thenCompose (h : Handle) (body : Closure) : FlowM E Handle := h.dependent .thenCompose body

/-- Runs a body on the failure. -/
def exceptionally (h : Handle) (body : Closure) : FlowM E Handle := h.dependent .exceptionally body

/-- Runs a body on the failure and adopts the stage that the body names. -/
def exceptionallyCompose (h : Handle) (body : Closure) : FlowM E Handle :=
  h.dependent .exceptionallyCompose body

/-- Runs a body on either outcome. -/
def handle (h : Handle) (body : Closure) : FlowM E Handle := h.dependent .handle body

/-- Runs a body on either outcome and then ends as this stage did. -/
def whenComplete (h : Handle) (body : Closure) : FlowM E Handle := h.dependent .whenComplete body

/-- Runs a body on the values of two stages. -/
def thenCombine (h other : Handle) (body : Closure) : FlowM E Handle :=
  h.flow.join .thenCombine (some body) [h, other]

/-- Runs a body on the value of the first of two stages to be terminal. -/
def applyToEither (h other : Handle) (body : Closure) : FlowM E Handle :=
  h.flow.join .applyToEither (some body) [h, other]

/-! ## Retrieval -/

/-- The outcome of the stage, once it is terminal. -/
def result (h : Handle) : FlowM E Outcome := FlowM.call (.awaitStage h.flow h.stage none)

/-- The value of the stage, once it is terminal; its failure as an error. -/
def get (h : Handle) (c : Codec α) : FlowM E α := do
  FlowM.ofExcept ((← h.result).retrieve c)

/-- The same, with an error if the stage is not terminal within a while. -/
def getTimeout (h : Handle) (d : Duration) (c : Codec α) : FlowM E α := do
  FlowM.ofExcept ((← FlowM.call (.awaitStage h.flow h.stage (some d))).retrieve c)

/-- What an attempt to retrieve at once gives: the default where the time was over. -/
def orDefault (default : α) : Except FlowError α → Except FlowError α
  | .error (.timeout _) => .ok default
  | r => r

/-- The value of the stage if it is terminal, otherwise a default. -/
def getNow (h : Handle) (default : α) (c : Codec α) : FlowM E α :=
  ExceptT.mk ((h.getTimeout .zero c).run.bind fun r => .done (orDefault default r))

end Handle

/-- A stage whose value is a list of stages of its flow. -/
structure ResultsHandle where
  inner : Handle
deriving DecidableEq, Repr, Inhabited

namespace ResultsHandle

variable {E : Signature}

/-- Handles of the stages, once the stage is terminal. -/
def get (r : ResultsHandle) : FlowM E (List Handle) := do
  let stages ← r.inner.get (Codec.stageId.list)
  return stages.map fun s => ⟨r.inner.flow, s⟩

end ResultsHandle

/-- Waits for all inputs, then gives back the handles that went in. -/
def FlowId.allResults {E : Signature} (flow : FlowId) (hs : List Handle) :
    FlowM E ResultsHandle := do
  let barrier ← flow.allOf hs
  let captured := Codec.stageId.list.toValue (hs.map Handle.stage)
  let inner ← barrier.thenApply ⟨Closure.capturedEntry, captured⟩
  return ⟨inner⟩

end StageGraph
