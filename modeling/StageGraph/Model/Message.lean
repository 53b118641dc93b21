/-
# `StageGraph.Model.Message` — requests and answers of a completer service

One record for each body that is exchanged with a completer service: what a
client asks for, what the service answers, and the request by which the service
has a body run.
-/
import StageGraph.Model.Outcome
import StageGraph.Model.Operation
import StageGraph.Model.Closure

namespace StageGraph

open StageGraph.Wire (Codec HasCodec Fields)

/-- A new stage: what it does, the body it runs, and the stages it waits for, in order. -/
structure StageRequest where
  operation : Operation
  closure : Option Closure
  deps : List StageId
deriving Repr, Inhabited

namespace StageRequest

def fields : Fields StageRequest :=
  (((Fields.none StageRequest.mk).required "operation" Operation.codec).optional
    "closure" Closure.codec.option none).optional "deps" Codec.stageId.list []

/-- An absent body is left out. -/
def codec : Codec StageRequest :=
  .record "AddStageRequest" fields fun r =>
    [("operation", .string r.operation.tag)]
      ++ (r.closure.toList.map fun c => ("closure", Closure.codec.toValue c))
      ++ [("deps", Codec.stageId.list.toValue r.deps)]

end StageRequest

/-- A body to be run for a stage, with the results of the stage's inputs. -/
structure Invocation where
  flow : FlowId
  stage : StageId
  closure : Closure
  args : List Outcome
deriving Repr, Inhabited

namespace Invocation

def fields : Fields Invocation :=
  ((((Fields.none Invocation.mk).required "flow_id" Codec.flowId).required
    "stage_id" Codec.stageId).required "closure" Closure.codec).optional
    "args" Outcome.codec.list []

def codec : Codec Invocation :=
  .record "InvokeStageRequest" fields fun r =>
    [("flow_id", .string r.flow.text), ("stage_id", .string r.stage.text),
      ("closure", Closure.codec.toValue r.closure), ("args", Outcome.codec.list.toValue r.args)]

end Invocation

/-! ## Bodies with one field -/

namespace Message

/-- A record whose only field is called `field`. -/
def single {α : Type} (record field : String) (c : Codec α) : Codec α :=
  .record record ((Fields.none id).required field c) fun a => [(field, c.toValue a)]

/-- A new flow for a function, and the flow that was made. -/
def createFlow : Codec String := single "CreateFlowRequest" "function_id" Codec.string

@[inherit_doc createFlow]
def flowCreated : Codec FlowId := single "CreateFlowResponse" "flow_id" Codec.flowId

/-- A stage that is terminal from the start. -/
def addCompleted : Codec Outcome := single "AddCompletedValueRequest" "result" Outcome.codec

/-- A stage that ends after so many milliseconds. -/
def addDelay : Codec UInt64 := single "AddDelayRequest" "delay_ms" Codec.uint64

/-- A hook to be run when the flow is over. -/
def addHook : Codec Closure := single "AddTerminationHookRequest" "closure" Closure.codec

/-- The end of the invocation that built a flow. -/
def commit : Codec FlowState := single "CommitRequest" "state" FlowState.codec

/-- The stage that was made. -/
def stageAdded : Codec StageId := single "AddStageResponse" "stage_id" Codec.stageId

/-- The result of a stage that was waited for. -/
def stageAwaited : Codec Outcome := single "AwaitStageResponse" "result" Outcome.codec

/-- The result of a body that was run. -/
def invoked : Codec Outcome := single "InvokeStageResponse" "result" Outcome.codec

end Message

end StageGraph
