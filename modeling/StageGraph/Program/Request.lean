/-
# `StageGraph.Program.Request` — the calls of a completer

The seven calls by which flows are made, built, waited for and closed.  A
completer answers each with a value or an error; which completer it is makes no
difference to the programs that call it.
-/
import StageGraph.Model.Message
import StageGraph.Time.Duration
import StageGraph.Program.Basic

namespace StageGraph

/-- A call to a completer. -/
inductive Request where
  /-- A new flow for a function. -/
  | createFlow (function : String)
  /-- A stage that is resolved from its inputs. -/
  | addStage (flow : FlowId) (r : StageRequest)
  /-- A stage that is terminal from the start. -/
  | addCompleted (flow : FlowId) (o : Outcome)
  /-- A stage that ends with nothing after a while. -/
  | addDelay (flow : FlowId) (d : Duration)
  /-- The result of a stage, once it is terminal; an error if that takes longer than `timeout`. -/
  | awaitStage (flow : FlowId) (stage : StageId) (timeout : Option Duration)
  /-- A body to be run when the flow is over. -/
  | addHook (flow : FlowId) (c : Closure)
  /-- The end of the invocation that builds the flow. -/
  | commit (flow : FlowId) (s : FlowState)
deriving Repr

/-- What a call gives when it succeeds. -/
abbrev Request.Value : Request → Type
  | createFlow _ => FlowId
  | addStage .. => StageId
  | addCompleted .. => StageId
  | addDelay .. => StageId
  | awaitStage .. => Outcome
  | addHook .. => Unit
  | commit .. => Unit

/-- What a call answers. -/
abbrev Request.Answer (r : Request) : Type := Except FlowError r.Value

end StageGraph
