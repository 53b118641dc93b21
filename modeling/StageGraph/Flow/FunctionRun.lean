/-
# `StageGraph.Flow.FunctionRun` — a function that owns a flow

A run of a function creates a flow, runs the function's body with that flow as
the current one, and commits the flow at the end: succeeded if the body gave a
value, failed if it failed or panicked.  The commit is the last call, and it is
made exactly once, however the body ended.
-/
import StageGraph.Program.Flow

namespace StageGraph

/-- A run that has ended: the flow it owned and what its body gave. -/
structure FunctionRun (α : Type) where
  flow : FlowId
  result : Except Report α
deriving Repr

namespace FunctionRun

variable {E : Signature} {α : Type}

/-- The result of a body, where a panic counts as an error. -/
def ofBody : Except Panic (Except Report α) → Except Report α
  | .ok r => r
  | .error p => .error (.ofText s!"invocation body panicked: {p.message}")

/-- The state that is committed. -/
def finalState : Except Report α → FlowState
  | .ok _ => .succeeded
  | .error _ => .failed

/-- What the commit leaves of a result: its error counts only if the body gave a value. -/
def afterCommit : Except Report α → Except FlowError Unit → Except Report α
  | .ok _, .error e => .error (.ofFlow e)
  | r, _ => r

/-- Commits the flow of a body that has ended. -/
def conclude (flow : FlowId) (ended : Except Panic (Except Report α)) :
    FlowProgram E (FunctionRun α) :=
  let result := ofBody ended
  (FlowProgram.question (.call (.commit flow (finalState result)))).bind fun committed =>
    .done ⟨flow, afterCommit result committed⟩

/-- Runs the body of a function in a flow of its own.  It fails only if there is no flow. -/
def start (function : String) (body : BodyM E α) : FlowM E (FunctionRun α) := do
  let flow ← FlowM.call (.createFlow function)
  let ended ← ExceptT.lift (FlowProgram.scope flow body.run).attempt
  ExceptT.lift (conclude flow ended)

end FunctionRun

end StageGraph
