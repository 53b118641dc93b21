/-
# `StageGraph.Completer.Graph` — the graph of one flow

A graph has stages, each with the phase in which it is, and the record of its
life: whether the flow has been committed, how many stages are still active, and
whether the flow is coming to its end.  A flow that is committed and has no
active stage left ends: its hooks are run, and then the state it was committed
with is published.

Stages are named by their position.  Nothing here runs bodies; the functions
below are the accounting that every call and every step of a stage goes through.
-/
import StageGraph.Continuation.Catalog
import StageGraph.Completer.Thread
import StageGraph.Hooks.Drain
import StageGraph.Text.Integer

namespace StageGraph

/-- A body under way. -/
abbrev BodyThread := Thread (FlowProgram bodySignature Outcome)

/-- How far a stage has come. -/
inductive Phase where
  /-- Terminal. -/
  | ended (o : Outcome)
  /-- Ends with nothing at a moment. -/
  | delayed (moment : Nat)
  /-- Waits for inputs in their order; `got` are the results of those before. -/
  | gathering (got : List Outcome) (left : List Nat)
  /-- Waits for the first of its inputs. -/
  | choosing
  /-- Its body runs; if `forward` is there, the stage ends with it whatever the body gives. -/
  | running (body : BodyThread) (forward : Option Outcome)
  /-- Waits for the stage whose result it takes. -/
  | adopting (target : Nat)

namespace Phase

/-- The result of a terminal stage. -/
def outcome? : Phase → Option Outcome
  | ended o => some o
  | _ => none

/-- The moment at which the stage may go on by itself. -/
def moment? : Phase → Option Nat
  | delayed m => some m
  | running body _ => body.alarm?.map Alarm.moment
  | _ => none

/-- The first phase of a stage that is resolved from its inputs. -/
def initial (op : Operation) (deps : List Nat) : Phase :=
  match op.readiness with
  | .immediate => gathering [] []
  | .allInputs => gathering [] deps
  | .firstInput => choosing

end Phase

/-- A stage: what it was asked to do, and how far it has come. -/
structure Stage where
  operation : Operation
  closure : Option Closure
  /-- The positions of its inputs. -/
  deps : List Nat
  phase : Phase

/-- A task that runs hooks. -/
inductive HookTask where
  /-- Is to end the flow in a state. -/
  | due (s : FlowState)
  /-- Runs through the hooks, and then publishes the state if there is one. -/
  | draining (d : Hooks.Drain BodyThread) (publish : Option FlowState)
  | finished

/-- The graph of a flow. -/
structure Graph where
  id : FlowId
  stages : List Stage
  committed : Option FlowState
  /-- How many stages are not terminal. -/
  active : Nat
  /-- Whether the end of the flow has begun. -/
  terminating : Bool
  hooks : Hooks.Registry Closure
  hookTasks : List HookTask
  /-- The state in which the flow has ended, once its hooks have run. -/
  terminated : Option FlowState
  /-- Whether the completer has forgotten the flow. -/
  removed : Bool

namespace Graph

/-- The graph of a new flow. -/
def new (id : FlowId) : Graph := ⟨id, [], none, 0, false, .empty, [], none, false⟩

/-- The result of the stage at a position. -/
def outcome? (g : Graph) (stage : Nat) : Option Outcome :=
  g.stages[stage]?.bind fun s => s.phase.outcome?

/-- The position that a stage's name stands for. -/
def slot? (g : Graph) (stage : StageId) : Except FlowError Nat :=
  match Integer.readIndex? stage.text.toList with
  | some n => if n < g.stages.length then .ok n else .error (.unknownStage g.id stage)
  | none => .error (.unknownStage g.id stage)

/-- The name of the stage at a position. -/
def stageName (n : Nat) : StageId := ⟨toString n⟩

/-- The end of the flow begins if it is committed and no stage is active. -/
def endIfDue (g : Graph) : Graph :=
  match g.committed with
  | some s =>
    if g.active = 0 ∧ g.terminating = false then
      { g with terminating := true, hookTasks := g.hookTasks ++ [.due s] }
    else g
  | none => g

/-- Adds a stage; one that is not terminal is active. -/
def allocate (g : Graph) (s : Stage) : Except FlowError (Graph × StageId) :=
  if g.terminating then .error (.flowTerminated g.id)
  else
    let active := if s.phase.outcome?.isSome then g.active else g.active + 1
    .ok ({ g with stages := g.stages ++ [s], active := active }, stageName g.stages.length)

/-- Puts a stage into another phase. -/
def setPhase (g : Graph) (stage : Nat) (p : Phase) : Graph :=
  { g with stages := g.stages.modify stage fun s => { s with phase := p } }

/-- Ends an active stage. -/
def finish (g : Graph) (stage : Nat) (o : Outcome) : Graph :=
  { g.setPhase stage (.ended o) with active := g.active - 1 }.endIfDue

/-- Commits the flow, once. -/
def commit (g : Graph) (s : FlowState) : Except FlowError Graph :=
  if g.committed.isSome then .error (.invalidArgument (.alreadyCommitted g.id))
  else .ok { g with committed := some s }.endIfDue

/-- Registers a hook; a flow whose hooks have run starts another drain for it. -/
def addHook (g : Graph) (c : Closure) : Graph :=
  match g.hooks.register c with
  | (hooks, _, true) =>
    { g with hooks := hooks, hookTasks := g.hookTasks ++ [.draining .fresh none] }
  | (hooks, _, false) => { g with hooks := hooks }

/-- Replaces a task that runs hooks. -/
def setHookTask (g : Graph) (k : Nat) (t : HookTask) : Graph :=
  { g with hookTasks := g.hookTasks.set k t }

end Graph

end StageGraph
