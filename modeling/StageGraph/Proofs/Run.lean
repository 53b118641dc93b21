/-
# `StageGraph.Proofs.Run` — runs of a completer, and what happens in them

A run is any sequence of events, each of them atomic: somebody outside makes a
call, has a flow forgotten or leaves a trace, a task takes a step, or time
passes.  The calls that bodies and hooks make are part of the steps of their
tasks.  Nothing is assumed about the order of the events, and time may pass in
jumps of any length, so timers go off in any order as well.

The state after an event does not tell everything that the event did: that a
state is published once more, or a body run a second time, need not be visible.
So beside the state, an event has *deeds*, read off the move that it carries
out.  What is said about a whole run is said about the list of its deeds.
-/
import StageGraph.Completer.Step

namespace StageGraph

/-- Something that happens to a flow. -/
inductive Deed where
  /-- A commit succeeds. -/
  | committed (s : FlowState)
  /-- A body is run for the `n`th stage. -/
  | invoked (n : Nat) (r : Invocation)
  /-- The `n`th stage is ended by its task; so many stages were active just before. -/
  | ended (n : Nat) (o : Outcome) (active : Nat)
  /-- The body of a hook is run. -/
  | hookStarted (index : Nat) (r : Invocation)
  | hookEnded (index : Nat) (e : Hooks.Ending)
  /-- The state in which the flow has ended is published. -/
  | published (s : FlowState)

/-- An atomic step of a run. -/
inductive Event where
  /-- A call from outside. -/
  | call (r : Request)
  /-- Somebody outside has a flow forgotten. -/
  | removeFlow (flow : FlowId)
  | task (id : TaskId)
  /-- Time passes up to a moment. -/
  | clock (moment : Nat)
  /-- Somebody outside writes a line of the log, or notes that a body runs. -/
  | log (line : String)
  | ran (entry : String)

/-- What a move does to its graph. -/
def Move.deed? (g : Graph) (n : Nat) : Move → Option Deed
  | turn _ => none
  | launch closure args _ => some (.invoked n (g.invocation n closure args))
  | finish o => some (.ended n o g.active)

/-- What a move of a drain does to its graph, if the drain publishes `s` at its end. -/
def DrainMove.deed? (g : Graph) (s : Option FlowState) : DrainMove → Option Deed
  | start h _ => some (.hookStarted h.index (g.hookInvocation h.body))
  | turn _ => none
  | finish index e => some (.hookEnded index e)
  | leave => s.map .published

/-- The deeds that concern the flow at a position. -/
def deedsAt (flow : Nat) (ds : List (Nat × Deed)) : List Deed :=
  (ds.filter fun d => d.1 = flow).map Prod.snd

namespace World

/-- The state after an event; nothing if the task has no step, or time would run backwards. -/
def fire (c : Completer) (w : World) : Event → Option World
  | .call r => some (w.call c r).1
  | .removeFlow flow => some (w.removeFlow flow).1
  | .task id => w.step c id
  | .clock moment => if w.clock ≤ moment then some { w with clock := moment } else none
  | .log line => some { w with log := w.log ++ [line] }
  | .ran entry => some { w with ran := w.ran ++ [entry] }

/-! ## Deeds -/

/-- The deeds of a call, each with the position of its flow. -/
def callDeeds (w : World) : Request → List (Nat × Deed)
  | .commit flow s =>
    match w.find flow, (w.commit flow s).2 with
    | .ok (n, _), .ok () => [(n, .committed s)]
    | _, _ => []
  | _ => []

/-- The deeds of a body that goes on with a program. -/
def programDeeds (w : World) : FlowProgram bodySignature Outcome → List (Nat × Deed)
  | .ask (.call r) _ => w.callDeeds r
  | _ => []

/-- The deeds of a body that goes on, if it can. -/
def bodyDeeds (w : World) (t : BodyThread) : List (Nat × Deed) :=
  match w.resume? t with
  | some p => w.programDeeds p
  | none => []

/-- The deeds of the body of a stage. -/
def phaseDeeds (w : World) : Phase → List (Nat × Deed)
  | .running t _ => w.bodyDeeds t
  | _ => []

/-- The deeds of a step of a stage. -/
def stageDeeds (c : Completer) (w : World) (flow : Nat) (g : Graph) (n : Nat) (s : Stage) :
    List (Nat × Deed) :=
  w.phaseDeeds s.phase ++
    match w.move? c g s with
    | some (w, m) => (m.deed? ((w.graph? flow).getD g) n).toList.map fun d => (flow, d)
    | none => []

/-- The deeds of the body of a hook. -/
def runningDeeds (w : World) : Option (Hooks.Running BodyThread) → List (Nat × Deed)
  | some r => w.bodyDeeds r.thread
  | none => []

/-- The deeds of a step of a task that runs hooks. -/
def hookDeeds (c : Completer) (w : World) (flow : Nat) (g : Graph) :
    HookTask → List (Nat × Deed)
  | .due s => if (g.hooks.terminate s).2 then [] else [(flow, .published s)]
  | .draining d s =>
    w.runningDeeds d.running ++
      match w.drainMove? c g d with
      | some (w, m) => (m.deed? ((w.graph? flow).getD g) s).toList.map fun d => (flow, d)
      | none => []
  | .finished => []

/-- The deeds of a step of a task. -/
def taskDeeds (c : Completer) (w : World) : TaskId → List (Nat × Deed)
  | .stage flow n =>
    match w.graph? flow with
    | some g =>
      match g.stages[n]? with
      | some s => w.stageDeeds c flow g n s
      | none => []
    | none => []
  | .hooks flow k =>
    match w.graph? flow with
    | some g =>
      match g.hookTasks[k]? with
      | some t => w.hookDeeds c flow g t
      | none => []
    | none => []

/-- The deeds of an event. -/
def deeds (c : Completer) (w : World) : Event → List (Nat × Deed)
  | .call r => w.callDeeds r
  | .removeFlow _ => []
  | .task id => w.taskDeeds c id
  | .clock _ | .log _ | .ran _ => []

/-! ## Runs -/

/-- The state after a run, if every event of it can take place. -/
def run (c : Completer) (w : World) : List Event → Option World
  | [] => some w
  | e :: es => (w.fire c e).bind fun w' => w'.run c es

/-- The deeds of a run, in their order. -/
def history (c : Completer) (w : World) : List Event → List (Nat × Deed)
  | [] => []
  | e :: es =>
    w.deeds c e ++
      match w.fire c e with
      | some w' => w'.history c es
      | none => []

/-- The states that a run from the beginning leads to. -/
def Reachable (c : Completer) (w : World) : Prop := ∃ es, World.empty.run c es = some w

/-- No task has a step, now or at any later time. -/
def Stuck (c : Completer) (w : World) : Prop :=
  ∀ moment, w.clock ≤ moment → ∀ id, ({ w with clock := moment } : World).step c id = none

end World

/-- A completer without bodies of its own, by which single runs can be followed. -/
def Completer.plain : Completer := ⟨.initial, .ofSeconds 1, fun n => ⟨toString n⟩⟩

end StageGraph
