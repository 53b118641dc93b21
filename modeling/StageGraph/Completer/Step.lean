/-
# `StageGraph.Completer.Step` — the steps of stages and hooks

Every stage that is not terminal, and every task that runs hooks, is a task.  A
step of a task is one atomic change of the completer: it reads one result,
resolves the stage, lets a body ask one question, ends a stage, takes the next
hook, ends a hook, or publishes the state of a flow.  A task that can do none of
these has no step.

A step has two parts.  First it is found out what the task does next: its
*move*, for which a body may have had to ask its question.  Then the move is
carried out on the graph of the task.

Which task takes the next step is left open.  What holds after every step holds
under every schedule.
-/
import StageGraph.Completer.World

namespace StageGraph

/-- A task of a completer: a stage, or a task that runs hooks, by its position in its flow. -/
inductive TaskId where
  | stage (flow n : Nat)
  | hooks (flow n : Nat)
deriving DecidableEq, Repr

/-- What a step does to its stage. -/
inductive Move where
  /-- The stage goes on in another phase. -/
  | turn (p : Phase)
  /-- A body is run for the stage; if `forward` is there, the stage ends with it whatever the body
  gives. -/
  | launch (closure : Closure) (args : List Outcome) (forward : Option Outcome)
  /-- The stage ends. -/
  | finish (o : Outcome)

/-- What a step does to its drain. -/
inductive DrainMove where
  /-- The next hook starts, and has time until a moment. -/
  | start (h : Hooks.Pending Closure) (limit : Nat)
  /-- The hook under way has come further. -/
  | turn (r : Hooks.Running BodyThread)
  /-- The hook under way ends. -/
  | finish (index : Nat) (e : Hooks.Ending)
  /-- No hook is left. -/
  | leave

namespace World

/-! ## Bodies -/

/-- Answers a question of a program that is not for the completer's surroundings. -/
def pose (c : Completer) (w : World) : (q : Question bodySignature) → World × Thread q.Answer
  | .call r => w.call c r
  | .sleep d => (w, .asleep ⟨w.after d, ()⟩)
  | .currentFlow => (w, .going none)
  | .log line => ({ w with log := w.log ++ [line] }, .going ())
  | .ran entry => ({ w with ran := w.ran ++ [entry] }, .going ())
  | .other (.removeFlow flow) =>
    let (w, a) := w.removeFlow flow
    (w, .going a)

/-- How a body is left by a step. -/
inductive Left where
  | thread (t : BodyThread)
  | ended (o : Outcome)

/-- Lets a body ask its next question, or end. -/
def advance (c : Completer) (w : World) : FlowProgram bodySignature Outcome → World × Left
  | .done o => (w, .ended o)
  | .panic p => (w, .ended p.toOutcome)
  | .ask q next =>
    let (w, t) := w.pose c q
    (w, .thread (t.map next))

/-- What a thread goes on with now. -/
def resume? {κ : Type} (w : World) (t : Thread κ) : Option κ := t.resume? w.outcome? w.clock

end World

/-! ## Stages -/

namespace Stage

/-- The failure of a stage that is to run a body and has none. -/
def bodyless (op : Operation) : Outcome :=
  .failure (.failure .invalidStageResponse s!"{op.tag} stage has no body")

/-- Runs the body of a stage; a stage without a body fails. -/
def launch (s : Stage) (args : List Outcome) (forward : Option Outcome) : Move :=
  match s.closure with
  | some closure => .launch closure args forward
  | none => .finish (bodyless s.operation)

/-- Resolves a stage from the results it has waited for. -/
def resolve (s : Stage) (inputs : List Outcome) : Move :=
  match s.operation.resolve inputs with
  | .ok (.complete o) => .finish o
  | .ok (.invoke args) => s.launch args none
  | .ok (.observe args forward) => s.launch args (some forward)
  | .error e => .finish (Report.ofFlow e).toOutcome

end Stage

namespace Graph

/-- What follows when the body of the stage `s` has ended. -/
def conclude (g : Graph) (s : Stage) (forward : Option Outcome) (o : Outcome) : Move :=
  match forward with
  | some f => .finish f
  | none =>
    if s.operation.adopts then
      match o.compose with
      | .complete o => .finish o
      | .adopt stage =>
        match g.slot? stage with
        | .ok target => .turn (.adopting target)
        | .error e => .finish (Report.ofFlow e).toOutcome
    else .finish o

/-- What is asked of a catalog for the body of the `n`th stage. -/
def invocation (g : Graph) (n : Nat) (closure : Closure) (args : List Outcome) : Invocation :=
  ⟨g.id, stageName n, closure, args⟩

/-- Carries out a move of the `n`th stage. -/
def move (c : Completer) (g : Graph) (n : Nat) : Move → Graph
  | .turn p => g.setPhase n p
  | .launch closure args forward =>
    g.setPhase n (.running (.going (c.catalog.invoke (g.invocation n closure args))) forward)
  | .finish o => g.finish n o

end Graph

namespace World

/-- The next move of the stage `s` of the graph `g`, if it has one; a body that is to make it has
asked its question. -/
def move? (c : Completer) (w : World) (g : Graph) (s : Stage) : Option (World × Move) :=
  match s.phase with
  | .ended _ => none
  | .delayed moment => if moment ≤ w.clock then some (w, .finish .empty) else none
  | .gathering got (d :: left) =>
    (g.outcome? d).map fun o => (w, .turn (.gathering (got ++ [o]) left))
  | .gathering got [] => some (w, s.resolve got)
  | .choosing => (s.deps.findSome? g.outcome?).map fun o => (w, s.resolve [o])
  | .running t forward =>
    (w.resume? t).map fun p =>
      match w.advance c p with
      | (w, .thread t) => (w, .turn (.running t forward))
      | (w, .ended o) => (w, g.conclude s forward o)
  | .adopting target => (g.outcome? target).map fun o => (w, .finish o)

/-- A step of the stage `s`, which is the `n`th of the graph `g` at `flow`. -/
def stepStage (c : Completer) (w : World) (flow : Nat) (g : Graph) (n : Nat) (s : Stage) :
    Option World :=
  (w.move? c g s).map fun (w, m) => w.setGraph flow (((w.graph? flow).getD g).move c n m)

end World

/-! ## Hooks -/

/-- The name under which hooks are run. -/
def hookStage : StageId := ⟨"termination-hook"⟩

/-- How a hook has ended, by the result of its body. -/
def hookEnding : Outcome → Hooks.Ending
  | .success _ => .ok
  | .failure d => .error (.ofFlow (.stageFailure d))

/-- What is left of a drain after a step. -/
inductive DrainLeft where
  | drain (d : Hooks.Drain BodyThread)
  /-- No hook was left; these have failed. -/
  | drained (failures : List HookFailure)

namespace Graph

/-- What is asked of a catalog for the body of a hook. -/
def hookInvocation (g : Graph) (closure : Closure) : Invocation :=
  ⟨g.id, hookStage, closure, [.success (.state g.hooks.state)]⟩

/-- Carries out a move of a drain. -/
def drainMove (c : Completer) (g : Graph) (d : Hooks.Drain BodyThread) :
    DrainMove → Graph × DrainLeft
  | .start h limit =>
    let running : Hooks.Running BodyThread :=
      ⟨h.index, .going (c.catalog.invoke (g.hookInvocation h.body)), limit⟩
    ({ g with hooks := g.hooks.next?.1 }, .drain (d.run running))
  | .turn r => (g, .drain (d.run r))
  | .finish index e =>
    let (hooks, d) := Hooks.Drain.finish g.hooks d index e
    ({ g with hooks := hooks }, .drain d)
  | .leave => ({ g with hooks := g.hooks.next?.1 }, .drained d.failures)

/-- Publishes the state in which a flow has ended, if there is one. -/
def publish (g : Graph) (s : Option FlowState) : Graph :=
  { g with terminated := s.or g.terminated }

/-- Puts what is left of a drain back into its task, which publishes a state at the end if there is
one. -/
def settleDrain (g : Graph) (k : Nat) (s : Option FlowState) : DrainLeft → Graph
  | .drain d => g.setHookTask k (.draining d s)
  | .drained _ => (g.setHookTask k .finished).publish s

end Graph

namespace World

/-- The next move of a drain of the hooks of the graph `g`, if it has one: the hook under way comes
before its limit. -/
def drainMove? (c : Completer) (w : World) (g : Graph) (d : Hooks.Drain BodyThread) :
    Option (World × DrainMove) :=
  match d.running with
  | none =>
    match g.hooks.next?.2 with
    | some h => some (w, .start h (w.after c.hookLimit))
    | none => some (w, .leave)
  | some r =>
    match w.resume? r.thread with
    | some p =>
      match w.advance c p with
      | (w, .thread t) => some (w, .turn { r with thread := t })
      | (w, .ended o) => some (w, .finish r.index (hookEnding o))
    | none =>
      if r.limit ≤ w.clock then some (w, .finish r.index (.timedOut c.hookLimit)) else none

/-- A step of a drain of the hooks of the graph `g` at `flow`. -/
def stepDrain (c : Completer) (w : World) (flow : Nat) (g : Graph) (d : Hooks.Drain BodyThread) :
    Option (World × DrainLeft) :=
  (w.drainMove? c g d).map fun (w, m) =>
    let (g, left) := ((w.graph? flow).getD g).drainMove c d m
    (w.setGraph flow g, left)

/-- Ends a flow's hooks in a state; tells whether a drain has to start. -/
def endHooks (w : World) (flow : Nat) (g : Graph) (s : FlowState) : World × Graph × Bool :=
  let (hooks, starts) := g.hooks.terminate s
  let g := { g with hooks := hooks }
  (w.setGraph flow g, g, starts)

/-- A step of the `k`th task that runs hooks of the graph `g` at `flow`. -/
def stepHooks (c : Completer) (w : World) (flow : Nat) (g : Graph) (k : Nat) :
    HookTask → Option World
  | .finished => none
  | .due s =>
    match w.endHooks flow g s with
    | (w, g, true) => some (w.setGraph flow (g.setHookTask k (.draining .fresh (some s))))
    | (w, g, false) => some (w.setGraph flow ((g.setHookTask k .finished).publish (some s)))
  | .draining d s =>
    (w.stepDrain c flow g d).map fun (w, left) =>
      w.setGraph flow (((w.graph? flow).getD g).settleDrain k s left)

/-! ## Any task -/

/-- A step of a task, if it has one. -/
def step (c : Completer) (w : World) : TaskId → Option World
  | .stage flow n => do
    let g ← w.graph? flow
    let s ← g.stages[n]?
    w.stepStage c flow g n s
  | .hooks flow k => do
    let g ← w.graph? flow
    let t ← g.hookTasks[k]?
    w.stepHooks c flow g k t

end World

end StageGraph
