/-
# `StageGraph.Completer.Schedule` — one way to run a completer

A schedule runs a session and the tasks of an in-process completer on one
processor.  Tasks that can go on stand in a queue; the first one runs until it
has to wait, then the tasks that it has made or woken are put at the end.  The
session goes on when the queue is empty.  When nothing at all can go on, the
clock jumps to the next moment for which something waits, and there the session
comes first.

Each round of the loop is one step of a task or one question of the session.
-/
import StageGraph.Completer.Step
import StageGraph.Program.Session

namespace StageGraph

/-- The session of a schedule, and what it waits for. -/
inductive Caller (κ : Type) where
  | thread (t : Thread κ)
  /-- Waits until the queue is empty. -/
  | settling (next : κ)
  /-- Waits until a flow has ended. -/
  | onTermination (flow : Nat) (next : FlowState → κ) (limit : Alarm κ)
  /-- Waits until no hook of a flow is left to run. -/
  | onHooks (flow : Nat) (next : κ) (limit : Alarm κ)
  /-- Runs through the hooks of a flow. -/
  | draining (flow : Nat) (d : Hooks.Drain BodyThread) (next : List HookFailure → κ)

/-- Whose turn it is. -/
inductive Turn where
  | caller
  | task (id : TaskId)
  | none

/-- A schedule: the completer, its session, and the tasks by whether they can go on. -/
structure Schedule (α : Type) where
  world : World
  caller : Caller (Session α)
  turn : Turn
  queue : List TaskId
  /-- Tasks that wait, in the order in which they began to. -/
  parked : List TaskId

namespace World

/-- What a session gets when it asks one of its own questions. -/
def poseSession {κ : Type} (w : World) :
    (q : SessionQuestion) → (next : q.Answer → κ) → World × Caller κ
  | .now, next => (w, .thread (.going (next w.clock)))
  | .settle, next => (w, .settling (next ()))
  | .callUntil .., next => (w, .thread (.going (next none)))
  | .termination moment flow, next =>
    match w.find flow with
    | .error e => (w, .thread (.going (next (some (.error e)))))
    | .ok (n, _) => (w, .onTermination n (fun s => next (some (.ok s))) ⟨moment, next none⟩)
  | .hooksSettled moment flow, next =>
    match w.find flow with
    | .error e => (w, .thread (.going (next (some (.error e)))))
    | .ok (n, _) => (w, .onHooks n (next (some (.ok ()))) ⟨moment, next none⟩)
  | .endHooks flow s, next =>
    match w.find flow with
    | .error e => (w, .thread (.going (next (.error e))))
    | .ok (n, g) =>
      match w.endHooks n g s with
      | (w, _, true) => (w, .draining n .fresh fun fs => next (.ok fs))
      | (w, _, false) => (w, .thread (.going (next (.ok []))))
  | .stageCount flow, next => (w, .thread (.going (next (w.stageCount flow))))
  | .flowCount, next => (w, .thread (.going (next w.flowCount)))
  | .removeFlow flow, next =>
    let (w, a) := w.removeFlow flow
    (w, .thread (.going (next a)))
  | .hookStatus flow, next => (w, .thread (.going (next (w.hookStatus flow))))

/-- What a session gets when it asks a question. -/
def poseCaller {κ : Type} (c : Completer) (w : World) :
    (q : Question sessionSignature) → (next : q.Answer → κ) → World × Caller κ
  | .call r, next =>
    let (w, t) := w.call c r
    (w, .thread (t.map next))
  | .sleep d, next => (w, .thread (.asleep ⟨w.after d, next ()⟩))
  | .currentFlow, next => (w, .thread (.going (next none)))
  | .log line, next => ({ w with log := w.log ++ [line] }, .thread (.going (next ())))
  | .ran entry, next => ({ w with ran := w.ran ++ [entry] }, .thread (.going (next ())))
  | .other (.callUntil moment r), next =>
    let (w, t) := w.call c r
    (w, .thread ((t.map fun x => next (some x)).limited ⟨moment, next none⟩))
  | .other q, next => w.poseSession q next

/-- What a session goes on with: the completer, after what it had to do for that, and either the
session itself or what it still waits for.  `idle` says that no task can go on. -/
def resumeCaller {κ : Type} (c : Completer) (w : World) (idle : Bool) :
    Caller κ → Option (World × (Caller κ ⊕ κ))
  | .thread t => (w.resume? t).map fun k => (w, .inr k)
  | .settling k => if idle then some (w, .inr k) else none
  | .onTermination flow next limit =>
    match (w.graph? flow).bind Graph.terminated with
    | some s => some (w, .inr (next s))
    | none => (limit.fired? w.clock).map fun k => (w, .inr k)
  | .onHooks flow k limit =>
    if (w.graph? flow).any fun g => g.hooks.isSettled then some (w, .inr k)
    else (limit.fired? w.clock).map fun k => (w, .inr k)
  | .draining flow d next =>
    ((w.graph? flow).bind fun g => w.stepDrain c flow g d).map fun
      | (w, .drain d) => (w, .inl (.draining flow d next))
      | (w, .drained failures) => (w, .inr (next failures))

/-- All tasks of a flow: its stages, or its tasks that run hooks. -/
def stageTasks (w : World) : List TaskId :=
  w.graphs.zipIdx.flatMap fun (g, flow) => (List.range g.stages.length).map (.stage flow)

@[inherit_doc stageTasks]
def hookTasks (w : World) : List TaskId :=
  w.graphs.zipIdx.flatMap fun (g, flow) => (List.range g.hookTasks.length).map (.hooks flow)

/-- Whether a task has ended. -/
def isOver (w : World) : TaskId → Bool
  | .stage flow n => (w.outcome? flow n).isSome
  | .hooks flow k =>
    match (w.graph? flow).bind fun g => g.hookTasks[k]? with
    | some .finished => true
    | _ => false

/-- Whether a task has a step. -/
def canStep (c : Completer) (w : World) (id : TaskId) : Bool := (w.step c id).isSome

/-! ## The next moment -/

/-- The moment at which a drain may go on by itself. -/
def drainMoments (d : Hooks.Drain BodyThread) : List Nat :=
  match d.running with
  | none => []
  | some r => r.limit :: (r.thread.alarm?.map Alarm.moment).toList

/-- The moments at which a task may go on by itself. -/
def momentsOf (w : World) : TaskId → List Nat
  | .stage flow n =>
    (((w.graph? flow).bind fun g => g.stages[n]?).bind fun s => s.phase.moment?).toList
  | .hooks flow k =>
    match (w.graph? flow).bind fun g => g.hookTasks[k]? with
    | some (.draining d _) => drainMoments d
    | _ => []

end World

/-- The moments at which a session may go on by itself. -/
def Caller.moments {κ : Type} : Caller κ → List Nat
  | .thread t => (t.alarm?.map Alarm.moment).toList
  | .settling _ => []
  | .onTermination _ _ limit => [limit.moment]
  | .onHooks _ _ limit => [limit.moment]
  | .draining _ d _ => World.drainMoments d

namespace Schedule

variable {α : Type}

/-- A session that begins. -/
def start (p : Session α) (w : World) : Schedule α := ⟨w, .thread (.going p), .caller, [], []⟩

/-- Puts tasks that were made or woken at the end of the queue. -/
def refresh (c : Completer) (s : Schedule α) : Schedule α :=
  let known := s.queue ++ s.parked
  let isNew (id : TaskId) : Bool := !known.contains id && !s.world.isOver id
  let (woken, parked) := s.parked.partition fun id => s.world.canStep c id
  { s with
    queue := s.queue ++ s.world.stageTasks.filter isNew ++ woken ++ s.world.hookTasks.filter isNew
    parked := parked }

/-- Ends a turn. -/
def yield (c : Completer) (s : Schedule α) : Schedule α := { s.refresh c with turn := .none }

/-- Ends the turn of a task that has no step now. -/
def park (c : Completer) (s : Schedule α) (id : TaskId) : Schedule α :=
  if s.world.isOver id then s.yield c else { s with parked := s.parked ++ [id] }.yield c

/-- The next moment at which anything may go on by itself. -/
def nextMoment? (s : Schedule α) : Option Nat :=
  ((s.caller.moments ++ s.parked.flatMap s.world.momentsOf).filter (s.world.clock < ·)).min?

/-- Lets the clock jump; the session comes first. -/
def jump (c : Completer) (s : Schedule α) (moment : Nat) : Schedule α :=
  { { s with world := { s.world with clock := moment } }.refresh c with turn := .caller }

/-- What is there when the session has ended. -/
abbrev Result (α : Type) := World × Except Panic α

/-- One round of the session. -/
def roundCaller (c : Completer) (s : Schedule α) (idle : Bool) : Option (Schedule α ⊕ Result α) :=
  (s.world.resumeCaller c idle s.caller).map fun
    | (w, .inl caller) => .inl { s with world := w, caller := caller, turn := .caller }
    | (w, .inr (.done a)) => .inr (w, .ok a)
    | (w, .inr (.panic p)) => .inr (w, .error p)
    | (w, .inr (.ask q next)) =>
      let (w, caller) := w.poseCaller c q next
      .inl { s with world := w, caller := caller, turn := .caller }

/-- One round: the schedule after it, or the result of the session; nothing if nothing can ever
go on. -/
def round (c : Completer) (s : Schedule α) : Option (Schedule α ⊕ Result α) :=
  match s.turn, s.queue with
  | .caller, _ => (s.roundCaller c false).or (some (.inl (s.yield c)))
  | .task id, _ =>
    match s.world.step c id with
    | some w => some (.inl { s with world := w })
    | none => some (.inl (s.park c id))
  | .none, id :: rest => some (.inl { s with turn := .task id, queue := rest })
  | .none, [] => (s.roundCaller c true).or (s.nextMoment?.map fun m => .inl (s.jump c m))

/-- Runs a schedule for at most so many rounds, until its session has ended. -/
def run (c : Completer) : Nat → Schedule α → Option (Result α)
  | 0, _ => none
  | rounds + 1, s =>
    match s.round c with
    | none => none
    | some (.inl s) => run c rounds s
    | some (.inr r) => some r

end Schedule

end StageGraph
