/-
# `StageGraph.Completer.World` — an in-process completer and its calls

The completer holds the graphs of its flows and answers calls on them.  A call
changes at most one graph, and a call that fails changes none.  Waiting for a
stage is the only call that may not be answered at once; its answer is a thread
that waits.

Bodies are found in a catalog; hooks have a limit of time; the names of flows
are chosen by number.  These three are fixed for a completer.
-/
import StageGraph.Completer.Graph

namespace StageGraph

/-- What is fixed for an in-process completer. -/
structure Completer where
  catalog : Catalog
  /-- The time allowed to a hook. -/
  hookLimit : Duration
  /-- The name of the flow that is created after so many others. -/
  flowName : Nat → FlowId

/-- What changes in an in-process completer. -/
structure World where
  /-- The time in milliseconds. -/
  clock : Nat
  /-- The graphs of all flows in the order of their creation, removed ones too. -/
  graphs : List Graph
  /-- What programs have logged. -/
  log : List String
  /-- The entries whose bodies have run. -/
  ran : List String

namespace World

/-- No flows yet. -/
def empty : World := ⟨0, [], [], []⟩

/-- The graph at a position. -/
def graph? (w : World) (n : Nat) : Option Graph := w.graphs[n]?

/-- The result of a stage of the graph at a position. -/
def outcome? (w : World) (flow stage : Nat) : Option Outcome :=
  (w.graph? flow).bind fun g => g.outcome? stage

/-- The position and the graph of a flow that the completer knows. -/
def find (w : World) (flow : FlowId) : Except FlowError (Nat × Graph) :=
  match w.graphs.findIdx? fun g => g.id = flow && !g.removed with
  | some n =>
    match w.graph? n with
    | some g => .ok (n, g)
    | none => .error (.unknownFlow flow)
  | none => .error (.unknownFlow flow)

/-- Replaces the graph at a position. -/
def setGraph (w : World) (n : Nat) (g : Graph) : World := { w with graphs := w.graphs.set n g }

/-- Changes the graph of a flow; a failure leaves everything as it was. -/
def change {α : Type} (w : World) (flow : FlowId) (f : Graph → Except FlowError (Graph × α)) :
    World × Except FlowError α :=
  match w.find flow with
  | .error e => (w, .error e)
  | .ok (n, g) =>
    match f g with
    | .error e => (w, .error e)
    | .ok (g', a) => (w.setGraph n g', .ok a)

/-- The moment at which a while from now is over. -/
def after (w : World) (d : Duration) : Nat := w.clock + d.ticks

/-! ## The calls -/

/-- Makes a flow. -/
def createFlow (c : Completer) (w : World) : World × FlowId :=
  let id := c.flowName w.graphs.length
  ({ w with graphs := w.graphs ++ [.new id] }, id)

/-- What is asked of a new stage before its flow is looked up. -/
def checkRequest (r : StageRequest) : Except FlowError Unit := do
  r.operation.checkInputs r.deps.length
  if r.operation.hasBody && r.closure.isNone then
    .error (.invalidArgument (.needsBody r.operation))
  else if r.operation.hasOwnCall then
    .error (.invalidArgument (.hasOwnCall r.operation))
  else .ok ()

/-- Adds a stage whose inputs are stages of the graph. -/
def allocateResolved (r : StageRequest) (g : Graph) : Except FlowError (Graph × StageId) := do
  let deps ← r.deps.mapM g.slot?
  g.allocate ⟨r.operation, r.closure, deps, .initial r.operation deps⟩

/-- Makes a stage that is resolved from its inputs. -/
def addStage (w : World) (flow : FlowId) (r : StageRequest) : World × Except FlowError StageId :=
  match checkRequest r with
  | .error e => (w, .error e)
  | .ok () => w.change flow (allocateResolved r)

/-- Makes a stage that is terminal from the start. -/
def addCompleted (w : World) (flow : FlowId) (o : Outcome) : World × Except FlowError StageId :=
  w.change flow fun g => g.allocate ⟨.completedValue, none, [], .ended o⟩

/-- Makes a stage that ends after a while. -/
def addDelay (w : World) (flow : FlowId) (d : Duration) : World × Except FlowError StageId :=
  w.change flow fun g => g.allocate ⟨.delay, none, [], .delayed (w.after d)⟩

/-- Registers a hook. -/
def addHook (w : World) (flow : FlowId) (closure : Closure) : World × Except FlowError Unit :=
  w.change flow fun g => .ok (g.addHook closure, ())

/-- Commits a flow. -/
def commit (w : World) (flow : FlowId) (s : FlowState) : World × Except FlowError Unit :=
  w.change flow fun g => (g.commit s).map fun g' => (g', ())

/-- Waits for a stage: at once if it is terminal, never longer than `timeout`. -/
def awaitStage (w : World) (flow : FlowId) (stage : StageId) (timeout : Option Duration) :
    Thread (Except FlowError Outcome) :=
  match w.find flow with
  | .error e => .going (.error e)
  | .ok (n, g) =>
    match g.slot? stage with
    | .error e => .going (.error e)
    | .ok k => .onStage n k .ok (timeout.map fun d => ⟨w.after d, .error (.timeout stage)⟩)

/-- Answers a call. -/
def call (c : Completer) (w : World) : (r : Request) → World × Thread r.Answer
  | .createFlow _ =>
    let (w, id) := w.createFlow c
    (w, .going (.ok id))
  | .addStage flow r =>
    let (w, a) := w.addStage flow r
    (w, .going a)
  | .addCompleted flow o =>
    let (w, a) := w.addCompleted flow o
    (w, .going a)
  | .addDelay flow d =>
    let (w, a) := w.addDelay flow d
    (w, .going a)
  | .awaitStage flow stage timeout => (w, w.awaitStage flow stage timeout)
  | .addHook flow closure =>
    let (w, a) := w.addHook flow closure
    (w, .going a)
  | .commit flow s =>
    let (w, a) := w.commit flow s
    (w, .going a)

/-! ## What is offered besides the calls -/

/-- How many stages a flow has. -/
def stageCount (w : World) (flow : FlowId) : Except FlowError Nat :=
  (w.find flow).map fun (_, g) => g.stages.length

/-- How many flows the completer knows. -/
def flowCount (w : World) : Nat := (w.graphs.filter fun g => !g.removed).length

/-- Forgets a flow that has ended. -/
def removeFlow (w : World) (flow : FlowId) : World × Except FlowError Unit :=
  w.change flow fun g =>
    if g.terminated.isSome then .ok ({ g with removed := true }, ())
    else .error (.invalidArgument (.notTerminated flow))

/-- The view of a flow's hooks. -/
def hookStatus (w : World) (flow : FlowId) : Except FlowError Hooks.Status :=
  (w.find flow).map fun (_, g) => g.hooks.status

end World

end StageGraph
