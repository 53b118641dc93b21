/-
# `StageGraph.Scenario.Basic` — steps that build and inspect flows

A scenario is a list of steps.  Each makes one call, or looks at one result, and
gives an answer together with the time at which everything that it set going and
that needs no time has come to rest.

Flows are meant by their position among those created so far, or by their names;
stages by names that earlier steps gave to them.
-/
import StageGraph.Flow.FunctionRun
import StageGraph.Flow.Handle
import StageGraph.Program.Session
import StageGraph.Wire.ValueType

namespace StageGraph.Scenario

open StageGraph.Wire (ValueType)

/-- Which flow is meant. -/
inductive FlowRef where
  | position (n : Nat)
  | named (flow : FlowId)
deriving DecidableEq, Repr

/-- How the body of a function ends. -/
inductive Finish where
  | value (v : Json.Value)
  | error (r : Report)
  | panic (p : Panic)
  /-- With the value of a stage. -/
  | get (on : String)
deriving Repr

/-- The operations on the stage of one handle. -/
inductive Transform where
  | thenApply
  | thenCompose
  | exceptionally
  | exceptionallyCompose
  | handle
  | whenComplete
deriving DecidableEq, Repr

/-- A step. -/
inductive Step where
  | create (function : String)
  /-- A handle of any stage, whether or not it exists. -/
  | attach (flow : FlowRef) (stage : StageId) (name : String)
  | supply (flow : FlowRef) (body : Closure) (name : String)
  | completed (flow : FlowRef) (v : Json.Value) (name : String)
  | failed (flow : FlowRef) (d : Datum) (name : String)
  | delay (flow : FlowRef) (d : Duration) (name : String)
  | transform (t : Transform) (on : String) (body : Closure) (name : String)
  | thenCombine (on other : String) (body : Closure) (name : String)
  | applyToEither (on other : String) (body : Closure) (name : String)
  | allOf (flow : FlowRef) (on : List String) (name : String)
  | anyOf (flow : FlowRef) (on : List String) (name : String)
  | allResults (flow : FlowRef) (on : List String) (name : String)
  | addStage (flow : FlowRef) (r : StageRequest) (name : String)
  | addCompleted (flow : FlowRef) (o : Outcome) (name : String)
  | addHook (flow : FlowRef) (body : Closure)
  | commit (flow : FlowRef) (s : FlowState)
  | result (on : String)
  | get (on : String) (type : ValueType)
  | getTimeout (on : String) (d : Duration) (type : ValueType)
  | getNow (on : String) (default : Json.Value) (type : ValueType)
  | resultsGet (on : String)
  | advance (d : Duration)
  | current
  | scope (flow : FlowRef) (steps : List Step)
  | run (function : String) (steps : List Step) (finish : Finish)
  | stageCount (flow : FlowRef)
  | flowCount
  | removeFlow (flow : FlowRef)
  | awaitTermination (flow : FlowRef)
  | hooks (flow : FlowRef)
  | hooksSettled (flow : FlowRef)
  | endHooks (flow : FlowRef) (s : FlowState)
  /-- A step that cannot be read, and what is said of it. -/
  | unreadable (message : String)
deriving Inhabited

/-- What is current. -/
structure Current where
  active : Bool
  flow : Except FlowError FlowId
  /-- Whether a flow is current in a program that is started on its own. -/
  spawned : Bool

/-- A handle that a results handle gave. -/
structure Retrieved where
  stage : StageId
  sameFlow : Bool
  value : Except FlowError Json.Value

/-- The answer of a step. -/
inductive Answer where
  | ok
  | flow (id : FlowId)
  | stage (id : StageId)
  | error (e : FlowError)
  /-- A name that no step gave to a stage. -/
  | noHandle
  /-- The wait was given up. -/
  | pending
  | outcome (o : Outcome)
  | value (v : Json.Value)
  | handles (hs : List Retrieved)
  | current (c : Current)
  | scope (steps : List (Answer × Nat))
  | run (r : FunctionRun Json.Value) (activeAfter : Bool) (steps : List (Answer × Nat))
  | count (n : Nat)
  | state (s : FlowState)
  | hooks (s : Hooks.Status)
  | failures (fs : List HookFailure)

/-- An answer with the time after its step. -/
abbrev Timed := Answer × Nat

/-- What earlier steps have made. -/
structure Book where
  flows : List FlowId
  handles : List (String × Handle)
  results : List (String × ResultsHandle)

namespace Book

/-- Nothing yet. -/
def empty : Book := ⟨[], [], []⟩

/-- The flow that is meant; a position that is not there is a panic. -/
def flow (b : Book) : FlowRef → Except Panic FlowId
  | .named f => .ok f
  | .position n =>
    match b.flows[n]? with
    | some f => .ok f
    | none =>
      .error (.text s!"index out of bounds: the len is {b.flows.length} but the index is {n}")

/-- The handle of a name. -/
def handle? (b : Book) (name : String) : Option Handle := b.handles.lookup name

/-- The results handle of a name. -/
def results? (b : Book) (name : String) : Option ResultsHandle := b.results.lookup name

/-- The stage of a name, whichever handle it is. -/
def any? (b : Book) (name : String) : Option Handle :=
  (b.handle? name).or ((b.results? name).map ResultsHandle.inner)

def addFlow (b : Book) (f : FlowId) : Book := { b with flows := b.flows ++ [f] }

def addHandle (b : Book) (name : String) (h : Handle) : Book :=
  { b with handles := (name, h) :: b.handles }

def addResults (b : Book) (name : String) (r : ResultsHandle) : Book :=
  { b with results := (name, r) :: b.results }

end Book

end StageGraph.Scenario
