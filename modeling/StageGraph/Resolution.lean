/-
# `StageGraph.Resolution` — how a stage follows from its inputs

The rules by which a stage whose inputs are ready is resolved: whether it ends
at once, and with which result, or runs its body, and with which arguments.
They depend on the operation and the inputs' results alone, so every completer
applies the same.

* A transform forwards its parent's failure without running its body.
* `exceptionally` and `exceptionallyCompose` forward success and run on failure.
* `handle` and `whenComplete` run on either outcome; `whenComplete` then
  forwards its parent's result, whatever the body did.
* `thenCombine` runs once both parents succeeded; otherwise the first failed
  parent, in the order of the inputs, decides.
* `allOf` ends with success, whatever its inputs did; `anyOf` takes the first
  terminal input as it is.
-/
import StageGraph.Error.Report

namespace StageGraph

/-- What a stage waits for before it can be resolved. -/
inductive Readiness where
  | immediate
  | allInputs
  | firstInput
deriving DecidableEq, Repr

/-- What to do with a stage whose inputs are ready. -/
inductive Resolution where
  /-- It ends with this result. -/
  | complete (o : Outcome)
  /-- Its body runs with these arguments. -/
  | invoke (args : List Outcome)
  /-- Its body runs with these arguments, and it ends with `forward` once the body has ended. -/
  | observe (args : List Outcome) (forward : Outcome)
deriving DecidableEq, Repr

/-- What to do with the result of a body that names a stage. -/
inductive Composition where
  | adopt (stage : StageId)
  | complete (o : Outcome)
deriving DecidableEq, Repr

namespace Operation

/-- What stages of an operation wait for. -/
def readiness : Operation → Readiness
  | anyOf | applyToEither => .firstInput
  | supply | delay | completedValue | terminationHook => .immediate
  | thenApply | thenCompose | exceptionally | exceptionallyCompose | handle | whenComplete
  | thenCombine | allOf => .allInputs

/-- Whether the number of inputs fits the operation. -/
def checkInputs (op : Operation) (count : Nat) : Except FlowError Unit :=
  match op, op.kind with
  | thenCombine, _ | applyToEither, _ =>
    if count = 2 then .ok () else .error (.invalidArgument (.needsTwoInputs op count))
  | _, .barrier =>
    if count = 0 then .error (.invalidArgument .needsSomeInput) else .ok ()
  | _, .transform =>
    if count = 1 then .ok () else .error (.invalidArgument (.needsOneInput op count))
  | _, .source =>
    if count = 0 then .ok () else .error (.invalidArgument (.needsNoInputs op count))

/-- The result of the only parent. -/
def parent (op : Operation) : List Outcome → Except FlowError Outcome
  | [o] => .ok o
  | os => .error (.invalidArgument (.needsOneInput op os.length))

/-- The arguments of a body that runs on either outcome: a slot for the value and one for the
failure, of which one is empty. -/
def outcomeArgs (o : Outcome) : List Outcome :=
  if o.isSuccess then [o, .empty] else [.empty, o]

/-- How a stage is resolved, given the results of its inputs in order; for the operations that
wait for the first input only, that input's result alone. -/
def resolve (op : Operation) (inputs : List Outcome) : Except FlowError Resolution :=
  match op with
  | supply => .ok (.invoke [])
  | thenApply | thenCompose => do
    let p ← op.parent inputs
    .ok (if p.isFailure then .complete p else .invoke [p])
  | exceptionally | exceptionallyCompose => do
    let p ← op.parent inputs
    .ok (if p.isSuccess then .complete p else .invoke [p])
  | handle => do
    let p ← op.parent inputs
    .ok (.invoke (outcomeArgs p))
  | whenComplete => do
    let p ← op.parent inputs
    .ok (.observe (outcomeArgs p) p)
  | thenCombine => do
    op.checkInputs inputs.length
    match inputs.find? Outcome.isFailure with
    | some failed => .ok (.complete failed)
    | none => .ok (.invoke inputs)
  | applyToEither =>
    match inputs with
    | [] => .error (.invalidArgument (.needsCompletedInput op))
    | first :: _ => .ok (if first.isFailure then .complete first else .invoke [first])
  | allOf => .ok (.complete .empty)
  | anyOf =>
    match inputs with
    | [] => .error (.invalidArgument .needsSomeInput)
    | first :: _ => .ok (.complete first)
  | delay | completedValue | terminationHook => .error (.platform (.notResolvedFromInputs op))

end Operation

/-- What follows from the result of a body that names a stage to adopt. -/
def Outcome.compose : Outcome → Composition
  | .success (.stageRef s) => .adopt s
  | .success d =>
    .complete (.failure (.failure .invalidStageResponse
      s!"compose body returned a {d.kind} datum instead of a stage reference"))
  | .failure d => .complete (.failure d)

end StageGraph
