/-
# `StageGraph.Scenario.Run` — what the steps of a scenario do

Every step is a program that drives a completer.  A wait for a stage or for the
end of a flow is given up after an hour of the clock.  A step that means a flow that is not there,
or that cannot be read, ends the list of steps in which it stands; what was done before stays done.
-/
import StageGraph.Scenario.Basic

namespace StageGraph.Scenario

open StageGraph.Wire (Codec)

/-- How long a wait may take. -/
def patience : Nat := 3600000

/-- Runs a program, and gives up when it waits too long. -/
def patiently {α : Type} (p : Session α) : Session (Option α) := do
  let now ← Session.question .now
  Session.within (now + patience) p

/-- The answer of something that may fail. -/
def answerOf {α : Type} (f : α → Answer) : Except FlowError α → Answer
  | .ok a => f a
  | .error e => .error e

/-- The answer of a wait that may fail or be given up. -/
def waitAnswer {α : Type} (f : α → Answer) : Option (Except FlowError α) → Answer
  | some r => answerOf f r
  | none => .pending

/-- Waits as long as the patience lasts. -/
def await {α : Type} (p : FlowM sessionSignature α) (f : α → Answer) : Session Answer := do
  return waitAnswer f (← patiently p.run)

/-- Makes a stage and gives it a name. -/
def making (b : Book) (name : String) (p : FlowM sessionSignature Handle) :
    Session (Answer × Book) := do
  match ← p.run with
  | .ok h => return (.stage h.stage, b.addHandle name h)
  | .error e => return (.error e, b)

/-- Makes a stage out of a handle that has to be there. -/
def makingFrom (b : Book) (on name : String) (p : Handle → FlowM sessionSignature Handle) :
    Session (Answer × Book) :=
  match b.handle? on with
  | some h => making b name (p h)
  | none => return (.noHandle, b)

/-- Makes a stage out of two handles that have to be there. -/
def makingFromTwo (b : Book) (on other name : String)
    (p : Handle → Handle → FlowM sessionSignature Handle) : Session (Answer × Book) :=
  match b.handle? on, b.handle? other with
  | some h, some k => making b name (p h k)
  | _, _ => return (.noHandle, b)

/-- Makes a stage out of handles that have to be there; `find` looks one up. -/
def makingFromAll (b : Book) (find : String → Option Handle) (on : List String) (name : String)
    (p : List Handle → FlowM sessionSignature Handle) : Session (Answer × Book) :=
  match on.mapM find with
  | some hs => making b name (p hs)
  | none => return (.noHandle, b)

/-- Looks at a handle that has to be there. -/
def looking (b : Book) (on : String) (p : Handle → Session Answer) : Session (Answer × Book) :=
  match b.handle? on with
  | some h => return (← p h, b)
  | none => return (.noHandle, b)

/-- An answer that leaves the book as it is. -/
def keeping (b : Book) (p : Session Answer) : Session (Answer × Book) := return (← p, b)

/-- The operation of a transform. -/
def Transform.apply (t : Transform) (h : Handle) (body : Closure) :
    FlowM sessionSignature Handle :=
  match t with
  | thenApply => h.thenApply body
  | thenCompose => h.thenCompose body
  | exceptionally => h.exceptionally body
  | exceptionallyCompose => h.exceptionallyCompose body
  | handle => h.handle body
  | whenComplete => h.whenComplete body

/-- What is current. -/
def lookCurrent : Session Answer := do
  let flow ← (FlowM.currentFlow : FlowM sessionSignature FlowId).run
  let spawned ← FlowProgram.detached (FlowM.currentFlow : FlowM sessionSignature FlowId).run
  return .current ⟨flow.isOk, flow, spawned.isOk⟩

/-- Whether a flow is current. -/
def isActive : Session Bool := do
  return ((← (FlowM.currentFlow : FlowM sessionSignature FlowId).run).isOk)

/-- Retrieves a handle that a results handle gave. -/
def retrieve (flow : FlowId) (h : Handle) : FlowM sessionSignature Retrieved := do
  let value ← ExceptT.lift (h.get Codec.value).run
  return ⟨h.stage, h.flow = flow, value⟩

/-- Retrieves all handles of a results handle. -/
def retrieveAll (r : ResultsHandle) : FlowM sessionSignature (List Retrieved) := do
  (← r.get).mapM (retrieve r.inner.flow)

/-- A default as the type shows it. -/
def shownDefault (default : Json.Value) (type : Wire.ValueType) : Json.Value :=
  ((type.codec).ofValue default).toOption.getD default

/-- Ends the body of a function. -/
def Finish.run (b : Book) : Finish → Session (Except Panic (Except Report Json.Value))
  | value v => return .ok (.ok v)
  | error r => return .ok (.error r)
  | panic p => return .error p
  | get on =>
    match b.handle? on with
    | none => return .ok (.error (.ofText "no_handle"))
    | some h => return .ok ((← (h.get Codec.value).run).mapError Report.ofFlow)

/-- What a list of steps leaves: the answers, the book, and the panic that ended it early. -/
structure Trace where
  answers : List Timed
  book : Book
  panic : Option Panic

/-- A step on a flow that has to be there. -/
def onFlow (b : Book) (f : FlowRef) (p : FlowId → Session (Answer × Book)) :
    Session (Except Panic (Answer × Book)) :=
  match b.flow f with
  | .ok flow => return .ok (← p flow)
  | .error panic => return .error panic

/-- A step that asks one question about a flow that has to be there. -/
def asking {α : Type} (b : Book) (f : FlowRef) (p : FlowId → Session (Except FlowError α))
    (answer : α → Answer) : Session (Except Panic (Answer × Book)) :=
  onFlow b f fun flow => return (answerOf answer (← p flow), b)

/-- A step that waits for something of a flow that has to be there. -/
def awaiting {α : Type} (b : Book) (f : FlowRef)
    (p : FlowId → Nat → Session (Option (Except FlowError α))) (answer : α → Answer) :
    Session (Except Panic (Answer × Book)) :=
  onFlow b f fun flow => do
    let now ← Session.question .now
    return (waitAnswer answer (← p flow (now + patience)), b)

/-- A step that cannot mean a flow that is not there. -/
def safely (p : Session (Answer × Book)) : Session (Except Panic (Answer × Book)) :=
  return .ok (← p)

/-- Makes a results handle. -/
def makingResults (b : Book) (flow : FlowId) (on : List String) (name : String) :
    Session (Answer × Book) :=
  match on.mapM b.handle? with
  | none => return (.noHandle, b)
  | some hs => do
    match ← (flow.allResults hs : FlowM sessionSignature ResultsHandle).run with
    | .ok r => return (.stage r.inner.stage, b.addResults name r)
    | .error e => return (.error e, b)

mutual

/-- What a step does. -/
def Step.perform (b : Book) : Step → Session (Except Panic (Answer × Book))
  | .create function => safely do
    match ← (FlowM.call (.createFlow function) : FlowM sessionSignature FlowId).run with
    | .ok f => return (.flow f, b.addFlow f)
    | .error e => return (.error e, b)
  | .attach f stage name => onFlow b f fun flow => return (.ok, b.addHandle name ⟨flow, stage⟩)
  | .supply f body name => onFlow b f fun flow => making b name (flow.supply body)
  | .completed f v name => onFlow b f fun flow => making b name (flow.completed v)
  | .failed f d name => onFlow b f fun flow => making b name (flow.failed d)
  | .delay f d name => onFlow b f fun flow => making b name (flow.delay d)
  | .transform t on body name => safely (makingFrom b on name fun h => t.apply h body)
  | .thenCombine on other body name =>
    safely (makingFromTwo b on other name fun h k => h.thenCombine k body)
  | .applyToEither on other body name =>
    safely (makingFromTwo b on other name fun h k => h.applyToEither k body)
  | .allOf f on name => onFlow b f fun flow => makingFromAll b b.any? on name flow.allOf
  | .anyOf f on name => onFlow b f fun flow => makingFromAll b b.handle? on name flow.anyOf
  | .allResults f on name => onFlow b f fun flow => makingResults b flow on name
  | .addStage f r name => onFlow b f fun flow => making b name (flow.addStage r)
  | .addCompleted f o name => onFlow b f fun flow => making b name (flow.addCompleted o)
  | .addHook f body => asking b f (fun flow => (flow.addHook body : FlowM _ _).run) fun _ => .ok
  | .commit f s =>
    asking b f (fun flow => (FlowM.call (.commit flow s) : FlowM sessionSignature Unit).run)
      fun _ => .ok
  | .result on => safely (looking b on fun h => await h.result .outcome)
  | .get on type => safely (looking b on fun h => await (h.get type.codec) .value)
  | .getTimeout on d type => safely (looking b on fun h =>
    await (h.getTimeout d type.codec) .value)
  | .getNow on default type => safely (looking b on fun h => do
    return answerOf .value (← (h.getNow (shownDefault default type) type.codec).run))
  | .resultsGet on => safely <|
    match b.results? on with
    | none => return (.noHandle, b)
    | some r => keeping b (await (retrieveAll r) .handles)
  | .advance d => safely (keeping b do
    let _ ← FlowProgram.question (E := sessionSignature) (.sleep d)
    return .ok)
  | .current => safely (keeping b lookCurrent)
  | .scope f steps =>
    match b.flow f with
    | .error panic => return .error panic
    | .ok flow => do
      let t ← FlowProgram.scope flow (performAll b steps)
      match t.panic with
      | some p => return .error p
      | none => return .ok (.scope t.answers, t.book)
  | .run function steps finish => do
    match ← (FlowM.call (.createFlow function) : FlowM sessionSignature FlowId).run with
    | .error e => return .ok (.error e, b)
    | .ok flow =>
      let (t, ended) ← FlowProgram.scope flow do
        let t ← performAll (b.addFlow flow) steps
        match t.panic with
        | some p => return (t, .error p)
        | none => return (t, ← finish.run t.book)
      let r ← FunctionRun.conclude flow ended
      return .ok (.run r (← isActive) t.answers, t.book)
  | .stageCount f => asking b f (fun flow => Session.question (.stageCount flow)) .count
  | .flowCount => safely (keeping b do return .count (← Session.question .flowCount))
  | .removeFlow f => asking b f (fun flow => Session.question (.removeFlow flow)) fun _ => .ok
  | .awaitTermination f =>
    awaiting b f (fun flow m => Session.question (.termination m flow)) .state
  | .hooks f => asking b f (fun flow => Session.question (.hookStatus flow)) .hooks
  | .hooksSettled f =>
    awaiting b f (fun flow m => Session.question (.hooksSettled m flow)) fun _ => .ok
  | .endHooks f s => asking b f (fun flow => Session.question (.endHooks flow s)) .failures
  | .unreadable message => return .error (.text message)

/-- Runs steps one after another, each until all is at rest. -/
def performAll (b : Book) : List Step → Session Trace
  | [] => return ⟨[], b, none⟩
  | step :: rest => do
    match ← step.perform b with
    | .error p => return ⟨[], b, some p⟩
    | .ok (answer, b) =>
      Session.question .settle
      let now ← Session.question .now
      let t ← performAll b rest
      return { t with answers := (answer, now) :: t.answers }

end

/-- A whole scenario. -/
def session (steps : List Step) : Session Trace := performAll .empty steps

end StageGraph.Scenario
