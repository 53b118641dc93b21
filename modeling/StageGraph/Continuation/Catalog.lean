/-
# `StageGraph.Continuation.Catalog` — finding and running bodies

A catalog holds continuations under names; the last one registered under a name
counts.  Running a body for a stage never fails: a name that is not there, a
wrong number of arguments, an error and a panic each become a failure of the
stage.
-/
import StageGraph.Continuation.Basic

namespace StageGraph

/-- Continuations under names, in ascending order of the names. -/
structure Catalog where
  entries : List (String × Continuation)

namespace Catalog

/-- Puts an entry at its place; one of the same name is replaced. -/
def put (name : String) (c : Continuation) :
    List (String × Continuation) → List (String × Continuation)
  | [] => [(name, c)]
  | (n, d) :: rest =>
    if name = n then (name, c) :: rest
    else if name < n then (name, c) :: (n, d) :: rest
    else (n, d) :: put name c rest

/-- Registers a continuation. -/
def register (k : Catalog) (name : String) (c : Continuation) : Catalog := ⟨put name c k.entries⟩

/-- The catalog with nothing but the built-in entry. -/
def initial : Catalog := ⟨[(Closure.capturedEntry, .captured)]⟩

/-- The initial catalog with more entries, registered in their order. -/
def ofList (entries : List (String × Continuation)) : Catalog :=
  entries.foldl (fun k e => k.register e.1 e.2) initial

/-- The names of all entries, in ascending order. -/
def names (k : Catalog) : List String := k.entries.map Prod.fst

/-- The continuation of a name. -/
def find? (k : Catalog) (name : String) : Option Continuation :=
  (k.entries.find? fun e => e.1 = name).map Prod.snd

/-- The kind of the continuation of a name. -/
def kind? (k : Catalog) (name : String) : Option BodyKind := (k.find? name).map Continuation.kind

/-- The result recorded for a body that has ended. -/
def recorded : Except Panic (Except Report Datum) → Outcome
  | .ok (.ok d) => .success d
  | .ok (.error r) => r.toOutcome
  | .error p => p.toOutcome

/-- The failure of a stage whose body is not registered. -/
def unregistered (entry : String) : Outcome :=
  .failure (.failure .functionInvokeFailed s!"no continuation registered for entry '{entry}'")

/-- The failure of a stage that supplies another number of arguments than its body takes. -/
def wrongArity (kind : BodyKind) (entry : String) (count : Nat) : Outcome :=
  .failure (.failure .invalidStageResponse
    s!"{kind.name} '{entry}' takes {kind.arity} argument(s) but the stage supplied {count}")

/-- Runs the body that a stage asks for, with the flow of the stage as the current one. -/
def invoke (k : Catalog) (r : Invocation) : FlowProgram bodySignature Outcome :=
  match k.find? r.closure.entry with
  | none => .done (unregistered r.closure.entry)
  | some c =>
    if r.args.length = c.kind.arity then
      (FlowProgram.scope r.flow (c.run r.closure r.args).run).attempt.bind fun ended =>
        .done (recorded ended)
    else .done (wrongArity c.kind r.closure.entry r.args.length)

/-- The same from one document to another. -/
def invokeDocument (k : Catalog) (document : Bytes) : FlowM bodySignature Bytes := do
  let r ← FlowM.ofExcept ((Invocation.codec.decode document).mapError fun f =>
    .codec (.invocation f))
  let o ← ExceptT.lift (k.invoke r)
  return Message.invoked.encode o

end Catalog

end StageGraph
