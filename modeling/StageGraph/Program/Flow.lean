/-
# `StageGraph.Program.Flow` — what programs on flows ask for

Bodies, hooks and functions call a completer, wait a while, want to know which
flow is current, and leave traces of what they do.  These are the questions of
every program on flows; a signature `E` adds the questions that only some
programs may ask.  Bodies and hooks add one: whoever holds an in-process
completer may have it forget a flow, and a body may hold the one that it runs in.

Which flow is current is a question like any other.  `scope` answers it for a
program, so the answer depends on the innermost scope around the question and
on nothing else; a program that is started on its own stands in no scope.
-/
import StageGraph.Program.Request

namespace StageGraph

/-- A question of a program on flows. -/
inductive Question (E : Signature) where
  /-- Calls the completer. -/
  | call (r : Request)
  /-- Waits for a while. -/
  | sleep (d : Duration)
  | currentFlow
  /-- Writes a line of the log. -/
  | log (line : String)
  /-- Notes that the body of an entry runs. -/
  | ran (entry : String)
  | other (q : E.Question)

/-- The answer to a question. -/
abbrev Question.Answer {E : Signature} : Question E → Type
  | call r => r.Answer
  | sleep _ => Unit
  | currentFlow => Option FlowId
  | log _ => Unit
  | ran _ => Unit
  | other q => E.Answer q

/-- The questions of programs on flows. -/
abbrev flowSignature (E : Signature) : Signature := ⟨Question E, Question.Answer⟩

/-- What a body may ask besides the questions of every program. -/
inductive BodyQuestion where
  /-- Has the completer forget a flow that has ended. -/
  | removeFlow (flow : FlowId)
deriving Repr

/-- The answer to such a question. -/
abbrev BodyQuestion.Answer : BodyQuestion → Type
  | removeFlow _ => Except FlowError Unit

/-- The additional questions of bodies and hooks. -/
abbrev bodySignature : Signature := ⟨BodyQuestion, BodyQuestion.Answer⟩

/-- A program on flows. -/
abbrev FlowProgram (E : Signature) := Program (flowSignature E)

/-- A program on flows that may fail with a flow error. -/
abbrev FlowM (E : Signature) := ExceptT FlowError (FlowProgram E)

/-- A program on flows that may fail with any error. -/
abbrev BodyM (E : Signature) := ExceptT Report (FlowProgram E)

namespace FlowProgram

variable {E : Signature} {α : Type}

/-- Asks one question. -/
def question (q : Question E) : FlowProgram E q.Answer := Program.question (S := flowSignature E) q

/-- The answer inside a scope: the flow of the scope is the current one. -/
def currentIs (flow : Option FlowId) : (q : Question E) → Option q.Answer
  | .currentFlow => some flow
  | _ => none

/-- Runs a program with a flow as the current one. -/
def scope (flow : FlowId) (p : FlowProgram E α) : FlowProgram E α :=
  p.answering (currentIs (some flow))

/-- Runs a program on its own, outside every scope. -/
def detached (p : FlowProgram E α) : FlowProgram E α := p.answering (currentIs none)

end FlowProgram

namespace FlowM

variable {E : Signature} {α : Type}

/-- Calls the completer. -/
def call (r : Request) : FlowM E r.Value := ExceptT.mk (FlowProgram.question (.call r))

/-- The current flow. -/
def currentFlow : FlowM E FlowId :=
  ExceptT.mk ((FlowProgram.question .currentFlow).bind fun
    | some f => .done (.ok f)
    | none => .done (.error .noActiveFlow))

/-- The current flow, by its other name. -/
def currentRuntime : FlowM E FlowId := currentFlow

/-- A result inside a program. -/
def ofExcept (r : Except FlowError α) : FlowM E α := ExceptT.mk (.done r)

end FlowM

namespace BodyM

variable {E : Signature} {α : Type}

/-- A flow operation inside a body: its error becomes the body's. -/
def ofFlow (p : FlowM E α) : BodyM E α :=
  ExceptT.mk (p.run.bind fun r => .done (r.mapError Report.ofFlow))

instance : MonadLift (FlowM E) (BodyM E) := ⟨ofFlow⟩

/-- A result with a flow error inside a body. -/
def ofExcept (r : Except FlowError α) : BodyM E α := ExceptT.mk (.done (r.mapError Report.ofFlow))

/-- Asks one question inside a body. -/
def question (q : Question E) : BodyM E q.Answer := ExceptT.lift (FlowProgram.question q)

/-- Fails. -/
def fail (r : Report) : BodyM E α := ExceptT.mk (.done (.error r))

/-- Panics. -/
def panic (p : Panic) : BodyM E α := ExceptT.mk (.panic p)

/-- Waits for a while. -/
def sleep (d : Duration) : BodyM E Unit := question (.sleep d)

/-- Writes a line of the log. -/
def log (line : String) : BodyM E Unit := question (.log line)

end BodyM

end StageGraph
