/-
# `StageGraph.Program.Session` — programs that drive a completer from outside

A session calls a completer as any program does.  Besides, it may let everything
run that needs no time, read the clock, look into the completer, and give up
waiting at a moment of its choice.  Bodies and hooks cannot do these things.
-/
import StageGraph.Program.Flow
import StageGraph.Hooks.Registry

namespace StageGraph

/-- What a session may ask besides the questions of every program.  Where a moment is given, the
answer is missing if the session would have to wait beyond it. -/
inductive SessionQuestion where
  /-- The time in milliseconds. -/
  | now
  /-- Lets everything run that can run without time passing. -/
  | settle
  | callUntil (moment : Nat) (r : Request)
  /-- The state in which a flow has ended. -/
  | termination (moment : Nat) (flow : FlowId)
  /-- Waits until no hook of a flow is left to run. -/
  | hooksSettled (moment : Nat) (flow : FlowId)
  /-- Ends the hooks of a flow directly, and runs them. -/
  | endHooks (flow : FlowId) (s : FlowState)
  | stageCount (flow : FlowId)
  | flowCount
  | removeFlow (flow : FlowId)
  | hookStatus (flow : FlowId)
deriving Repr

/-- The answer to such a question. -/
abbrev SessionQuestion.Answer : SessionQuestion → Type
  | now => Nat
  | settle => Unit
  | callUntil _ r => Option r.Answer
  | termination .. => Option (Except FlowError FlowState)
  | hooksSettled .. => Option (Except FlowError Unit)
  | endHooks .. => Except FlowError (List HookFailure)
  | stageCount _ => Except FlowError Nat
  | flowCount => Nat
  | removeFlow _ => Except FlowError Unit
  | hookStatus _ => Except FlowError Hooks.Status

/-- The additional questions of a session. -/
abbrev sessionSignature : Signature := ⟨SessionQuestion, SessionQuestion.Answer⟩

/-- A program that drives a completer. -/
abbrev Session := FlowProgram sessionSignature

namespace Session

variable {α : Type}

/-- Asks one of the questions of a session. -/
def question (q : SessionQuestion) : Session q.Answer :=
  FlowProgram.question (E := sessionSignature) (.other q)

/-- Gives up a program that would have to wait for a call beyond a moment. -/
def within (moment : Nat) : Session α → Session (Option α)
  | .done a => .done (some a)
  | .panic p => .panic p
  | .ask (.call r) next =>
    .ask (.other (.callUntil moment r)) fun
      | none => .done none
      | some x => within moment (next x)
  | .ask q next => .ask q fun x => within moment (next x)

end Session

end StageGraph
