/-
# `StageGraph.Client.Basic` — programs over a client that answers at once

A client answers every call without waiting and may remember something from one
call to the next.  A program runs over it without any schedule: time passes only
while the program sleeps, and nothing else happens meanwhile.
-/
import StageGraph.Program.Session

namespace StageGraph

/-- A client with a memory of type `σ`. -/
structure Client (σ : Type) where
  call : (r : Request) → σ → r.Answer × σ

/-- The state of a program that runs over a client. -/
structure Visit (σ : Type) where
  /-- The time in milliseconds. -/
  clock : Nat
  /-- What the program has logged. -/
  log : List String
  /-- The entries whose bodies have run. -/
  ran : List String
  memory : σ
deriving Repr

namespace Visit

variable {σ : Type}

/-- A visit that begins. -/
def start (memory : σ) : Visit σ := ⟨0, [], [], memory⟩

end Visit

namespace Client

variable {σ α : Type} {E : Signature}

/-- Calls the client. -/
def ask (c : Client σ) (r : Request) (v : Visit σ) : r.Answer × Visit σ :=
  let (a, memory) := c.call r v.memory
  (a, { v with memory := memory })

/-- Answers a question; `other` answers those that not every program may ask. -/
def answer (c : Client σ) (other : (q : E.Question) → Visit σ → E.Answer q × Visit σ) :
    (q : Question E) → Visit σ → q.Answer × Visit σ
  | .call r, v => c.ask r v
  | .sleep d, v => ((), { v with clock := v.clock + d.ticks })
  | .currentFlow, v => (none, v)
  | .log line, v => ((), { v with log := v.log ++ [line] })
  | .ran entry, v => ((), { v with ran := v.ran ++ [entry] })
  | .other q, v => other q v

/-- Answers the questions of a session: no flow can be looked into. -/
def answerSession (c : Client σ) : (q : SessionQuestion) → Visit σ → q.Answer × Visit σ
  | .now, v => (v.clock, v)
  | .settle, v => ((), v)
  | .callUntil _ r, v =>
    let (a, v) := c.ask r v
    (some a, v)
  | .termination _ flow, v => (some (.error (.unknownFlow flow)), v)
  | .hooksSettled _ flow, v => (some (.error (.unknownFlow flow)), v)
  | .endHooks flow _, v => (.error (.unknownFlow flow), v)
  | .stageCount flow, v => (.error (.unknownFlow flow), v)
  | .flowCount, v => (0, v)
  | .removeFlow flow, v => (.error (.unknownFlow flow), v)
  | .hookStatus flow, v => (.error (.unknownFlow flow), v)

/-- Runs a session over the client. -/
def run (c : Client σ) (p : Session α) (memory : σ) : Except Panic α × Visit σ :=
  p.runIn (c.answer c.answerSession) (.start memory)

/-- Answers the question of a body: no flow can be forgotten. -/
def answerBody : (q : BodyQuestion) → Visit σ → q.Answer × Visit σ
  | .removeFlow flow, v => (.error (.unknownFlow flow), v)

/-- Runs a body over the client. -/
def runPlain (c : Client σ) (p : FlowProgram bodySignature α) (memory : σ) :
    Except Panic α × Visit σ :=
  p.runIn (c.answer (E := bodySignature) answerBody) (.start memory)

end Client

end StageGraph
