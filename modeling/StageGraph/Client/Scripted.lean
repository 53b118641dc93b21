/-
# `StageGraph.Client.Scripted` — a client with prepared answers

The scripted client takes the next of its prepared replies for each call, and
remembers the calls.  Where a reply is missing or does not fit, it succeeds: it
makes up names, counting only those, and stages that are waited for have
succeeded with nothing.
-/
import StageGraph.Client.Basic

namespace StageGraph

/-- A prepared reply. -/
inductive ScriptedReply where
  | error (e : FlowError)
  /-- The name of a new flow or stage. -/
  | name (text : String)
  /-- The result of a stage. -/
  | result (o : Outcome)
  /-- Nothing in particular. -/
  | unsaid
deriving DecidableEq, Repr

/-- The memory of a scripted client. -/
structure Script where
  replies : List ScriptedReply
  /-- The calls so far, in their order. -/
  requests : List Request
  /-- How many names have been made up. -/
  madeUp : Nat
deriving Repr

namespace Script

/-- Takes the next reply. -/
def next (s : Script) : ScriptedReply × Script :=
  match s.replies with
  | [] => (.unsaid, s)
  | r :: rest => (r, { s with replies := rest })

/-- Answers with a name: the one of the reply, or one that begins with `stem`. -/
def named (stem : String) (reply : ScriptedReply) (s : Script) : Except FlowError String × Script :=
  match reply with
  | .error e => (.error e, s)
  | .name text => (.ok text, s)
  | _ => (.ok s!"{stem}{s.madeUp}", { s with madeUp := s.madeUp + 1 })

/-- Answers with the name of a new stage. -/
def stage (reply : ScriptedReply) (s : Script) : Except FlowError StageId × Script :=
  let (name, s) := named "s" reply s
  (name.map StageId.mk, s)

/-- Answers with success, unless the reply is an error. -/
def confirmed : ScriptedReply → Except FlowError Unit
  | .error e => .error e
  | _ => .ok ()

/-- Answers with the result of a stage. -/
def awaited : ScriptedReply → Except FlowError Outcome
  | .error e => .error e
  | .result o => .ok o
  | _ => .ok .empty

/-- Answers a call by a reply. -/
def reply (reply : ScriptedReply) (s : Script) : (r : Request) → r.Answer × Script
  | .createFlow _ =>
    let (name, s) := named "flow-" reply s
    (name.map FlowId.mk, s)
  | .addStage .. => stage reply s
  | .addCompleted .. => stage reply s
  | .addDelay .. => stage reply s
  | .awaitStage .. => (awaited reply, s)
  | .addHook .. => (confirmed reply, s)
  | .commit .. => (confirmed reply, s)

/-- Answers a call and remembers it. -/
def call (r : Request) (s : Script) : r.Answer × Script :=
  let (reply, s) := s.next
  Script.reply reply { s with requests := s.requests ++ [r] } r

/-- The memory at the beginning. -/
def ofReplies (replies : List ScriptedReply) : Script := ⟨replies, [], 0⟩

/-- The client itself. -/
def client : Client Script := ⟨call⟩

end Script

end StageGraph
