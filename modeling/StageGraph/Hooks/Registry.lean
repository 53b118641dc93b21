/-
# `StageGraph.Hooks.Registry` — the termination hooks of one flow

Hooks are run once the flow is terminal: each once, in the order of their
registration, one at a time, and with the state in which the flow ended.  A
hook that fails is recorded and never keeps the later ones from running.

The registry itself only does the accounting.  Running through the pending
hooks is called a drain; `register` and `terminate` say whether a drain has to
start, `next?` takes the next hook or ends the drain, `record` counts a hook
that has ended.
-/
import StageGraph.Error.Report
import StageGraph.Time.Duration

namespace StageGraph.Hooks

/-- A hook that waits to be run, with its position. -/
structure Pending (β : Type) where
  index : Nat
  body : β
deriving Repr, DecidableEq

/-- The hooks of a flow. -/
structure Registry (β : Type) where
  pending : List (Pending β)
  /-- How many hooks have been registered. -/
  registered : Nat
  /-- The state in which the flow ended. -/
  terminal : Option FlowState
  /-- Whether a drain is under way. -/
  draining : Bool
  /-- How many hooks have ended. -/
  completed : Nat
  /-- Hooks that did not end well, in the order in which they ended. -/
  failures : List HookFailure
deriving Repr, DecidableEq

namespace Registry

variable {β : Type}

/-- No hooks, and the flow still runs. -/
def empty : Registry β := ⟨[], 0, none, false, 0, []⟩

/-- Whether the flow has ended. -/
def isTerminal (r : Registry β) : Bool := r.terminal.isSome

/-- Nothing is left to do, and nothing is being done. -/
def isSettled (r : Registry β) : Bool := r.isTerminal && !r.draining && r.pending.isEmpty

/-- Registers a hook; gives its position, and whether a drain has to start for it. -/
def register (r : Registry β) (body : β) : Registry β × Nat × Bool :=
  let starts := r.isTerminal && !r.draining
  ({ r with
      pending := r.pending ++ [⟨r.registered, body⟩]
      registered := r.registered + 1
      draining := r.draining || starts },
    r.registered, starts)

/-- Ends the flow, the first time; tells whether a drain has to start. -/
def terminate (r : Registry β) (s : FlowState) : Registry β × Bool :=
  if r.isTerminal then (r, false)
  else if r.draining then ({ r with terminal := some s }, false)
  else ({ r with terminal := some s, draining := true }, true)

/-- The state that hooks are given. -/
def state (r : Registry β) : FlowState := r.terminal.getD .unknown

/-- Takes the next hook of a drain; without one the drain is over. -/
def next? (r : Registry β) : Registry β × Option (Pending β) :=
  match r.pending with
  | [] => ({ r with draining := false }, none)
  | h :: rest => ({ r with pending := rest }, some h)

/-- Counts a hook that has ended, and what went wrong with it. -/
def record (r : Registry β) (failure : Option HookFailure) : Registry β :=
  { r with
    completed := r.completed + 1
    failures := r.failures ++ failure.toList }

end Registry

/-- How a hook ended. -/
inductive Ending where
  | ok
  | error (r : Report)
  | panicked (p : Panic)
  | timedOut (limit : Duration)
deriving Repr, DecidableEq

namespace Ending

/-- What went wrong, if anything did. -/
def problem? : Ending → Option String
  | ok => none
  | error r => some r.message
  | panicked p => some s!"hook panicked: {p.message}"
  | timedOut limit => some s!"hook timed out after {limit.render}"

/-- The failure of the hook at a position. -/
def failure? (e : Ending) (index : Nat) : Option HookFailure :=
  e.problem?.map fun m => ⟨index, m⟩

end Ending

/-- The public view of a registry. -/
structure Status where
  terminal : Bool
  pending : Nat
  completed : Nat
  failures : List HookFailure
deriving Repr, DecidableEq

def Registry.status {β : Type} (r : Registry β) : Status :=
  ⟨r.isTerminal, r.pending.length, r.completed, r.failures⟩

end StageGraph.Hooks
