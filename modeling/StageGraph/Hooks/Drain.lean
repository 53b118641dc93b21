/-
# `StageGraph.Hooks.Drain` — running through the pending hooks

A drain takes the pending hooks one after another.  While a hook runs, the
drain keeps the hook's position, how far it has come, and the moment at which
its time is over; what went wrong with hooks that have ended is collected.

How a hook is run is not decided here: `τ` is whatever stands for a hook that is
under way.
-/
import StageGraph.Hooks.Registry

namespace StageGraph.Hooks

/-- A hook that is under way. -/
structure Running (τ : Type) where
  index : Nat
  thread : τ
  /-- The moment at which its time is over. -/
  limit : Nat

/-- A pass through the pending hooks. -/
structure Drain (τ : Type) where
  running : Option (Running τ)
  failures : List HookFailure

namespace Drain

variable {τ β : Type}

/-- A drain that has not taken a hook yet. -/
def fresh : Drain τ := ⟨none, []⟩

/-- The drain with a hook under way. -/
def run (d : Drain τ) (r : Running τ) : Drain τ := { d with running := some r }

/-- Ends the hook at a position: the registry counts it, the drain goes on without it. -/
def finish (registry : Registry β) (d : Drain τ) (index : Nat) (e : Ending) :
    Registry β × Drain τ :=
  let failure := e.failure? index
  (registry.record failure, ⟨none, d.failures ++ failure.toList⟩)

end Drain

end StageGraph.Hooks
