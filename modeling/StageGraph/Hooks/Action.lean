/-
# `StageGraph.Hooks.Action` — hooks as lists of actions

A hook that is told by data what to do: it may panic as soon as it is called,
and otherwise does one action after another until it panics, fails, or has none
left.
-/
import StageGraph.Error.Report
import StageGraph.Time.Duration

namespace StageGraph.Hooks

/-- What a hook may do. -/
inductive Action where
  | sleep (d : Duration)
  /-- Logs a text with the state that the hook was given. -/
  | log (text : String)
  /-- Registers another hook. -/
  | register (onCall : Option Panic) (actions : List Action)
  /-- Ends the hooks again. -/
  | terminate (s : FlowState)
  | panic (p : Panic)
  | fail (r : Report)
deriving Repr

/-- A hook. -/
structure Hook where
  /-- The panic of the call itself, before the hook is under way. -/
  onCall : Option Panic
  actions : List Action
deriving Repr

mutual

/-- How many rounds an action takes at most, with those of the hook that it may register. -/
def Action.rounds : Action → Nat
  | .register _ actions => 4 + roundsOf actions
  | _ => 2

/-- How many rounds actions take at most. -/
def roundsOf : List Action → Nat
  | [] => 0
  | a :: rest => a.rounds + roundsOf rest

end

/-- How many rounds a hook takes at most. -/
def Hook.rounds (h : Hook) : Nat := 3 + roundsOf h.actions

/-- A hook under way: what it has left to do, and when it goes on. -/
structure Thread where
  left : List Action
  wake : Nat
deriving Repr

end StageGraph.Hooks
