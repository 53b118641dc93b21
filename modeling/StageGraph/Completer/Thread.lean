/-
# `StageGraph.Completer.Thread` — a program and what it waits for

A thread is a program that is either free to go on or waits: for a stage to be
terminal, perhaps not for ever, or for a moment of the clock.  Each way in which
it may be woken comes with what it goes on with (`κ`).
-/
import StageGraph.Model.Outcome

namespace StageGraph

/-- What goes on at a moment of the clock. -/
structure Alarm (κ : Type) where
  moment : Nat
  next : κ

namespace Alarm

variable {κ μ : Type}

def map (f : κ → μ) (a : Alarm κ) : Alarm μ := ⟨a.moment, f a.next⟩

/-- Whether the alarm goes off at a time. -/
def isDue (a : Alarm κ) (clock : Nat) : Bool := a.moment ≤ clock

/-- What goes on if the alarm goes off. -/
def fired? (a : Alarm κ) (clock : Nat) : Option κ := if a.isDue clock then some a.next else none

/-- The earlier of two alarms; at the same moment the first one. -/
def earlier (a limit : Alarm κ) : Alarm κ := if a.moment ≤ limit.moment then a else limit

end Alarm

/-- A program and what it waits for. -/
inductive Thread (κ : Type) where
  /-- Free to go on. -/
  | going (next : κ)
  /-- Waits for a stage, at most until an alarm. -/
  | onStage (flow stage : Nat) (next : Outcome → κ) (alarm : Option (Alarm κ))
  /-- Waits for a moment. -/
  | asleep (alarm : Alarm κ)

namespace Thread

variable {κ μ : Type}

def map (f : κ → μ) : Thread κ → Thread μ
  | going k => going (f k)
  | onStage flow stage next alarm => onStage flow stage (fun o => f (next o)) (alarm.map (·.map f))
  | asleep a => asleep (a.map f)

/-- The alarm that may wake the thread. -/
def alarm? : Thread κ → Option (Alarm κ)
  | going _ => none
  | onStage _ _ _ a => a
  | asleep a => some a

/-- Gives the thread a limit: where it still waits then, it goes on with something else. -/
def limited (limit : Alarm κ) : Thread κ → Thread κ
  | going k => going k
  | onStage flow stage next a => onStage flow stage next (some (a.elim limit (·.earlier limit)))
  | asleep a => asleep (a.earlier limit)

/-- What the thread goes on with at a time, if anything: the stage it waits for comes before the
alarm.  `outcome?` tells the result of a terminal stage. -/
def resume? (outcome? : Nat → Nat → Option Outcome) (clock : Nat) : Thread κ → Option κ
  | going k => some k
  | onStage flow stage next a =>
    match outcome? flow stage with
    | some o => some (next o)
    | none => a.bind (·.fired? clock)
  | asleep a => a.fired? clock

end Thread

end StageGraph
