/-
# `StageGraph.Hooks.Trial` — a registry of hooks on its own

A trial runs hooks that are told what to do, without any flow.  One caller
registers hooks, ends them, waits, or lets time pass; tasks may end the hooks or
run through late ones on their own.  At most one drain is under way.  When
nothing can go on, the clock jumps to the next moment for which something
waits, and there the caller comes first.

A hook that panics in the call itself takes its drain with it: the panic reaches
whoever runs the drain, and the registry keeps the drain for one that is under
way.
-/
import StageGraph.Hooks.Action
import StageGraph.Hooks.Drain

namespace StageGraph.Hooks

/-- Who runs a drain. -/
inductive Owner where
  | caller
  | task
deriving DecidableEq, Repr

/-- A task that has not begun. -/
inductive Job where
  /-- Ends the hooks. -/
  | terminate (s : FlowState)
  /-- Runs through late hooks. -/
  | drain
deriving DecidableEq, Repr

/-- The state of a trial. -/
structure Trial where
  /-- The time in milliseconds. -/
  clock : Nat
  /-- The time allowed to a hook. -/
  limit : Duration
  registry : Registry Hook
  log : List String
  jobs : List Job
  drain : Option (Owner × Drain Thread)

namespace Trial

/-- A trial that begins. -/
def start (limit : Duration) : Trial := ⟨0, limit, .empty, [], [], none⟩

/-- The moment at which a while from now is over. -/
def after (t : Trial) (d : Duration) : Nat := t.clock + d.ticks

/-! ## Calls -/

/-- Registers a hook; a late one has a task of its own run through it. -/
def register (t : Trial) (h : Hook) : Trial × Nat :=
  let (registry, index, starts) := t.registry.register h
  ({ t with registry := registry, jobs := t.jobs ++ if starts then [.drain] else [] }, index)

/-- Ends the hooks; the first time a drain begins. -/
def terminate (t : Trial) (owner : Owner) (s : FlowState) : Trial × Bool :=
  let (registry, starts) := t.registry.terminate s
  ({ t with registry := registry, drain := if starts then some (owner, .fresh) else t.drain },
    starts)

/-! ## Steps -/

/-- How a step leaves a hook. -/
inductive Left where
  | thread (r : Thread)
  | ended (e : Ending)

/-- The next action of a hook. -/
def act (t : Trial) : List Action → Trial × Left
  | [] => (t, .ended .ok)
  | .sleep d :: rest => (t, .thread ⟨rest, t.after d⟩)
  | .log text :: rest =>
    ({ t with log := t.log ++ [s!"{text}:{t.registry.state.tag}"] }, .thread ⟨rest, t.clock⟩)
  | .register onCall actions :: rest => ((t.register ⟨onCall, actions⟩).1, .thread ⟨rest, t.clock⟩)
  | .terminate s :: rest =>
    let (registry, _) := t.registry.terminate s
    ({ t with registry := registry, log := t.log ++ ["terminated again: 0 failures"] },
      .thread ⟨rest, t.clock⟩)
  | .panic p :: _ => (t, .ended (.panicked p))
  | .fail r :: _ => (t, .ended (.error r))

/-- What becomes of a drain. -/
inductive DrainLeft where
  | drain (d : Drain Thread)
  | drained (failures : List HookFailure)
  /-- The call of a hook panicked. -/
  | escaped (p : Panic)

/-- Ends the hook of a drain. -/
def finish (t : Trial) (d : Drain Thread) (index : Nat) (e : Ending) : Trial × DrainLeft :=
  let (registry, d) := Drain.finish t.registry d index e
  ({ t with registry := registry }, .drain d)

/-- Takes the next hook and calls it. -/
def takeHook (t : Trial) (d : Drain Thread) : Trial × DrainLeft :=
  match t.registry.next? with
  | (registry, none) => ({ t with registry := registry }, .drained d.failures)
  | (registry, some h) =>
    let t := { t with registry := registry }
    match h.body.onCall with
    | some p => (t, .escaped p)
    | none => (t, .drain (d.run ⟨h.index, ⟨h.body.actions, t.clock⟩, t.after t.limit⟩))

/-- A step of a drain, if it can go on: the hook comes before its limit. -/
def stepDrain (t : Trial) (d : Drain Thread) : Option (Trial × DrainLeft) :=
  match d.running with
  | none => some (t.takeHook d)
  | some r =>
    if r.thread.wake ≤ t.clock then
      match t.act r.thread.left with
      | (t, .thread thread) => some (t, .drain (d.run { r with thread := thread }))
      | (t, .ended e) => some (t.finish d r.index e)
    else if r.limit ≤ t.clock then some (t.finish d r.index (.timedOut t.limit))
    else none

/-- A step of the drain that a task runs, if there is one. -/
def stepTaskDrain (t : Trial) : Option Trial :=
  match t.drain with
  | some (.task, d) =>
    match t.stepDrain d with
    | some (t, .drain d) => some { t with drain := some (.task, d) }
    | some (t, _) => some { t with drain := none }
    | none => none
  | _ => none

/-- Begins the next task. -/
def beginJob (t : Trial) : Option Trial :=
  match t.jobs with
  | [] => none
  | .terminate s :: rest => some ({ t with jobs := rest }.terminate .task s).1
  | .drain :: rest => some { t with jobs := rest, drain := some (.task, .fresh) }

/-- A step of some task. -/
def stepTask (t : Trial) : Option Trial := t.stepTaskDrain.or t.beginJob

/-! ## Running -/

/-- How many rounds there may be until nothing is left to do. -/
def rounds (t : Trial) : Nat :=
  let pending := t.registry.pending.map fun h => h.body.rounds
  let running :=
    match t.drain.bind fun d => d.2.running with
    | some r => 3 + roundsOf r.thread.left
    | none => 0
  3 * (pending.foldl (· + ·) 0 + running + 2 * t.jobs.length + 4)

/-- Lets the tasks run as far as they get without time passing. -/
def settleFor : Nat → Trial → Trial
  | 0, t => t
  | n + 1, t =>
    match t.stepTask with
    | some t => settleFor n t
    | none => t

@[inherit_doc settleFor]
def settle (t : Trial) : Trial := settleFor t.rounds t

/-- The next moment at which a drain goes on by itself. -/
def nextMoment? (t : Trial) : Option Nat :=
  (t.drain.bind fun d => d.2.running).bind fun r =>
    ([r.thread.wake, r.limit].filter (t.clock < ·)).min?

/-- How the caller's wait has ended. -/
inductive Waited (α : Type) where
  | came (a : α)
  /-- The moment up to which the caller wanted to wait has come, or nothing can come any more. -/
  | late

/-- Waits until `ready?` gives something, at most to a moment if there is one.  `ready?` may take
steps of its own; where it gives nothing, the tasks run, and then the clock jumps. -/
def waitFor {α : Type} (ready? : Trial → Trial × Option α) (moment : Option Nat) :
    Nat → Trial → Trial × Waited α
  | 0, t => (t, .late)
  | n + 1, t =>
    match ready? t with
    | (t, some a) => (t, .came a)
    | (t, none) =>
      if moment.any (· ≤ t.clock) then (t, .late)
      else
        match (ready? t.settle) with
        | (t, some a) => (t, .came a)
        | (t, none) =>
          match (t.nextMoment?.toList ++ moment.toList).min? with
          | some next => waitFor ready? moment n { t with clock := next }
          | none => (t, .late)

/-- The longest wait of a caller. -/
def patience : Duration := .ofMillis 3600000

/-- Waits as long as the caller's patience lasts. -/
def wait {α : Type} (t : Trial) (ready? : Trial → Trial × Option α) : Trial × Waited α :=
  waitFor ready? (some (t.after patience)) (t.rounds + 1) t

/-- Waits until every hook has been run. -/
def awaitSettled (t : Trial) : Trial × Waited Unit :=
  t.wait fun t => (t, if t.registry.isSettled then some () else none)

/-- Lets time pass. -/
def advance (t : Trial) (d : Duration) : Trial :=
  (waitFor (fun t => (t, (none : Option Unit))) (some (t.after d)) (t.rounds + 1) t).1

/-- Runs the caller's own drain as far as it gets without time passing. -/
def runOwn : Nat → Trial → Trial × Option (Except Panic (List HookFailure))
  | 0, t => (t, none)
  | n + 1, t =>
    match t.drain with
    | some (.caller, d) =>
      match t.stepDrain d with
      | some (t, .drain d) => runOwn n { t with drain := some (.caller, d) }
      | some (t, .drained failures) => ({ t with drain := none }, some (.ok failures))
      | some (t, .escaped p) => ({ t with drain := none }, some (.error p))
      | none => (t, none)
    | _ => (t, none)

/-- Ends the hooks and waits for them, however long they take; gives those that failed, or the
panic of a call. -/
def endHooks (t : Trial) (s : FlowState) : Trial × Waited (Except Panic (List HookFailure)) :=
  match t.terminate .caller s with
  | (t, false) => (t, .came (.ok []))
  | (t, true) => waitFor (fun t => runOwn t.rounds t) none (t.rounds + 1) t

/-- Has a task end the hooks. -/
def terminateLater (t : Trial) (s : FlowState) : Trial :=
  { t with jobs := t.jobs ++ [.terminate s] }

end Trial

end StageGraph.Hooks
