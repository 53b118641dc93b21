/-
# `StageGraph.Proofs.Relocation` — the graph of a flow at another position

A graph hardly knows at which position of its completer it stands.  Only a body that
waits for a stage remembers the position of the flow that the stage is in; `relocate`
writes another position there, and changes nothing else.

So everything that a completer does to a graph it does to the relocated graph as well,
and the answers and the deeds are the same.  The lemmas below say this for each part of a
call and of a step, in the order in which the parts are built from each other.  None of
them needs to know which flows a body waits for: that matters only when it is found out
whether a body can go on (`Thread.resume?_relocate`).
-/
import StageGraph.Proofs.GraphRun

namespace StageGraph

/-! ## Threads -/

namespace Thread

variable {κ μ : Type} {m : Nat} {t : Thread κ}

/-- The thread, with the flow of the stage that it waits for at another position. -/
def relocate (m : Nat) : Thread κ → Thread κ
  | going k => going k
  | onStage _ stage next alarm => onStage m stage next alarm
  | asleep a => asleep a

/-- The only stages that the thread waits for are those of the flow at a position. -/
def StaysAt (m : Nat) : Thread κ → Prop
  | onStage flow _ _ _ => flow = m
  | _ => True

theorem relocate_map (m : Nat) (f : κ → μ) : ∀ t : Thread κ,
    (t.map f).relocate m = (t.relocate m).map f
  | going _ => rfl
  | onStage _ _ _ _ => rfl
  | asleep _ => rfl

theorem StaysAt.map (f : κ → μ) : ∀ {t : Thread κ}, t.StaysAt m → (t.map f).StaysAt m
  | going _, _ => trivial
  | onStage _ _ _ _, h => h
  | asleep _, _ => trivial

/-- Where the stages of the two flows have the same results, the thread goes on in the same way. -/
theorem resume?_relocate {m' clock : Nat} {outcome? outcome?' : Nat → Nat → Option Outcome}
    (h : t.StaysAt m) (hsame : ∀ n, outcome?' m' n = outcome? m n) :
    (t.relocate m').resume? outcome?' clock = t.resume? outcome? clock := by
  cases t with
  | going k => rfl
  | onStage flow stage next alarm =>
      obtain rfl : flow = m := h
      simp only [relocate, resume?, hsame]
  | asleep a => rfl

end Thread

/-! ## What a graph consists of -/

namespace Phase

def relocate (m : Nat) : Phase → Phase
  | running body forward => running (body.relocate m) forward
  | p => p

variable (m : Nat)

@[simp] theorem outcome?_relocate (p : Phase) : (p.relocate m).outcome? = p.outcome? := by
  cases p <;> rfl

@[simp] theorem relocate_initial (op : Operation) (deps : List Nat) :
    (initial op deps).relocate m = initial op deps := by
  unfold initial
  cases op.readiness <;> rfl

end Phase

namespace Stage

def relocate (m : Nat) (s : Stage) : Stage := { s with phase := s.phase.relocate m }

end Stage

namespace Hooks

def Running.relocate (m : Nat) (r : Running BodyThread) : Running BodyThread :=
  { r with thread := r.thread.relocate m }

def Drain.relocate (m : Nat) (d : Drain BodyThread) : Drain BodyThread :=
  { d with running := d.running.map (·.relocate m) }

end Hooks

def HookTask.relocate (m : Nat) : HookTask → HookTask
  | due s => due s
  | draining d publish => draining (d.relocate m) publish
  | finished => finished

/-- The graph, with the flow at another position. -/
def Graph.relocate (m : Nat) (g : Graph) : Graph :=
  { g with
    stages := g.stages.map (·.relocate m)
    hookTasks := g.hookTasks.map (·.relocate m) }

/-! ## What a step consists of -/

def Move.relocate (m : Nat) : Move → Move
  | turn p => turn (p.relocate m)
  | launch closure args forward => launch closure args forward
  | finish o => finish o

def DrainMove.relocate (m : Nat) : DrainMove → DrainMove
  | start h limit => start h limit
  | turn r => turn (r.relocate m)
  | finish index e => finish index e
  | leave => leave

def DrainLeft.relocate (m : Nat) : DrainLeft → DrainLeft
  | drain d => drain (d.relocate m)
  | drained failures => drained failures

/-! ## The accounting of a graph -/

namespace Graph

variable (m n : Nat) (g : Graph)

theorem getElem?_relocate : (g.relocate m).stages[n]? = (g.stages[n]?).map (·.relocate m) :=
  List.getElem?_map

@[simp] theorem relocate_new (id : FlowId) : (new id).relocate m = new id := rfl

@[simp] theorem outcome?_relocate : (g.relocate m).outcome? n = g.outcome? n := by
  rw [outcome?, getElem?_relocate, outcome?, Option.bind_map]
  congr 1
  funext s
  exact s.phase.outcome?_relocate m

@[simp] theorem slot?_relocate : (g.relocate m).slot? = g.slot? := by
  funext stage
  simp [slot?, relocate]

@[simp] theorem endIfDue_relocate : (g.relocate m).endIfDue = g.endIfDue.relocate m := by
  unfold endIfDue
  cases hc : g.committed with
  | none => simp only [relocate, hc]
  | some s =>
      by_cases hd : g.active = 0 ∧ g.terminating = false
      · simp [relocate, hc, hd, HookTask.relocate]
      · simp only [relocate, hc, if_neg hd]

@[simp] theorem setPhase_relocate (p : Phase) :
    (g.relocate m).setPhase n (p.relocate m) = (g.setPhase n p).relocate m := by
  simp only [setPhase, relocate, Graph.mk.injEq, and_true, true_and]
  refine List.ext_getElem? ?_
  intro k
  simp only [List.getElem?_modify, List.getElem?_map]
  cases g.stages[k]? with
  | none => simp
  | some s => by_cases h : n = k <;> simp [h, Stage.relocate]

theorem finish_relocate (o : Outcome) :
    (g.relocate m).finish n o = (g.finish n o).relocate m := by
  rw [finish, finish, ← endIfDue_relocate, show Phase.ended o = (Phase.ended o).relocate m from rfl,
    setPhase_relocate]
  rfl

@[simp] theorem setHookTask_relocate (t : HookTask) :
    (g.relocate m).setHookTask n (t.relocate m) = (g.setHookTask n t).relocate m := by
  simp [setHookTask, relocate, List.map_set]

/-! ## Calls -/

/-- What is done to a graph, and what is given for it, does not depend on the position. -/
def Blind {α : Type} (f : Graph → Except FlowError (Graph × α)) : Prop :=
  ∀ (m : Nat) (g : Graph), f (g.relocate m) = (f g).map fun p => (p.1.relocate m, p.2)

/-- A stage without a body is added. -/
theorem blind_allocate {s : Stage} (hs : ∀ m, s.relocate m = s) :
    Blind fun g => g.allocate s := by
  intro m g
  cases ht : g.terminating with
  | true => simp [allocate, relocate, ht, Except.map]
  | false => simp [allocate, relocate, ht, Except.map, hs]

theorem blind_allocateResolved (r : StageRequest) : Blind (World.allocateResolved r) := by
  intro m g
  simp only [World.allocateResolved, slot?_relocate]
  cases r.deps.mapM g.slot? with
  | error e => rfl
  | ok deps =>
      exact blind_allocate (s := ⟨r.operation, r.closure, deps, .initial r.operation deps⟩)
        (fun m => by simp [Stage.relocate]) m g

theorem blind_addHook (closure : Closure) : Blind fun g => .ok (g.addHook closure, ()) := by
  intro m g
  simp only [addHook_eq, Except.map]
  by_cases hstarts : (g.hooks.register closure).2.2 = true
  · simp [relocate, hstarts, HookTask.relocate, Hooks.Drain.relocate, Hooks.Drain.fresh]
  · simp [relocate, hstarts]

theorem blind_commit (s : FlowState) : Blind fun g => (g.commit s).map fun g' => (g', ()) := by
  intro m g
  cases hc : g.committed with
  | some s' => simp [commit, relocate, hc, Except.map]
  | none =>
      have hend := endIfDue_relocate m { g with committed := some s }
      simpa [commit, relocate, hc, Except.map] using hend

theorem blind_remove (flow : FlowId) :
    Blind fun g => if g.terminated.isSome then .ok ({ g with removed := true }, ())
      else .error (.invalidArgument (.notTerminated flow)) := by
  intro m g
  by_cases ht : g.terminated.isSome = true <;> simp [relocate, ht, Except.map]

end Graph

/-! ## Moves -/

section Moves

variable {c c' : Completer} (hcatalog : c'.catalog = c.catalog) (m n : Nat) (g : Graph)

theorem Stage.resolve_relocate (s : Stage) (inputs : List Outcome) :
    (s.relocate m).resolve inputs = (s.resolve inputs).relocate m := by
  rcases Graph.resolve_cases s inputs with ⟨o, h⟩ | ⟨closure, args, forward, h⟩
  · rw [h]
    exact h
  · rw [h]
    exact h

namespace Graph

theorem conclude_relocate (s : Stage) (forward : Option Outcome) (o : Outcome) :
    (g.relocate m).conclude (s.relocate m) forward o = (g.conclude s forward o).relocate m := by
  rcases g.conclude_cases s forward o with ⟨o', h⟩ | ⟨target, h⟩ <;>
    · rw [h]
      simp only [conclude, slot?_relocate] at h ⊢
      exact h

theorem deed?_relocate (mv : Move) : (mv.relocate m).deed? (g.relocate m) n = mv.deed? g n := by
  cases mv <;> rfl

include hcatalog in
theorem move_relocate (mv : Move) :
    (g.relocate m).move c' n (mv.relocate m) = (g.move c n mv).relocate m := by
  cases mv with
  | turn p => exact setPhase_relocate m n g p
  | launch closure args forward =>
      simp only [move, Move.relocate, hcatalog]
      exact setPhase_relocate m n g (.running (.going _) forward)
  | finish o => exact finish_relocate m n g o

theorem drainDeed?_relocate (s : Option FlowState) (mv : DrainMove) :
    (mv.relocate m).deed? (g.relocate m) s = mv.deed? g s := by
  cases mv <;> rfl

include hcatalog in
theorem drainMove_relocate (d : Hooks.Drain BodyThread) (mv : DrainMove) :
    (g.relocate m).drainMove c' (d.relocate m) (mv.relocate m) =
      ((g.drainMove c d mv).1.relocate m, (g.drainMove c d mv).2.relocate m) := by
  cases mv with
  | start h limit => simp only [drainMove, DrainMove.relocate, hcatalog]; rfl
  | _ => rfl

theorem settleDrain_relocate (k : Nat) (s : Option FlowState) (left : DrainLeft) :
    (g.relocate m).settleDrain k s (left.relocate m) = (g.settleDrain k s left).relocate m := by
  cases left with
  | drain d => exact setHookTask_relocate m k g (.draining d s)
  | drained failures =>
      exact congrArg (publish · s) (setHookTask_relocate m k g .finished)

end Graph

end Moves

end StageGraph
