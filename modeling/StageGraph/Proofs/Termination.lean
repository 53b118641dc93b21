/-
# `StageGraph.Proofs.Termination` — how a flow ends

The end of a flow begins with the commit or with the end of the last active
stage, whichever comes later.  Then one task ends the hooks in the committed
state, runs them, and publishes that state.  Hooks may be registered all the
while, and afterwards a task without a state to publish runs through each late
one.

Three records have to agree on how far this has come: the life of the flow, its
registry of hooks, and the state that is published.  `Closing` lists the ways in
which they do, and `Graph.Orderly` says that the graph is in one of them, while
the two other records are right in themselves.  Every change keeps a graph
orderly.
-/
import StageGraph.Proofs.Lifecycle
import StageGraph.Proofs.HookOrder
import StageGraph.Proofs.Lists
import StageGraph.Completer.Schedule

namespace StageGraph

open Hooks (Activity)

/-- What the task does, if it is a drain. -/
def HookTask.activity? : HookTask → Option Activity
  | .draining d _ => some d.activity
  | _ => none

/-- A task that will not publish a state any more. -/
def HookTask.Late (t : HookTask) : Prop := t = .finished ∨ ∃ d, t = .draining d none

/-- How far the end of a flow has come. -/
inductive Closing (g : Graph) : Prop
  | before : g.terminating = false → g.hookTasks = [] → g.hooks.terminal = none →
      g.terminated = none → Closing g
  | due (s : FlowState) : g.terminating = true → g.committed = some s → g.hookTasks = [.due s] →
      g.hooks.terminal = none → g.terminated = none → Closing g
  | draining (s : FlowState) (d : Hooks.Drain BodyThread) : g.terminating = true →
      g.committed = some s → g.hookTasks = [.draining d (some s)] → g.hooks.terminal = some s →
      g.terminated = none → Closing g
  | reached (s : FlowState) : g.terminating = true → g.committed = some s →
      (∀ t ∈ g.hookTasks, t.Late) → g.hooks.terminal = some s → g.terminated = some s → Closing g

/-- Only the record of a flow's end matters. -/
theorem Closing.of_same {g g' : Graph} (h : Closing g) (hterminating : g'.terminating = g.terminating)
    (hcommitted : g'.committed = g.committed) (htasks : g'.hookTasks = g.hookTasks)
    (hterminal : g'.hooks.terminal = g.hooks.terminal) (hterminated : g'.terminated = g.terminated) :
    Closing g' := by
  cases h with
  | before h₁ h₂ h₃ h₄ =>
      exact .before (hterminating.trans h₁) (htasks.trans h₂) (hterminal.trans h₃)
        (hterminated.trans h₄)
  | due s h₁ h₂ h₃ h₄ h₅ =>
      exact .due s (hterminating.trans h₁) (hcommitted.trans h₂) (htasks.trans h₃)
        (hterminal.trans h₄) (hterminated.trans h₅)
  | draining s d h₁ h₂ h₃ h₄ h₅ =>
      exact .draining s d (hterminating.trans h₁) (hcommitted.trans h₂) (htasks.trans h₃)
        (hterminal.trans h₄) (hterminated.trans h₅)
  | reached s h₁ h₂ h₃ h₄ h₅ =>
      exact .reached s (hterminating.trans h₁) (hcommitted.trans h₂) (htasks ▸ h₃)
        (hterminal.trans h₄) (hterminated.trans h₅)

namespace Graph

/-- The record of the life of a flow, its hooks and its end fit each other. -/
structure Orderly (g : Graph) (a : Activity) : Prop where
  accounted : g.Accounted
  hooks : g.hooks.Sound a
  drains : g.hookTasks.filterMap HookTask.activity? = a.drains
  closing : Closing g

theorem orderly_new (id : FlowId) : (new id).Orderly .idle :=
  ⟨accounted_new id, Hooks.Registry.sound_empty, rfl, .before rfl rfl rfl rfl⟩

namespace Orderly

variable {c : Completer} {g g' : Graph} {a : Activity}

/-- The drain of a task is what is going on. -/
theorem activity (h : g.Orderly a) {k : Nat} {d : Hooks.Drain BodyThread} {s : Option FlowState}
    (hk : g.hookTasks[k]? = some (.draining d s)) : a = d.activity ∧ a.drains = [d.activity] := by
  have hmem : d.activity ∈ a.drains := by
    rw [← h.drains]
    exact List.mem_filterMap.mpr ⟨_, List.mem_of_getElem? hk, rfl⟩
  exact Hooks.Activity.eq_of_mem_drains hmem

/-- Between two hooks of a drain the registry is between two hooks. -/
theorem between (h : g.Orderly a) {k : Nat} {d : Hooks.Drain BodyThread} {s : Option FlowState}
    (hk : g.hookTasks[k]? = some (.draining d s)) (hr : d.running = none) :
    g.hooks.Sound .between := by
  have hhooks := h.hooks
  rwa [(h.activity hk).1, Hooks.Drain.activity_eq_between.mpr hr] at hhooks

/-- While a drain runs a hook the registry is busy with it. -/
theorem busy (h : g.Orderly a) {k : Nat} {d : Hooks.Drain BodyThread} {s : Option FlowState}
    {r : Hooks.Running BodyThread} (hk : g.hookTasks[k]? = some (.draining d s))
    (hr : d.running = some r) : g.hooks.Sound (.busy r.index) := by
  have hhooks := h.hooks
  rwa [(h.activity hk).1, Hooks.Drain.activity_eq_busy.mpr ⟨r, hr, rfl⟩] at hhooks

/-- The drains after the task of the only one has been replaced. -/
theorem drains_set (h : g.Orderly a) {k : Nat} {d : Hooks.Drain BodyThread} {s : Option FlowState}
    (hk : g.hookTasks[k]? = some (.draining d s)) (t : HookTask) :
    (g.hookTasks.set k t).filterMap HookTask.activity? = t.activity?.toList :=
  filterMap_set (h.drains.trans (h.activity hk).2) hk rfl

/-- Before the end of a flow has begun nothing of it is there. -/
theorem of_open (h : g.Orderly a) (hopen : g.terminating = false) :
    a = .idle ∧ g.hookTasks = [] ∧ g.hooks.terminal = none ∧ g.terminated = none := by
  cases h.closing with
  | before _ htasks hterminal hterminated =>
      exact ⟨h.hooks.idle_of_open hterminal, htasks, hterminal, hterminated⟩
  | due s hterm _ _ _ _ => rw [hopen] at hterm; cases hterm
  | draining s d hterm _ _ _ _ => rw [hopen] at hterm; cases hterm
  | reached s hterm _ _ _ _ => rw [hopen] at hterm; cases hterm

end Orderly

/-- The end of a flow begins in an orderly way. -/
theorem orderly_endIfDue {g : Graph} (haccounted : g.endIfDue.Accounted) (hhooks : g.hooks.Sound .idle)
    (hopen : g.terminating = false) (htasks : g.hookTasks = []) (hterminal : g.hooks.terminal = none)
    (hterminated : g.terminated = none) : g.endIfDue.Orderly .idle := by
  rcases g.endIfDue_cases with h | ⟨s, hcommitted, -, -, h⟩
  · rw [h] at haccounted ⊢
    exact ⟨haccounted, hhooks, by rw [htasks]; rfl, .before hopen htasks hterminal hterminated⟩
  · rw [h] at haccounted ⊢
    refine ⟨haccounted, hhooks, ?_, .due s rfl hcommitted ?_ hterminal hterminated⟩
    · show (g.hookTasks ++ [HookTask.due s]).filterMap HookTask.activity? = []
      rw [htasks]
      rfl
    · show g.hookTasks ++ [.due s] = [.due s]
      rw [htasks]
      rfl

namespace Orderly

variable {c : Completer} {g g' : Graph} {a : Activity}

theorem allocate {s : Stage} {id : StageId} (h : g.Orderly a)
    (hg' : g.allocate s = .ok (g', id)) : g'.Orderly a := by
  have haccounted := h.accounted.allocate hg'
  obtain ⟨-, -, rfl⟩ := allocate_eq_ok hg'
  exact ⟨haccounted, h.hooks, h.drains, h.closing.of_same rfl rfl rfl rfl rfl⟩

theorem commit {s : FlowState} (h : g.Orderly a) (hg' : g.commit s = .ok g') : g'.Orderly a := by
  have haccounted := h.accounted.commit hg'
  obtain ⟨hnone, rfl⟩ := commit_eq_ok hg'
  have hopen : g.terminating = false := by
    cases hterm : g.terminating with
    | false => rfl
    | true =>
        have := (h.accounted.terminating.mp hterm).1
        simp [hnone] at this
  obtain ⟨rfl, htasks, hterminal, hterminated⟩ := h.of_open hopen
  exact orderly_endIfDue haccounted h.hooks hopen htasks hterminal hterminated

theorem move {n : Nat} {s : Stage} {m : Move} (h : g.Orderly a) (hs : g.stages[n]? = some s)
    (hm : Moves g s m) : (g.move c n m).Orderly a := by
  have haccounted : (g.move c n m).Accounted := h.accounted.move hs hm
  rcases hm.move_cases c n with ⟨o, rfl⟩ | ⟨p, -, hmove⟩
  · have hopen := (h.accounted.of_active hs hm.isActive).2
    obtain ⟨rfl, htasks, hterminal, hterminated⟩ := h.of_open hopen
    exact orderly_endIfDue haccounted h.hooks hopen htasks hterminal hterminated
  · rw [hmove] at haccounted ⊢
    exact ⟨haccounted, h.hooks, h.drains, h.closing.of_same rfl rfl rfl rfl rfl⟩

/-- A late hook has a task of its own; before that no hook starts a drain. -/
theorem addHook (h : g.Orderly a) (closure : Closure) : ∃ a', (g.addHook closure).Orderly a' := by
  obtain ⟨hhooks, hidle⟩ := h.hooks.register closure
  have haccounted : (g.addHook closure).Accounted := by
    rw [addHook_eq]
    exact ⟨h.accounted.active, h.accounted.terminating⟩
  have hterminal : (g.hooks.register closure).1.terminal = g.hooks.terminal := rfl
  rw [addHook_eq] at haccounted ⊢
  cases hstarts : (g.hooks.register closure).2.2 with
  | false =>
      simp only [hstarts, Bool.false_eq_true, if_false, List.append_nil] at hhooks haccounted ⊢
      exact ⟨a, haccounted, hhooks, h.drains, h.closing.of_same rfl rfl rfl hterminal rfl⟩
  | true =>
      obtain rfl := hidle hstarts
      simp only [hstarts, if_true] at hhooks haccounted ⊢
      refine ⟨.between, haccounted, hhooks, ?_, ?_⟩
      · rw [List.filterMap_append, h.drains]
        rfl
      · have hsome : g.hooks.terminal.isSome := by
          have hstarts : (g.hooks.isTerminal && !g.hooks.draining) = true := hstarts
          exact (Bool.and_eq_true_iff.mp hstarts).1
        cases h.closing with
        | before _ _ hnone _ => simp [hnone] at hsome
        | due _ _ _ _ hnone _ => simp [hnone] at hsome
        | draining s d _ _ htasks _ _ =>
            have := h.drains
            simp [htasks, HookTask.activity?, Activity.drains] at this
        | reached s hterm hcommitted hlate hstate hterminated =>
            refine .reached s hterm hcommitted ?_ (hterminal.trans hstate) hterminated
            intro t ht
            rcases List.mem_append.mp ht with ht | ht
            · exact hlate t ht
            · exact .inr ⟨_, List.mem_singleton.mp ht⟩

/-- The task that is to end a flow is its only one. -/
theorem due (h : g.Orderly a) {k : Nat} {s : FlowState} (hk : g.hookTasks[k]? = some (.due s)) :
    a = .idle ∧ k = 0 ∧ g.hookTasks = [.due s] ∧ g.terminating = true ∧ g.committed = some s ∧
      g.hooks.terminal = none ∧ g.terminated = none := by
  have hmem := List.mem_of_getElem? hk
  cases h.closing with
  | before _ htasks _ _ => rw [htasks] at hmem; cases hmem
  | draining _ _ _ _ htasks _ _ => rw [htasks] at hmem; simp at hmem
  | reached _ _ _ hlate _ _ => rcases hlate _ hmem with h | ⟨d, h⟩ <;> cases h
  | due s' hterm hcommitted htasks hterminal hterminated =>
      rw [htasks] at hmem hk
      obtain rfl : s = s' := by simpa using hmem
      obtain rfl : k = 0 := by
        have := (List.getElem?_eq_some_iff.mp hk).1
        simpa using this
      exact ⟨h.hooks.idle_of_open hterminal, rfl, htasks, hterm, hcommitted, hterminal,
        hterminated⟩

/-- The task that is to end a flow starts a drain. -/
theorem terminate_starts (h : g.Orderly a) {k : Nat} {s : FlowState}
    (hk : g.hookTasks[k]? = some (.due s)) : (g.hooks.terminate s).2 = true := by
  obtain ⟨rfl, -, -, -, -, hterminal, -⟩ := h.due hk
  simp [Hooks.Registry.terminate, Hooks.Registry.isTerminal, hterminal, h.hooks.not_draining]

theorem begin (h : g.Orderly a) {k : Nat} {s : FlowState}
    (hk : g.hookTasks[k]? = some (.due s)) :
    ({ g with hooks := (g.hooks.terminate s).1 }.setHookTask k
      (.draining .fresh (some s))).Orderly .between := by
  obtain ⟨rfl, rfl, htasks, hterm, hcommitted, hterminal, hterminated⟩ := h.due hk
  have hhooks := (h.hooks.terminate s).1
  rw [h.terminate_starts hk, if_pos rfl] at hhooks
  have hset : (g.hookTasks.set 0 (.draining .fresh (some s))) = [.draining .fresh (some s)] := by
    rw [htasks]
    rfl
  refine ⟨⟨h.accounted.active, h.accounted.terminating⟩, hhooks, ?_, ?_⟩
  · show (g.hookTasks.set 0 (.draining .fresh (some s))).filterMap HookTask.activity? = [.between]
    rw [hset]
    rfl
  · refine .draining s .fresh hterm hcommitted hset ?_ hterminated
    show (g.hooks.terminate s).1.terminal = some s
    rw [Hooks.Registry.terminate_terminal, hterminal]
    rfl

/-- A drain belongs to the end of the flow, or to late hooks. -/
theorem draining (h : g.Orderly a) {k : Nat} {d : Hooks.Drain BodyThread} {s : Option FlowState}
    (hk : g.hookTasks[k]? = some (.draining d s)) :
    ∃ s₀, g.terminating = true ∧ g.committed = some s₀ ∧ g.hooks.terminal = some s₀ ∧
      ((k = 0 ∧ s = some s₀ ∧ g.hookTasks = [.draining d (some s₀)] ∧ g.terminated = none) ∨
        (s = none ∧ (∀ t ∈ g.hookTasks, t.Late) ∧ g.terminated = some s₀)) := by
  have hmem := List.mem_of_getElem? hk
  cases h.closing with
  | before _ htasks _ _ => rw [htasks] at hmem; cases hmem
  | due _ _ _ htasks _ _ => rw [htasks] at hmem; simp at hmem
  | draining s₀ d₀ hterm hcommitted htasks hterminal hterminated =>
      rw [htasks] at hmem hk
      obtain ⟨rfl, rfl⟩ : d = d₀ ∧ s = some s₀ := by simpa using hmem
      obtain rfl : k = 0 := by
        have := (List.getElem?_eq_some_iff.mp hk).1
        simpa using this
      exact ⟨s₀, hterm, hcommitted, hterminal, .inl ⟨rfl, rfl, htasks, hterminated⟩⟩
  | reached s₀ hterm hcommitted hlate hterminal hterminated =>
      obtain rfl : s = none := by
        rcases hlate _ hmem with h | ⟨d', h⟩
        · cases h
        · cases h; rfl
      exact ⟨s₀, hterm, hcommitted, hterminal, .inr ⟨rfl, hlate, hterminated⟩⟩

theorem late_set {tasks : List HookTask} (hlate : ∀ t ∈ tasks, t.Late) {t : HookTask} (ht : t.Late)
    (k : Nat) : ∀ t' ∈ tasks.set k t, t'.Late := by
  intro t' hmem
  rcases List.mem_or_eq_of_mem_set hmem with hmem | rfl
  · exact hlate t' hmem
  · exact ht

/-- A drain that goes on leaves the flow as near to its end as it was. -/
theorem closing_turn (h : g.Orderly a) {k : Nat} {d : Hooks.Drain BodyThread}
    {s : Option FlowState} (hk : g.hookTasks[k]? = some (.draining d s))
    {hooks : Hooks.Registry Closure} (hterminal : hooks.terminal = g.hooks.terminal)
    (d' : Hooks.Drain BodyThread) :
    Closing ({ g with hooks := hooks }.setHookTask k (.draining d' s)) := by
  obtain ⟨s₀, hterm, hcommitted, hstate, ⟨rfl, rfl, htasks, hterminated⟩ | ⟨rfl, hlate, hterminated⟩⟩ :=
    h.draining hk
  · refine .draining s₀ d' hterm hcommitted ?_ (hterminal.trans hstate) hterminated
    show g.hookTasks.set 0 (.draining d' (some s₀)) = [.draining d' (some s₀)]
    rw [htasks]
    rfl
  · refine .reached s₀ hterm hcommitted ?_ (hterminal.trans hstate) hterminated
    exact late_set hlate (.inr ⟨d', rfl⟩) k

/-- With the end of a drain the flow has come to its end. -/
theorem closing_reached (h : g.Orderly a) {k : Nat} {d : Hooks.Drain BodyThread}
    {s : Option FlowState} (hk : g.hookTasks[k]? = some (.draining d s))
    {hooks : Hooks.Registry Closure} (hterminal : hooks.terminal = g.hooks.terminal) :
    Closing (({ g with hooks := hooks }.setHookTask k .finished).publish s) := by
  obtain ⟨s₀, hterm, hcommitted, hstate, ⟨rfl, rfl, htasks, -⟩ | ⟨rfl, hlate, hterminated⟩⟩ :=
    h.draining hk
  · refine .reached s₀ hterm hcommitted ?_ (hterminal.trans hstate) rfl
    intro t ht
    have htasks' : g.hookTasks.set 0 .finished = [.finished] := by rw [htasks]; rfl
    exact .inl (List.mem_singleton.mp (htasks' ▸ ht))
  · refine .reached s₀ hterm hcommitted ?_ (hterminal.trans hstate) hterminated
    exact late_set hlate (.inl rfl) k

/-- A move of a drain keeps a graph orderly. -/
theorem drain (h : g.Orderly a) {k : Nat} {d : Hooks.Drain BodyThread} {s : Option FlowState}
    {m : DrainMove} (hk : g.hookTasks[k]? = some (.draining d s)) (hm : DrainMoves c g d m) :
    ∃ a', ((g.drainMove c d m).1.settleDrain k s (g.drainMove c d m).2).Orderly a' := by
  have haccounted : ∀ {hooks tasks terminated},
      ({ g with hooks := hooks, hookTasks := tasks, terminated := terminated } : Graph).Accounted :=
    ⟨h.accounted.active, h.accounted.terminating⟩
  cases hm with
  | start limit hr hnext =>
      refine ⟨_, haccounted, ((h.between hk hr).start hnext).1, h.drains_set hk _, h.closing_turn hk ?_ _⟩
      exact Hooks.Registry.next?_terminal _
  | @turn r t hr =>
      exact ⟨.busy r.index, haccounted, h.busy hk hr, h.drains_set hk _, h.closing_turn hk rfl _⟩
  | @finish r e hr =>
      have hhooks := (h.busy hk hr).finish e
      refine ⟨.between, haccounted, hhooks, h.drains_set hk _, h.closing_turn hk ?_ _⟩
      rfl
  | leave hr hnext =>
      have hhooks := ((h.between hk hr).leave hnext).1
      refine ⟨.idle, haccounted, hhooks, h.drains_set hk _, h.closing_reached hk ?_⟩
      exact Hooks.Registry.next?_terminal _

/-- Every change keeps a graph orderly. -/
theorem change {d : Option Deed} (h : g.Orderly a) (hchange : Change c g d g') :
    ∃ a', g'.Orderly a' := by
  cases hchange with
  | call hcall =>
      cases hcall with
      | allocate _ hg' => exact ⟨a, h.allocate hg'⟩
      | addHook closure => exact h.addHook closure
      | commit hg' => exact ⟨a, h.commit hg'⟩
      | remove _ =>
          have haccounted : ({ g with removed := true } : Graph).Accounted :=
            ⟨h.accounted.active, h.accounted.terminating⟩
          exact ⟨a, haccounted, h.hooks, h.drains, h.closing.of_same rfl rfl rfl rfl rfl⟩
  | move hs hm => exact ⟨a, h.move hs hm⟩
  | begin hk _ => exact ⟨_, h.begin hk⟩
  | skip hk hfalse =>
      rw [h.terminate_starts hk] at hfalse
      cases hfalse
  | drain hk hm => exact h.drain hk hm

/-- What a chain of changes keeps in order. -/
theorem changes {ds : List Deed} (h : g.Orderly a) (hchanges : Changes c g ds g') :
    ∃ a', g'.Orderly a' := by
  refine hchanges.preserves (P := fun g => ∃ a, g.Orderly a) ?_ ⟨a, h⟩
  intro g d g' ⟨a, h⟩ hchange
  exact h.change hchange

end Orderly

end Graph

/-! ## What happens once -/

/-- The state of a commit. -/
def Deed.committed? : Deed → Option FlowState
  | committed s => some s
  | _ => none

/-- The state that is published. -/
def Deed.published? : Deed → Option FlowState
  | published s => some s
  | _ => none

namespace Graph

variable {c : Completer} {g g' : Graph} {a : Activity}

/-- A change that leaves the committed and the published state as they are, and is no deed that
concerns them. -/
structure Unrecorded (g : Graph) (d : Option Deed) (g' : Graph) : Prop where
  committed : g'.committed = g.committed
  terminated : g'.terminated = g.terminated
  noCommit : d.bind Deed.committed? = none
  noPublication : d.bind Deed.published? = none

/-- A move of a stage neither commits a flow nor publishes its state. -/
theorem unrecorded_move (n : Nat) (m : Move) : Unrecorded g (m.deed? g n) (g.move c n m) :=
  ⟨move_committed c g n m, move_terminated c g n m, by cases m <;> rfl, by cases m <;> rfl⟩

/-- A change commits a flow for the first time, or publishes its state for the first time and at the
end of a drain, or does neither. -/
theorem Orderly.record_cases {d : Option Deed} (h : g.Orderly a) (hchange : Change c g d g') :
    Unrecorded g d g' ∨
      (∃ s, d = some (.committed s) ∧ g.committed = none ∧ g'.committed = some s ∧
        g'.terminated = g.terminated) ∨
      ∃ s, d = some (.published s) ∧ g.terminated = none ∧ g'.terminated = some s ∧
        g'.committed = g.committed ∧ g.committed = some s ∧ g.hooks.Sound .between ∧
        g.hooks.pending = [] := by
  cases hchange with
  | call hcall =>
      cases hcall with
      | allocate _ hg' =>
          obtain ⟨-, -, rfl⟩ := allocate_eq_ok hg'
          exact .inl ⟨rfl, rfl, rfl, rfl⟩
      | addHook closure =>
          rw [addHook_eq]
          exact .inl ⟨rfl, rfl, rfl, rfl⟩
      | @commit _ s hg' =>
          obtain ⟨hnone, rfl⟩ := commit_eq_ok hg'
          exact .inr (.inl ⟨s, rfl, hnone, by simp, by simp⟩)
      | remove _ => exact .inl ⟨rfl, rfl, rfl, rfl⟩
  | move _ _ => exact .inl (unrecorded_move _ _)
  | begin _ _ => exact .inl ⟨rfl, rfl, rfl, rfl⟩
  | skip hk hfalse =>
      rw [h.terminate_starts hk] at hfalse
      cases hfalse
  | drain hk hm =>
      cases hm with
      | start _ _ _ => exact .inl ⟨rfl, rfl, rfl, rfl⟩
      | turn _ => exact .inl ⟨rfl, rfl, rfl, rfl⟩
      | finish _ _ => exact .inl ⟨rfl, rfl, rfl, rfl⟩
      | leave hr hnext =>
          obtain ⟨s₀, -, hcommitted, -, ⟨-, rfl, -, hnone⟩ | ⟨rfl, -, -⟩⟩ := h.draining hk
          · have hhooks := h.between hk hr
            exact .inr (.inr ⟨s₀, rfl, hnone, rfl, rfl, hcommitted, hhooks,
              (hhooks.leave hnext).2⟩)
          · exact .inl ⟨rfl, rfl, rfl, rfl⟩

/-- The one commit and the one publication of a chain of changes that begins with nothing. -/
theorem once_of_changes {id : FlowId} {ds : List Deed} (h : Changes c (.new id) ds g) :
    ds.filterMap Deed.committed? = g.committed.toList ∧
      ds.filterMap Deed.published? = g.terminated.toList := by
  induction h with
  | refl => exact ⟨rfl, rfl⟩
  | @tail g₁ g₂ ds d hchain hchange ih =>
      obtain ⟨hcommitted, hpublished⟩ := ih
      obtain ⟨a, horderly⟩ := (orderly_new id).changes hchain
      rw [List.filterMap_append, List.filterMap_append, hcommitted, hpublished]
      have hone (f : Deed → Option FlowState) : d.toList.filterMap f = (d.bind f).toList := by
        cases d with
        | none => rfl
        | some d => cases hf : f d <;> simp [hf]
      rw [hone, hone]
      rcases horderly.record_cases hchange with
        hsame | ⟨s, rfl, hnone, hsome, hsame⟩ | ⟨s, rfl, hnone, hsome, hsame, -⟩
      · rw [hsame.committed, hsame.terminated, hsame.noCommit, hsame.noPublication]
        exact ⟨List.append_nil _, List.append_nil _⟩
      · rw [hnone, hsome, hsame]
        exact ⟨rfl, List.append_nil _⟩
      · rw [hnone, hsome, hsame]
        exact ⟨List.append_nil _, rfl⟩

/-- A hook that starts is given the state of the commit, after the end of every stage. -/
theorem Orderly.hookStarted {index : Nat} {r : Invocation} (h : g.Orderly a)
    (hchange : Change c g (some (.hookStarted index r)) g') :
    ∃ s, g.committed = some s ∧ (∀ t ∈ g.stages, t.phase.outcome?.isSome) ∧
      r.args = [.success (.state s)] := by
  generalize hd : some (Deed.hookStarted index r) = d at hchange
  cases hchange with
  | call hcall => cases hcall <;> cases hd
  | @move _ _ m _ _ => cases m <;> cases hd
  | begin _ _ => cases hd
  | skip _ _ => cases hd
  | @drain _ s _ m hk _ =>
      cases m with
      | leave => cases s <;> cases hd
      | turn _ => cases hd
      | finish _ _ => cases hd
      | start p limit =>
          cases hd
          obtain ⟨s₀, hterm, hcommitted, hstate, -⟩ := h.draining hk
          refine ⟨s₀, hcommitted, h.accounted.all_ended hterm, ?_⟩
          simp [hookInvocation, Hooks.Registry.state, hstate]

/-- A state that is published is the one of the commit, and every hook registered so far has
ended. -/
theorem Orderly.published_state {s : FlowState} (h : g.Orderly a)
    (hchange : Change c g (some (.published s)) g') :
    g.committed = some s ∧ g.hooks.completed = g.hooks.registered := by
  rcases h.record_cases hchange with
    hsame | ⟨s', hd, -⟩ | ⟨s', hd, -, -, -, hcommitted, hsound, hpending⟩
  · have := hsame.noPublication
    cases this
  · cases hd
  · cases hd
    refine ⟨hcommitted, ?_⟩
    have := hsound.count
    simpa [hpending] using this

/-- A flow that has come to its end has been committed in that state, and its stages have ended. -/
theorem Orderly.terminated {s : FlowState} (h : g.Orderly a) (hs : g.terminated = some s) :
    g.committed = some s ∧ ∀ t ∈ g.stages, t.phase.outcome?.isSome := by
  cases h.closing with
  | before _ _ _ hnone => rw [hs] at hnone; cases hnone
  | due _ _ _ _ _ hnone => rw [hs] at hnone; cases hnone
  | draining _ _ _ _ _ _ hnone => rw [hs] at hnone; cases hnone
  | reached s' hterm hcommitted _ _ hs' =>
      cases hs.symm.trans hs'
      exact ⟨hcommitted, h.accounted.all_ended hterm⟩

end Graph

namespace World

open StageGraph.Graph (Changes)

variable {c : Completer} {w w' : World}

/-! ## Where nothing can go on -/

/-- A drain has a move if the hook under way can go on, or its time is over. -/
theorem drainMove?_isSome {g : Graph} {d : Hooks.Drain BodyThread} :
    (w.drainMove? c g d).isSome ↔
      ∀ r, d.running = some r → (w.resume? r.thread).isSome ∨ r.limit ≤ w.clock := by
  unfold drainMove?
  cases hr : d.running with
  | none => cases g.hooks.next?.2 <;> simp
  | some r =>
      cases hp : w.resume? r.thread with
      | none => simp [hp]
      | some p =>
          simp only [hp, Option.some.injEq, forall_eq', Option.isSome_some, true_or, iff_true]
          split <;> rfl

/-- Where nothing can go on, now or later, every task that runs hooks has finished. -/
theorem Stuck.hookTasks (h : w.Stuck c) {flow : Nat} {g : Graph} (hg : w.graph? flow = some g) :
    ∀ t ∈ g.hookTasks, t = .finished := by
  intro t ht
  obtain ⟨k, hk⟩ := List.mem_iff_getElem?.mp ht
  cases t with
  | finished => rfl
  | due s =>
      have hnone : w.step c (.hooks flow k) = none := h w.clock (Nat.le_refl _) _
      cases hstarts : (g.hooks.terminate s).2 with
      | true => cases hnone.symm.trans (Fires.begin hg hk hstarts).fire
      | false => cases hnone.symm.trans (Fires.skip hg hk hstarts).fire
  | draining d s =>
      -- The latest moment at which the hook under way can be cut off.
      let limit := (d.running.map Hooks.Running.limit).getD 0
      have hsome : (({ w with clock := max w.clock limit } : World).drainMove? c g d).isSome := by
        refine drainMove?_isSome.mpr ?_
        intro r hr
        refine .inr ?_
        have hlimit : limit = r.limit := by simp [limit, hr]
        rw [← hlimit]
        exact Nat.le_max_right _ _
      have hg' : ({ w with clock := max w.clock limit } : World).graph? flow = some g := hg
      have hnone := (step_drain_eq_none_iff hg' hk).mp (h _ (Nat.le_max_left _ _) _)
      rw [hnone] at hsome
      cases hsome

/-- Where nothing can go on, a flow has come to its end exactly if it is committed and its stages
have ended. -/
theorem Stuck.terminated_iff (h : w.Stuck c) {flow : Nat} {g : Graph} {a : Activity}
    (hg : w.graph? flow = some g) (horderly : g.Orderly a) :
    g.terminated.isSome ↔ g.committed.isSome ∧ ∀ t ∈ g.stages, t.phase.outcome?.isSome := by
  constructor
  · intro hsome
    obtain ⟨s, hs⟩ := Option.isSome_iff_exists.mp hsome
    obtain ⟨hcommitted, hended⟩ := horderly.terminated hs
    exact ⟨by rw [hcommitted]; rfl, hended⟩
  · rintro ⟨hcommitted, hended⟩
    have hactive : g.active = 0 := by
      rw [horderly.accounted.active]
      refine List.countP_eq_zero.mpr ?_
      intro t ht
      simpa [Stage.isActive, Option.isSome_iff_ne_none] using hended t ht
    have hterm := horderly.accounted.terminating.mpr ⟨hcommitted, hactive⟩
    have hfinished := h.hookTasks hg
    cases horderly.closing with
    | before hopen _ _ _ => rw [hterm] at hopen; cases hopen
    | due s _ _ htasks _ _ =>
        have := hfinished (.due s) (by rw [htasks]; exact List.mem_cons_self)
        cases this
    | draining s d _ _ htasks _ _ =>
        have := hfinished (.draining d (some s)) (by rw [htasks]; exact List.mem_cons_self)
        cases this
    | reached s _ _ _ _ hs => rw [hs]; rfl

/-! ## Answers -/

/-- A flow is forgotten exactly if it is known and has come to its end. -/
theorem removeFlow_ok_iff (w : World) (id : FlowId) :
    (w.removeFlow id).2 = .ok () ↔ ∃ n g, w.find id = .ok (n, g) ∧ g.terminated.isSome := by
  unfold removeFlow change
  cases hfind : w.find id with
  | error e => simp
  | ok p =>
      obtain ⟨n, g⟩ := p
      cases hterm : g.terminated.isSome with
      | true => simp only [hterm, if_true, true_iff]; exact ⟨n, g, rfl, hterm⟩
      | false =>
          simp only [hterm, Bool.false_eq_true, if_false, reduceCtorEq, false_iff]
          rintro ⟨n', g', heq, hterm'⟩
          cases heq
          rw [hterm] at hterm'
          cases hterm'

/-- Whoever waits for the end of a flow is only told the state that is published. -/
theorem resumeCaller_onTermination {idle : Bool} {flow moment : Nat} {s : FlowState}
    (h : w.resumeCaller c idle (.onTermination flow some ⟨moment, none⟩) =
      some (w', .inr (some s))) :
    ∃ g, w.graph? flow = some g ∧ g.terminated = some s := by
  simp only [resumeCaller] at h
  split at h
  · next s' hs' =>
      obtain ⟨g, hg, hs⟩ := Option.bind_eq_some_iff.mp hs'
      simp only [Option.some.injEq, Prod.mk.injEq, Sum.inr.injEq] at h
      exact ⟨g, hg, by rw [hs, h.2]⟩
  · obtain ⟨k, hk, heq⟩ := Option.map_eq_some_iff.mp h
    have hnone : k = none := by
      simp only [Alarm.fired?] at hk
      split at hk <;> simp_all
    simp [hnone] at heq

/-- How flows end.  In every state of every run, for every flow: the only successful commit is the
one whose state is recorded; a state is published at most once, and it is that of the commit; a hook
only starts when the flow is committed and every stage has ended, and is given the state of the
commit; a state is only published when every hook registered so far has ended; whoever waits for the
end is only told the state of the commit; exactly the flows whose state has been published can be
forgotten; and where nothing can go on, the state has been published exactly if the flow is committed
and every stage has ended. -/
theorem flow_termination {es : List Event} {flow : Nat} {g : Graph}
    (hrun : World.empty.run c es = some w) (hg : w.graph? flow = some g) :
    (deedsAt flow (World.empty.history c es)).filterMap Deed.committed? = g.committed.toList ∧
    (deedsAt flow (World.empty.history c es)).filterMap Deed.published? = g.terminated.toList ∧
    (∀ s, g.terminated = some s → g.committed = some s) ∧
    (∀ e w', w.fire c e = some w' →
      (∀ index r, (flow, .hookStarted index r) ∈ w.deeds c e → ∃ s, g.committed = some s ∧
        (∀ t ∈ g.stages, t.phase.outcome?.isSome) ∧ r.args = [.success (.state s)]) ∧
      (∀ s, (flow, .published s) ∈ w.deeds c e →
        g.committed = some s ∧ g.hooks.completed = g.hooks.registered)) ∧
    (∀ idle moment w' s, w.resumeCaller c idle (.onTermination flow some ⟨moment, none⟩) =
      some (w', .inr (some s)) → g.terminated = some s ∧ g.committed = some s) ∧
    (∀ id, (w.removeFlow id).2 = .ok () ↔
      ∃ n g, w.find id = .ok (n, g) ∧ g.terminated.isSome) ∧
    (w.Stuck c →
      (g.terminated.isSome ↔ g.committed.isSome ∧ ∀ t ∈ g.stages, t.phase.outcome?.isSome)) := by
  have hchanges := changes_of_fresh hrun rfl hg
  obtain ⟨a, horderly⟩ := (Graph.orderly_new _).changes hchanges
  obtain ⟨hcommits, hpublications⟩ := Graph.once_of_changes hchanges
  have hstate : ∀ s, g.terminated = some s → g.committed = some s :=
    fun s hs => (horderly.terminated hs).1
  refine ⟨hcommits, hpublications, hstate, fun e w' hfire => ⟨?_, ?_⟩, ?_, w.removeFlow_ok_iff, ?_⟩
  · intro index r hmem
    obtain ⟨g₁, g', hg₁, -, hchange⟩ := change_of_hookDeed hfire hmem (.inl ⟨index, r, rfl⟩)
    obtain rfl : g = g₁ := Option.some.inj (hg.symm.trans hg₁)
    exact horderly.hookStarted hchange
  · intro s hmem
    obtain ⟨g₁, g', hg₁, -, hchange⟩ := change_of_hookDeed hfire hmem (.inr ⟨s, rfl⟩)
    obtain rfl : g = g₁ := Option.some.inj (hg.symm.trans hg₁)
    exact horderly.published_state hchange
  · intro idle moment w' s h
    obtain ⟨g₁, hg₁, hs⟩ := resumeCaller_onTermination h
    obtain rfl : g = g₁ := Option.some.inj (hg.symm.trans hg₁)
    exact ⟨hs, hstate s hs⟩
  · intro hstuck
    exact hstuck.terminated_iff hg horderly

/-- A flow with a hook that fails, until its end. -/
def hookedRun : List Event :=
  [.call (.createFlow "f"), .call (.addHook ⟨"0"⟩ (.bare "missing")),
    .call (.commit ⟨"0"⟩ .failed), .task (.hooks 0 0), .task (.hooks 0 0), .task (.hooks 0 0),
    .task (.hooks 0 0)]

/-- The state after `hookedRun`. -/
def hookedEnd : World := (World.empty.run .plain hookedRun).getD .empty

/-- The graph after `hookedRun`. -/
def hookedGraph : Graph := (hookedEnd.graph? 0).getD (.new ⟨"0"⟩)

theorem flow_termination_hooked :
    World.empty.run .plain hookedRun = some hookedEnd ∧
      hookedGraph.hooks.failures.map HookFailure.index = [0] ∧
      hookedGraph.terminated = some .failed ∧ hookedGraph.committed = some .failed ∧
      (deedsAt 0 (World.empty.history .plain hookedRun)).filterMap Deed.published? = [.failed] := by
  have hrun : World.empty.run .plain hookedRun = some hookedEnd := rfl
  have hg : hookedEnd.graph? 0 = some hookedGraph := rfl
  obtain ⟨-, hpublished, hstate, -⟩ := flow_termination hrun hg
  have hterminated : hookedGraph.terminated = some .failed := rfl
  exact ⟨hrun, rfl, hterminated, hstate _ hterminated, hpublished.trans (by rw [hterminated]; rfl)⟩

end World

end StageGraph
