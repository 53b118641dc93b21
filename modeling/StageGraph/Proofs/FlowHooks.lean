/-
# `StageGraph.Proofs.FlowHooks` — the hook of a flow that is under way

A flow has at most one drain at a time, so at most one of its hooks is under way
(`Graph.running?`).  An event leaves this hook as it is, or it is a step of the drain, and such a
step does one of five things: it takes the next hook, it has the hook under way ask a question, the
hook ends, the hook is cut off because its time is over, or the drain is over (`World.HookEvent`).

What the registry of the flow has counted is never taken back (`Graph.Change.grows_hooks`).
-/
import StageGraph.Proofs.BodyRun
import StageGraph.Proofs.HookTimes
import StageGraph.Proofs.Termination

namespace StageGraph

open Hooks (Activity Drain Running)

/-- The drain of a task, if it runs one. -/
def HookTask.drain? : HookTask → Option (Drain BodyThread)
  | draining d _ => some d
  | _ => none

theorem HookTask.activity?_eq (t : HookTask) : t.activity? = t.drain?.map Drain.activity := by
  cases t <;> rfl

/-- The hook that is under way after a move of a drain. -/
def DrainMove.running? (c : Completer) (g : Graph) : DrainMove → Option (Running BodyThread)
  | start p limit => some ⟨p.index, .going (c.catalog.invoke (g.hookInvocation p.body)), limit⟩
  | turn r => some r
  | finish _ _ => none
  | leave => none

namespace Graph

variable {c : Completer} {g g' g'' : Graph} {a : Activity} {k : Nat} {d : Drain BodyThread}
  {s : Option FlowState} {r : Running BodyThread}

/-- The drains under way. -/
def drains (g : Graph) : List (Drain BodyThread) := g.hookTasks.filterMap HookTask.drain?

/-- The hook under way. -/
def running? (g : Graph) : Option (Running BodyThread) := g.drains.head?.bind Drain.running

theorem running?_of_drains (h : g.drains = [d]) : g.running? = d.running := by
  rw [running?, h]
  rfl

/-! ## One drain at a time -/

namespace Orderly

variable (h : g.Orderly a)

include h

/-- What is going on is what the drains do. -/
theorem map_drains : g.drains.map Drain.activity = a.drains := by
  rw [Graph.drains, List.map_filterMap, ← h.drains]
  exact congrArg (g.hookTasks.filterMap ·) (funext fun t => t.activity?_eq.symm)

theorem drains_eq (hk : g.hookTasks[k]? = some (.draining d s)) : g.drains = [d] := by
  have hmem : d ∈ g.drains := List.mem_filterMap.mpr ⟨_, List.mem_of_getElem? hk, rfl⟩
  have hmap := h.map_drains.trans (h.activity hk).2
  obtain ⟨d', hd', -⟩ := List.map_eq_singleton_iff.mp hmap
  rw [hd', List.mem_singleton] at hmem
  rw [hd', hmem]

/-- The drains after the task of the only one has been replaced. -/
theorem drains_setHookTask (hk : g.hookTasks[k]? = some (.draining d s)) (t : HookTask) :
    (g.setHookTask k t).drains = t.drain?.toList := filterMap_set (h.drains_eq hk) hk rfl

/-- A move of the drain leaves the hook that it says. -/
theorem running?_settleDrain (hk : g.hookTasks[k]? = some (.draining d s)) (m : DrainMove) :
    ((g.drainMove c d m).1.settleDrain k s (g.drainMove c d m).2).running? = m.running? c g := by
  have hdrains (hooks : Hooks.Registry Closure) (t : HookTask) :
      ({ g with hooks := hooks }.setHookTask k t).drains = t.drain?.toList :=
    h.drains_setHookTask hk t
  cases m with
  | leave =>
      have hnone : ({ g with hooks := g.hooks.next?.1 }.setHookTask k .finished).drains = [] :=
        hdrains _ _
      show (({ g with hooks := g.hooks.next?.1 }.setHookTask k .finished).drains.head?.bind
        Drain.running) = none
      rw [hnone]
      rfl
  | _ => exact running?_of_drains (hdrains _ (.draining _ s))

/-- The hook under way is the one with which the registry is busy. -/
theorem busy_of_running (hr : g.running? = some r) : a = .busy r.index := by
  obtain ⟨d, hd, hr⟩ := Option.bind_eq_some_iff.mp hr
  have hmem : d.activity ∈ a.drains :=
    h.map_drains ▸ List.mem_map_of_mem (List.mem_of_head? hd)
  exact (Hooks.Activity.eq_of_mem_drains hmem).1.trans (Drain.activity_eq_busy.mpr ⟨r, hr, rfl⟩)

theorem running_of_busy {index : Nat} (ha : a = .busy index) :
    ∃ r, g.running? = some r ∧ r.index = index := by
  subst ha
  obtain ⟨d, hd, hactivity⟩ := List.map_eq_singleton_iff.mp h.map_drains
  obtain ⟨r, hr, hindex⟩ := Drain.activity_eq_busy.mp hactivity
  exact ⟨r, (running?_of_drains hd).trans hr, hindex⟩

/-- A drain between two hooks is that of a task. -/
theorem task_of_between (ha : a = .between) :
    ∃ (k : Nat) (d : Drain BodyThread) (s : Option FlowState),
      g.hookTasks[k]? = some (.draining d s) ∧ d.running = none := by
  subst ha
  obtain ⟨d, hd, hactivity⟩ := List.map_eq_singleton_iff.mp h.map_drains
  obtain ⟨t, ht, hdrain⟩ := List.mem_filterMap.mp (hd ▸ List.mem_singleton_self d : d ∈ g.drains)
  obtain ⟨k, hk⟩ := List.mem_iff_getElem?.mp ht
  cases t with
  | draining d' s =>
      obtain rfl := Option.some.inj hdrain
      exact ⟨k, d', s, hk, Drain.activity_eq_between.mp hactivity⟩
  | _ => cases hdrain

end Orderly

/-! ## What leaves hooks alone -/

/-- No hook has ended, and the end of the flow has not been published. -/
structure NoneEnded (g g' : Graph) : Prop where
  completed : g'.hooks.completed = g.hooks.completed
  failures : g'.hooks.failures = g.hooks.failures
  terminated : g'.terminated = g.terminated

/-- The same, and the hook under way is as it was. -/
structure HooksKept (g g' : Graph) : Prop extends NoneEnded g g' where
  running : g'.running? = g.running?

theorem NoneEnded.trans (h : NoneEnded g g') (h' : NoneEnded g' g'') : NoneEnded g g'' :=
  ⟨h'.completed.trans h.completed, h'.failures.trans h.failures, h'.terminated.trans h.terminated⟩

theorem HooksKept.refl (g : Graph) : HooksKept g g := ⟨⟨rfl, rfl, rfl⟩, rfl⟩

theorem HooksKept.trans (h : HooksKept g g') (h' : HooksKept g' g'') : HooksKept g g'' :=
  ⟨h.toNoneEnded.trans h'.toNoneEnded, h'.running.trans h.running⟩

/-- New tasks have no hook under way. -/
theorem running?_append {extra : List HookTask} (hg : g'.hookTasks = g.hookTasks ++ extra)
    (hextra : ∀ t ∈ extra, ∀ d, t.drain? = some d → d.running = none) :
    g'.running? = g.running? := by
  rw [running?, drains, hg, List.filterMap_append]
  cases hd : g.hookTasks.filterMap HookTask.drain? with
  | cons d ds => simp [running?, drains, hd]
  | nil =>
      rw [List.nil_append, running?, drains, hd]
      cases hnew : (extra.filterMap HookTask.drain?).head? with
      | none => rfl
      | some d =>
          obtain ⟨t, ht, hdrain⟩ := List.mem_filterMap.mp (List.mem_of_head? hnew)
          exact hextra t ht d hdrain

theorem running?_endIfDue (g : Graph) : g.endIfDue.running? = g.running? := by
  rcases g.endIfDue_cases with h | ⟨s, -, -, -, h⟩
  · rw [h]
  · have htasks : g.endIfDue.hookTasks = g.hookTasks ++ [.due s] := by rw [h]
    exact running?_append htasks (by simp [HookTask.drain?])

theorem Call.hooksKept {deed : Option Deed} (h : Call g deed g') : HooksKept g g' := by
  cases h with
  | allocate _ h =>
      obtain ⟨-, -, rfl⟩ := allocate_eq_ok h
      exact ⟨⟨rfl, rfl, rfl⟩, rfl⟩
  | addHook closure =>
      refine ⟨by rw [addHook_eq]; exact ⟨rfl, rfl, rfl⟩, running?_append (by rw [addHook_eq]) ?_⟩
      intro t ht d hd
      split at ht
      · obtain rfl := List.mem_singleton.mp ht
        obtain rfl := Option.some.inj hd
        rfl
      · cases ht
  | commit h =>
      obtain ⟨-, rfl⟩ := commit_eq_ok h
      exact ⟨⟨by simp, by simp, by simp⟩, running?_endIfDue _⟩
  | remove _ => exact ⟨⟨rfl, rfl, rfl⟩, rfl⟩

theorem hooksKept_move {n : Nat} (m : Move) : HooksKept g (g.move c n m) := by
  cases m with
  | finish o =>
      exact ⟨⟨by simp [move, finish, setPhase], by simp [move, finish, setPhase],
        by simp [move, finish, setPhase]⟩, running?_endIfDue _⟩
  | _ => exact ⟨⟨rfl, rfl, rfl⟩, rfl⟩

/-- A drain that begins has no hook under way. -/
theorem Orderly.hooksKept_begin {s : FlowState} (h : g.Orderly a)
    (hk : g.hookTasks[k]? = some (.due s)) : HooksKept g
      ({ g with hooks := (g.hooks.terminate s).1 }.setHookTask k (.draining .fresh (some s))) := by
  obtain ⟨-, rfl, htasks, -⟩ := h.due hk
  refine ⟨⟨by simp [setHookTask], by simp [setHookTask], rfl⟩, ?_⟩
  have hbefore : g.drains = [] := by
    rw [Graph.drains, htasks]
    rfl
  have hafter : ({ g with hooks := (g.hooks.terminate s).1 }.setHookTask 0
      (.draining .fresh (some s))).drains = [.fresh] := by
    simp only [Graph.drains, setHookTask, htasks]
    rfl
  rw [running?_of_drains hafter, running?, hbefore]
  rfl

/-! ## What is counted -/

/-- Nothing that has been counted is taken back. -/
theorem Change.grows_hooks {deed : Option Deed} (h : Change c g deed g') : g.hooks.Grows g'.hooks := by
  cases h with
  | call h =>
      cases h with
      | allocate _ h =>
          obtain ⟨-, -, rfl⟩ := allocate_eq_ok h
          exact .refl _
      | addHook closure =>
          rw [addHook_eq]
          exact g.hooks.grows_register closure
      | commit h =>
          obtain ⟨-, rfl⟩ := commit_eq_ok h
          rw [endIfDue_hooks]
          exact .refl _
      | remove _ => exact .refl _
  | move _ _ =>
      rw [move_hooks]
      exact .refl _
  | begin _ _ => exact g.hooks.grows_terminate _
  | skip _ _ => exact g.hooks.grows_terminate _
  | @drain _ _ _ m _ _ =>
      cases m with
      | start p limit => exact g.hooks.grows_next?
      | turn r => exact .refl _
      | finish index e => exact g.hooks.grows_record _
      | leave => exact g.hooks.grows_next?

theorem Changes.grows_hooks {deeds : List Deed} (h : Changes c g deeds g') : g.hooks.Grows g'.hooks := by
  induction h with
  | refl => exact .refl _
  | tail _ h ih => exact ih.trans h.grows_hooks

/-- The end of a flow that has been published stays so. -/
theorem Change.terminated {deed : Option Deed} (h : Change c g deed g')
    (hs : g.terminated.isSome) : g'.terminated.isSome := by
  cases h with
  | call h => rwa [h.hooksKept.terminated]
  | move _ _ => rwa [(hooksKept_move _).terminated]
  | begin _ _ => exact hs
  | skip _ _ => rfl
  | @drain _ s _ m _ _ =>
      cases m with
      | leave =>
          show (s.or g.terminated).isSome
          simp [hs]
      | _ => exact hs

end Graph

namespace World

open StageGraph.Graph (Call Changes Ends HooksKept NoneEnded)

variable {c : Completer} {w w' w₁ : World} {flow k m : Nat} {g g' g₁ : Graph} {e : Event}
  {d : Drain BodyThread} {s : Option FlowState} {move : DrainMove}

/-! ## The graph of a flow -/

/-- The graph of a flow, which is empty as long as the flow is not there. -/
def graphAt (c : Completer) (w : World) (flow : Nat) : Graph :=
  (w.graph? flow).getD (.new (c.flowName flow))

theorem graphAt_of_graph (hg : w.graph? flow = some g) : w.graphAt c flow = g := by
  rw [graphAt, hg, Option.getD_some]

theorem Moved.graphAt {ds : List (Nat × Deed)} (h : Moved c w w' ds) :
    Changes c (w.graphAt c flow) (deedsAt flow ds) (w'.graphAt c flow) := by
  cases hg : w.graph? flow with
  | some g =>
      obtain ⟨g', hg', hchanges⟩ := h.old flow g hg
      rwa [graphAt_of_graph hg, graphAt_of_graph hg']
  | none =>
      obtain ⟨hds, hnew⟩ := h.fresh flow hg
      have hsame : w'.graphAt c flow = w.graphAt c flow := by
        cases hg' : w'.graph? flow with
        | none => rw [World.graphAt, World.graphAt, hg, hg']
        | some g =>
            obtain rfl := hnew g hg'
            rw [World.graphAt, World.graphAt, hg, hg']
            rfl
      rw [hds, hsame]
      exact .refl _

theorem orderly_graphAt (h : w.Reachable c) (flow : Nat) : ∃ a, (w.graphAt c flow).Orderly a := by
  cases hg : w.graph? flow with
  | none =>
      rw [graphAt, hg]
      exact ⟨_, Graph.orderly_new _⟩
  | some g =>
      obtain ⟨ds, hchanges⟩ := changes_of_reachable h hg
      rw [graphAt_of_graph hg]
      exact (Graph.orderly_new _).changes hchanges

theorem Called.hooksKept {ds : List (Nat × Deed)} (h : Called c w w' ds) :
    HooksKept (w.graphAt c flow) (w'.graphAt c flow) := by
  cases hg : w.graph? flow with
  | some g =>
      obtain ⟨g', hg', rfl | ⟨d, hcall⟩⟩ := h.graph? hg
      · rw [graphAt_of_graph hg, graphAt_of_graph hg']
        exact .refl _
      · rw [graphAt_of_graph hg, graphAt_of_graph hg']
        exact hcall.hooksKept
  | none =>
      cases hg' : w'.graph? flow with
      | none =>
          rw [graphAt, graphAt, hg, hg']
          exact .refl _
      | some g' =>
          obtain rfl := (h.fresh flow hg).2 g' hg'
          rw [graphAt, graphAt, hg, hg']
          exact .refl _

/-- One graph is replaced, and it is not that of the flow, or leaves its hooks alone. -/
theorem hooksKept_setGraph (hg : w.graph? m = some g) (h : m = flow → HooksKept g g') :
    HooksKept (w.graphAt c flow) ((w.setGraph m g').graphAt c flow) := by
  by_cases hm : m = flow
  · subst hm
    rw [graphAt_of_graph hg, graphAt_of_graph (graph?_setGraph_self hg g')]
    exact h rfl
  · rw [graphAt, graphAt, graph?_setGraph_ne hm]
    exact .refl _

/-! ## What a drain does -/

/-- What a step of the drain does to the hook under way. -/
inductive DrainStep (c : Completer) (flow k : Nat) (w w' : World) : Prop
  | leaves : (w.graphAt c flow).running? = none → (w'.graphAt c flow).running? = none →
      (w'.graphAt c flow).hooks.completed = (w.graphAt c flow).hooks.completed →
      (w'.graphAt c flow).hooks.failures = (w.graphAt c flow).hooks.failures →
      (w'.graphAt c flow).hooks.terminal.isSome → (w'.graphAt c flow).hooks.draining = false →
      DrainStep c flow k w w'
  | starts (index : Nat) (r : Invocation) :
      (flow, .hookStarted index r) ∈ w.deeds c (.task (.hooks flow k)) →
      index = (w.graphAt c flow).hooks.taken →
      (w'.graphAt c flow).running? =
        some ⟨index, .going (c.catalog.invoke r), w.after c.hookLimit⟩ →
      NoneEnded (w.graphAt c flow) (w'.graphAt c flow) → DrainStep c flow k w w'
  | asks (r : Running BodyThread) (q : Question bodySignature)
      (next : q.Answer → FlowProgram bodySignature Outcome) :
      (w.graphAt c flow).running? = some r → w.hookThread? flow k = some r.thread →
      w.resume? r.thread = some (.ask q next) →
      (w'.graphAt c flow).running? = some { r with thread := (w.pose c q).2.map next } →
      NoneEnded (w.graphAt c flow) (w'.graphAt c flow) → DrainStep c flow k w w'
  /-- The hook ends by itself, or it is cut off. -/
  | ends (r : Running BodyThread) (e : Hooks.Ending) : (w.graphAt c flow).running? = some r →
      (∃ p o, w.resume? r.thread = some p ∧ Ends p o ∧ e = hookEnding o) ∨
        r.limit ≤ w.clock ∧ e = .timedOut c.hookLimit →
      (w'.graphAt c flow).running? = none →
      (w'.graphAt c flow).hooks.completed = (w.graphAt c flow).hooks.completed + 1 →
      (w'.graphAt c flow).hooks.failures =
        (w.graphAt c flow).hooks.failures ++ (e.failure? r.index).toList →
      (w'.graphAt c flow).terminated = (w.graphAt c flow).terminated → DrainStep c flow k w w'

/-- A task that drains hooks takes a step of the drain. -/
theorem drainStep_of_acts (hreach : w.Reachable c) (h : DrainActs c w flow k g d s move w₁ g₁) :
    DrainStep c flow k w
      (w₁.setGraph flow ((g₁.drainMove c d move).1.settleDrain k s (g₁.drainMove c d move).2)) := by
  obtain ⟨a, horderly⟩ := orderly_graphAt hreach flow
  rw [graphAt_of_graph h.graph] at horderly
  have hrunning := Graph.running?_of_drains (horderly.drains_eq h.task)
  generalize hg' : (g₁.drainMove c d move).1.settleDrain k s (g₁.drainMove c d move).2 = g'
  have hat : w.graphAt c flow = g := graphAt_of_graph h.graph
  have hat' : (w₁.setGraph flow g').graphAt c flow = g' :=
    graphAt_of_graph (graph?_setGraph_self h.graph₁ g')
  have hrunning' : ((w₁.setGraph flow g').graphAt c flow).running? = move.running? c g₁ := by
    have hkept : ∃ a, g₁.Orderly a := by
      rcases h.call with rfl | ⟨deed, hcall⟩
      · exact ⟨a, horderly⟩
      · exact horderly.change (c := c) (.call hcall)
    obtain ⟨a₁, horderly₁⟩ := hkept
    rw [hat', ← hg', horderly₁.running?_settleDrain h.task₁ move]
  cases drainMove?_eq_some_iff.mp h.move with
  | @start p hr hnext =>
      obtain rfl := Option.some.inj (h.graph.symm.trans h.graph₁)
      have hhooks := horderly.between h.task hr
      obtain ⟨-, hindex, -⟩ := hhooks.start hnext
      refine .starts p.index (g.hookInvocation p.body) ?_ ?_ hrunning' ?_
      · simp only [deeds, taskDeeds, h.graph, h.task, hookDeeds, h.move, Option.getD_some]
        exact List.mem_append_right _ (List.mem_singleton_self _)
      · rw [hat, hindex, hhooks.taken]
        rfl
      · rw [hat, hat', ← hg']
        exact ⟨g.hooks.next?_completed, g.hooks.next?_failures, rfl⟩
  | leave hr hnext =>
      obtain rfl := Option.some.inj (h.graph.symm.trans h.graph₁)
      have hhooks := horderly.between h.task hr
      obtain ⟨hidle, -⟩ := hhooks.leave hnext
      have hsame : g'.hooks = g.hooks.next?.1 := hg' ▸ rfl
      refine .leaves ?_ hrunning' ?_ ?_ ?_ ?_
      · rw [hat, hrunning, hr]
      · rw [hat, hat', hsame, Hooks.Registry.next?_completed]
      · rw [hat, hat', hsame, Hooks.Registry.next?_failures]
      · rw [hat', hsame, Hooks.Registry.next?_terminal]
        exact hhooks.terminal (by simp)
      · rw [hat', hsame]
        exact hidle.not_draining
  | @ask r q next hr hresume =>
      refine .asks r q next ?_ ?_ hresume hrunning' ?_
      · rw [hat, hrunning, hr]
      · rw [hookThread?_of_graph h.graph, Graph.hookThread?_of_draining h.task hr]
      · have hkept : HooksKept g g₁ := by
          rcases h.call with rfl | ⟨deed, hcall⟩
          · exact .refl _
          · exact hcall.hooksKept
        rw [hat, hat', ← hg']
        exact hkept.toNoneEnded.trans ⟨rfl, rfl, rfl⟩
  | @finish r p o hr hresume hends =>
      obtain rfl := Option.some.inj (h.graph.symm.trans h.graph₁)
      refine .ends r (hookEnding o) ?_ (.inl ⟨p, o, hresume, hends, rfl⟩) hrunning' ?_ ?_ ?_
      · rw [hat, hrunning, hr]
      all_goals rw [hat, hat', ← hg']; rfl
  | @cut r hr _ hlimit =>
      obtain rfl := Option.some.inj (h.graph.symm.trans h.graph₁)
      refine .ends r (.timedOut c.hookLimit) ?_ (.inr ⟨hlimit, rfl⟩) hrunning' ?_ ?_ ?_
      · rw [hat, hrunning, hr]
      all_goals rw [hat, hat', ← hg']; rfl

/-- An event leaves the hook of a flow that is under way as it is, or it is a step of the drain. -/
theorem hooks_of_fire (flow : Nat) (hreach : w.Reachable c) (h : w.fire c e = some w') :
    HooksKept (w.graphAt c flow) (w'.graphAt c flow) ∨
      ∃ k, e = .task (.hooks flow k) ∧ DrainStep c flow k w w' := by
  cases fire_eq_some_iff.mp h with
  | call r => exact .inl (Called.call c w r).hooksKept
  | removeFlow id => exact .inl (Called.removeFlow c w id).hooksKept
  | clock | log | ran => exact .inl (.refl _)
  | @stage _ _ _ _ _ move _ hacts =>
      exact .inl (hacts.called.hooksKept.trans
        (hooksKept_setGraph hacts.graph₁ fun _ => Graph.hooksKept_move move))
  | @begin m _ g _ hg hk _ =>
      obtain ⟨a, horderly⟩ := orderly_graphAt hreach m
      rw [graphAt_of_graph hg] at horderly
      exact .inl (hooksKept_setGraph hg fun _ => horderly.hooksKept_begin hk)
  | @skip m _ g _ hg hk hstarts =>
      -- The end of a flow always has a drain begin.
      obtain ⟨a, horderly⟩ := orderly_graphAt hreach m
      rw [graphAt_of_graph hg] at horderly
      cases hstarts.symm.trans (horderly.terminate_starts hk)
  | @drain m k _ _ _ _ _ _ hacts =>
      by_cases hm : m = flow
      · subst hm
        exact .inr ⟨k, rfl, drainStep_of_acts hreach hacts⟩
      · exact .inl (hacts.called.hooksKept.trans
          (hooksKept_setGraph hacts.graph₁ fun heq => absurd heq hm))

end World

end StageGraph
