/-
# `StageGraph.Proofs.BodyRun` — the bodies that are under way

A graph has a body under way for every stage that runs one, and for the hook that a task
of it runs.  Where do these bodies come from?  An event leaves such a body as it is, or
begins it as the invocation of something for the flow of the graph, or the body has asked
a question and goes on with the answer (`hasBody_of_fire`).

So what holds of every invocation, and of everything that goes on with an answer, holds of
all bodies in all states (`body_of_reachable`).
-/
import StageGraph.Proofs.Conduct
import StageGraph.Proofs.FailureRelay

namespace StageGraph

/-- The body of a hook that a task runs. -/
def HookTask.thread? : HookTask → Option BodyThread
  | draining d _ => d.running.map Hooks.Running.thread
  | _ => none

namespace Graph

variable {c : Completer} {g g' : Graph} {k n : Nat} {t : BodyThread}

/-- The body of a hook that the task at a position runs. -/
def hookThread? (g : Graph) (k : Nat) : Option BodyThread :=
  g.hookTasks[k]?.bind HookTask.thread?

/-- A body is under way for a stage of the graph, or for a hook. -/
inductive HasBody (g : Graph) : BodyThread → Prop
  | stage {n : Nat} {s : Stage} {t : BodyThread} {forward : Option Outcome} :
      g.stages[n]? = some s → s.phase = .running t forward → HasBody g t
  | hook {k : Nat} {t : BodyThread} : g.hookThread? k = some t → HasBody g t

theorem hookThread?_of_draining {d : Hooks.Drain BodyThread} {s : Option FlowState}
    {r : Hooks.Running BodyThread} (hk : g.hookTasks[k]? = some (.draining d s))
    (hd : d.running = some r) : g.hookThread? k = some r.thread := by
  rw [hookThread?, hk, Option.bind_some, HookTask.thread?, hd, Option.map_some]

theorem HasBody.of_draining {d : Hooks.Drain BodyThread} {s : Option FlowState}
    {r : Hooks.Running BodyThread} (hk : g.hookTasks[k]? = some (.draining d s))
    (hd : d.running = some r) : g.HasBody r.thread :=
  .hook (hookThread?_of_draining hk hd)

/-! ## Tasks that run hooks -/

/-- New tasks have no hook under way. -/
theorem hookThread?_append {extra : List HookTask} (hg : g'.hookTasks = g.hookTasks ++ extra)
    (hextra : ∀ t ∈ extra, t.thread? = none) : g'.hookThread? k = g.hookThread? k := by
  unfold hookThread?
  rw [hg]
  by_cases hk : k < g.hookTasks.length
  · rw [List.getElem?_append_left hk]
  · rw [List.getElem?_append_right (Nat.le_of_not_lt hk),
      List.getElem?_eq_none (Nat.le_of_not_lt hk)]
    cases hnew : extra[k - g.hookTasks.length]? with
    | none => rfl
    | some t => exact hextra t (List.mem_of_getElem? hnew)

theorem hookThread?_endIfDue (g : Graph) : g.endIfDue.hookThread? k = g.hookThread? k := by
  rcases g.endIfDue_cases with h | ⟨s, -, -, -, h⟩
  · rw [h]
  · have htasks : g.endIfDue.hookTasks = g.hookTasks ++ [.due s] := by rw [h]
    exact hookThread?_append htasks (by simp [HookTask.thread?])

theorem Call.hookThread? {d : Option Deed} (h : Call g d g') :
    g'.hookThread? k = g.hookThread? k := by
  cases h with
  | allocate _ h =>
      obtain ⟨-, -, rfl⟩ := allocate_eq_ok h
      rfl
  | addHook closure =>
      refine hookThread?_append (by rw [addHook_eq]) ?_
      intro t ht
      split at ht
      · obtain rfl := List.mem_singleton.mp ht
        rfl
      · cases ht
  | commit h =>
      obtain ⟨-, rfl⟩ := commit_eq_ok h
      exact hookThread?_endIfDue _
  | remove _ => rfl

theorem hookThread?_move (m : Move) : (g.move c n m).hookThread? k = g.hookThread? k := by
  cases m with
  | finish o => exact hookThread?_endIfDue _
  | _ => rfl

theorem hookThread?_setHookTask_ne {j : Nat} (h : j ≠ k) (t : HookTask) :
    (g.setHookTask j t).hookThread? k = g.hookThread? k := by
  simp [Graph.hookThread?, setHookTask, h]

theorem hookThread?_setHookTask_self {t₀ : HookTask} (hk : g.hookTasks[k]? = some t₀)
    (t : HookTask) : (g.setHookTask k t).hookThread? k = t.thread? := by
  have := (List.getElem?_eq_some_iff.mp hk).1
  simp [Graph.hookThread?, setHookTask, this]

/-- What a move of a drain leaves of the task, as far as it has a hook under way. -/
def drainThread? (c : Completer) (g : Graph) : DrainMove → Option BodyThread
  | .start h _ => some (.going (c.catalog.invoke (g.hookInvocation h.body)))
  | .turn r => some r.thread
  | .finish _ _ => none
  | .leave => none

theorem hookThread?_settleDrain {t₀ : HookTask} (hk : g.hookTasks[k]? = some t₀)
    (d : Hooks.Drain BodyThread) (m : DrainMove) (s : Option FlowState) :
    ((g.drainMove c d m).1.settleDrain k s (g.drainMove c d m).2).hookThread? k =
      g.drainThread? c m := by
  have hself (hooks : Hooks.Registry Closure) (t : HookTask) :
      ({ g with hooks := hooks }.setHookTask k t).hookThread? k = t.thread? :=
    hookThread?_setHookTask_self hk t
  cases m <;> exact hself _ _

theorem hookThread?_settleDrain_ne {j : Nat} (h : j ≠ k) (d : Hooks.Drain BodyThread)
    (m : DrainMove) (s : Option FlowState) :
    ((g.drainMove c d m).1.settleDrain j s (g.drainMove c d m).2).hookThread? k =
      g.hookThread? k := by
  cases m <;> exact hookThread?_setHookTask_ne h _

end Graph

namespace World

open StageGraph.Graph (Call HasBody)

variable {c : Completer} {w w' : World} {flow n k : Nat} {g g' : Graph} {t : BodyThread}
  {e : Event}

/-- The body of a hook that a task of a flow runs. -/
def hookThread? (w : World) (flow k : Nat) : Option BodyThread :=
  (w.graph? flow).bind fun g => g.hookThread? k

theorem hookThread?_of_graph (hg : w.graph? flow = some g) :
    w.hookThread? flow k = g.hookThread? k := by
  rw [hookThread?, hg]
  rfl

theorem Called.hookThread? {ds : List (Nat × Deed)} (h : Called c w w' ds) :
    w'.hookThread? flow k = w.hookThread? flow k := by
  cases hg : w.graph? flow with
  | some g =>
      obtain ⟨g', hg', rfl | ⟨d, hcall⟩⟩ := h.graph? hg
      · rw [hookThread?_of_graph hg', hookThread?_of_graph hg]
      · rw [hookThread?_of_graph hg', hookThread?_of_graph hg, hcall.hookThread?]
  | none =>
      cases hg' : w'.graph? flow with
      | none => simp [World.hookThread?, hg, hg']
      | some g' =>
          obtain rfl := (h.fresh flow hg).2 g' hg'
          simp [World.hookThread?, hg, hg', Graph.hookThread?, Graph.new]

/-- One graph is replaced, and the task is not of this graph, or has the same hook under way. -/
theorem hookThread?_setGraph {m : Nat} (hg : w.graph? m = some g)
    (h : m = flow → g'.hookThread? k = g.hookThread? k) :
    (w.setGraph m g').hookThread? flow k = w.hookThread? flow k := by
  by_cases hm : m = flow
  · subst hm
    rw [hookThread?_of_graph (graph?_setGraph_self hg g'), hookThread?_of_graph hg, h rfl]
  · simp [World.hookThread?, graph?_setGraph_ne hm]

/-- An event that is not a step of the task leaves its hook as it is. -/
theorem hookThread?_of_fire (h : w.fire c e = some w') (hne : e ≠ .task (.hooks flow k)) :
    w'.hookThread? flow k = w.hookThread? flow k := by
  have other {m j : Nat} (he : e = .task (.hooks m j)) : m = flow → j ≠ k := by
    rintro rfl rfl
    exact hne he
  cases fire_eq_some_iff.mp h with
  | call r => exact (Called.call c w r).hookThread?
  | removeFlow id => exact (Called.removeFlow c w id).hookThread?
  | clock | log | ran => rfl
  | @stage _ _ _ _ _ move _ hacts =>
      rw [hookThread?_setGraph hacts.graph₁ fun _ => Graph.hookThread?_move move,
        hacts.called.hookThread?]
  | begin hg | skip hg =>
      exact hookThread?_setGraph hg fun hm => Graph.hookThread?_setHookTask_ne (other rfl hm) _
  | @drain _ _ _ _ d s move _ hacts =>
      rw [hookThread?_setGraph hacts.graph₁ fun hm =>
        Graph.hookThread?_settleDrain_ne (other rfl hm) d move s, hacts.called.hookThread?]

/-! ## All bodies -/

/-- How a body of a flow has come to the point where it is after an event. -/
inductive BodyStep (c : Completer) (w : World) (e : Event) (w' : World) (flow : Nat) (id : FlowId) :
    BodyThread → Prop
  | kept {g : Graph} {t : BodyThread} : w.graph? flow = some g → g.HasBody t →
      BodyStep c w e w' flow id t
  | begun (r : Invocation) : r.flow = id → BodyStep c w e w' flow id (.going (c.catalog.invoke r))
  | asked {g : Graph} {t : BodyThread} {q : Question bodySignature} {who : Conductor}
      {next : q.Answer → FlowProgram bodySignature Outcome} : w.graph? flow = some g →
      g.HasBody t → w.resume? t = some (.ask q next) → who.event? = some e →
      who.flow? = some flow → w.Asks c q who w' →
      BodyStep c w e w' flow id ((w.pose c q).2.map next)

/-- A stage that a call has made has no body. -/
theorem not_running_of_fresh {s : Stage} {forward : Option Outcome} (h : s.Fresh g) :
    s.phase ≠ .running t forward := by
  intro hphase
  cases h with
  | completed o => cases hphase
  | delay moment => cases hphase
  | @resolved r _ _ _ =>
      simp only [Phase.initial] at hphase
      cases hready : r.operation.readiness <;> rw [hready] at hphase <;> cases hphase

/-- What a stage is to run when it goes on: a body that it has launched, or what has become of its
body by a question. -/
theorem bodyStep_of_move {w₁ : World} {s : Stage} {m : Move} {forward : Option Outcome}
    (hfire : w.fire c (.task (.stage flow n)) = some w') (hg : w.graph? flow = some g)
    (hs : g.stages[n]? = some s) (h : w.move? c g s = some (w₁, m))
    (hlanding : g.landing c n m = .running t forward) :
    BodyStep c w (.task (.stage flow n)) w' flow g.id t := by
  have resolved {inputs : List Outcome}
      (hlanding : g.landing c n (s.resolve inputs) = .running t forward) :
      BodyStep c w (.task (.stage flow n)) w' flow g.id t := by
    rcases Graph.resolve_cases s inputs with ⟨o, hm⟩ | ⟨closure, args, forward', hm⟩
    · rw [hm] at hlanding
      cases hlanding
    · rw [hm] at hlanding
      cases hlanding
      exact .begun _ rfl
  cases move?_eq_some_iff.mp h with
  | wake | gather | adopt => cases hlanding
  | resolve | choose => exact resolved hlanding
  | ask hphase hp =>
      cases hlanding
      exact .asked hg (.stage hs hphase) hp rfl rfl
        (.stage ((stage?_of_graph hg).trans hs) hphase hp hfire)
  | @conclude _ forward' _ o =>
      -- A body that has ended does not go on.
      rcases g.conclude_cases s forward' o with ⟨o', hm⟩ | ⟨target, hm⟩
      · rw [hm] at hlanding
        cases hlanding
      · rw [hm] at hlanding
        cases hlanding

/-- The same for a hook. -/
theorem bodyStep_of_drainMove {w₁ : World} {d : Hooks.Drain BodyThread} {s : Option FlowState}
    {m : DrainMove} (hfire : w.fire c (.task (.hooks flow k)) = some w')
    (hg : w.graph? flow = some g) (hk : g.hookTasks[k]? = some (.draining d s))
    (h : w.drainMove? c g d = some (w₁, m)) (hm : g'.drainThread? c m = some t) :
    BodyStep c w (.task (.hooks flow k)) w' flow g'.id t := by
  cases drainMove?_eq_some_iff.mp h with
  | start =>
      cases hm
      exact .begun _ rfl
  | leave | finish | cut => cases hm
  | ask hr hresume =>
      cases hm
      exact .asked hg (.of_draining hk hr) hresume rfl rfl (.hook hg hk hr hresume hfire)

/-- After an event, every body has come to its point in one of three ways. -/
theorem hasBody_of_fire (h : w.fire c e = some w') (hg' : w'.graph? flow = some g')
    (ht : g'.HasBody t) : BodyStep c w e w' flow g'.id t := by
  cases ht with
  | @stage n s' t forward hs' hphase =>
      have hstage : w'.stage? flow n = some s' := (stage?_of_graph hg').trans hs'
      cases hs : w.stage? flow n with
      | none =>
          obtain ⟨g, hfresh⟩ := fresh_of_fire h hs hstage
          exact absurd hphase (not_running_of_fresh hfresh)
      | some s =>
          obtain ⟨g, hg, hgs⟩ := stage?_eq_some.mp hs
          rcases stage_of_fire h hs with hsame | ⟨rfl, g₁, m, hsteps⟩
          · obtain rfl := Option.some.inj (hsame.symm.trans hstage)
            exact .kept hg (.stage hgs hphase)
          · obtain rfl := Option.some.inj (hg.symm.trans hsteps.graph)
            have hid : g'.id = g.id := by
              obtain ⟨g₂, hg₂, hchanges⟩ := (moved_fire h).old flow g hg
              obtain rfl := Option.some.inj (hg'.symm.trans hg₂)
              exact hchanges.grows.id
            obtain rfl := Option.some.inj (hstage.symm.trans hsteps.landing)
            obtain ⟨w₁, hmove⟩ := hsteps.move
            exact hid ▸ bodyStep_of_move h hg hgs hmove hphase
  | @hook k t hk =>
      by_cases hown : e = .task (.hooks flow k)
      · subst hown
        cases fire_eq_some_iff.mp h with
        | @begin _ _ g s hg htask | @skip _ _ g s hg htask =>
            -- A task that begins to run hooks has none under way.
            obtain rfl := Option.some.inj (hg'.symm.trans (graph?_setGraph_self hg _))
            have hnone (t : HookTask) := Graph.hookThread?_setHookTask_self
              (g := { g with hooks := (g.hooks.terminate s).1 }) htask t
            cases hk.symm.trans (hnone _)
        | @drain _ _ _ g₁ d s m _ hacts =>
            obtain rfl := Option.some.inj (hg'.symm.trans (graph?_setGraph_self hacts.graph₁ _))
            rw [Graph.hookThread?_settleDrain hacts.task₁] at hk
            have hid : ((g₁.drainMove c d m).1.settleDrain k s (g₁.drainMove c d m).2).id =
                g₁.id := by
              cases m <;> rfl
            rw [hid]
            exact bodyStep_of_drainMove h hacts.graph hacts.task hacts.move hk
      · have hkept := hookThread?_of_fire h hown
        rw [hookThread?_of_graph hg', hk] at hkept
        obtain ⟨g, hg, hgk⟩ := Option.bind_eq_some_iff.mp hkept.symm
        exact .kept hg (.hook hgk)

/-- What every invocation for a flow satisfies, and everything that goes on with an answer, all
bodies of all flows satisfy, in every state. -/
theorem body_of_reachable {P : Nat → BodyThread → Prop}
    (hbegun : ∀ flow r, r.flow = c.flowName flow → P flow (.going (c.catalog.invoke r)))
    (hasked : ∀ (w : World) flow t q (next : q.Answer → FlowProgram bodySignature Outcome),
      w.Reachable c → P flow t → w.resume? t = some (.ask q next) →
      P flow ((w.pose c q).2.map next))
    (h : w.Reachable c) (hg : w.graph? flow = some g) (ht : g.HasBody t) : P flow t := by
  obtain ⟨es, hrun⟩ := h
  suffices hall : ∀ (w₀ : World), w₀.Reachable c →
      (∀ m g t, w₀.graph? m = some g → g.HasBody t → P m t) → w₀.run c es = some w →
      ∀ m g t, w.graph? m = some g → g.HasBody t → P m t by
    refine hall .empty ⟨[], rfl⟩ ?_ hrun flow g t hg ht
    intro m g t hnone
    cases hnone
  clear hrun
  induction es with
  | nil =>
      intro w₀ _ hw₀ hrun
      obtain rfl := Option.some.inj hrun
      exact hw₀
  | cons e es ih =>
      intro w₀ hreach hw₀ hrun
      obtain ⟨w₁, hfire, hrun⟩ := Option.bind_eq_some_iff.mp hrun
      have hreach₁ := hreach.run (run_fire hfire)
      refine ih w₁ hreach₁ ?_ hrun
      intro m g t hg ht
      cases hasBody_of_fire hfire hg ht with
      | kept hg₀ ht₀ => exact hw₀ m _ t hg₀ ht₀
      | begun r hr => exact hbegun m r (hr.trans (id_of_reachable hreach₁ hg))
      | asked hg₀ ht₀ hresume _ _ _ => exact hasked w₀ m _ _ _ hreach (hw₀ m _ _ hg₀ ht₀) hresume

end World

end StageGraph
