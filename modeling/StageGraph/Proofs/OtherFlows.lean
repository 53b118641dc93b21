/-
# `StageGraph.Proofs.OtherFlows` — what belongs to the other flows of a completer

The flows of a completer share its clock, its catalog and its list of graphs.  What belongs
to one of them is what its share of a run is made of (`share`): the call that makes it, the
calls that name it, and the steps of its tasks, with time going on for all.  Whether the
call that makes a flow is that of the flow at position `f` is known from how many flows have
been made before it.

Bodies are assumed to act only on their own flow (`World.OwnRun`): this is a condition on
what they ask in the run at hand, and it is fulfilled in every run if the programs of the
catalog keep to their flow whatever they are told (`World.ownRun_of_keeps`).  Then a step
of a task is at most one question about the flow of the task, and a change of the graph of
this flow (`World.task_cases`), and what does not belong to a flow spares it
(`World.spares_fire`).
-/
import StageGraph.Proofs.BodyRun

namespace StageGraph

/-! ## What belongs to a flow -/

/-- The flow that a call names; the call that makes a flow names none. -/
def Request.flow? : Request → Option FlowId
  | .createFlow _ => none
  | .addStage flow _ => some flow
  | .addCompleted flow _ => some flow
  | .addDelay flow _ => some flow
  | .awaitStage flow _ _ => some flow
  | .addHook flow _ => some flow
  | .commit flow _ => some flow

theorem Request.eq_createFlow {r : Request} (h : r.flow? = none) :
    ∃ function, r = .createFlow function := by
  cases r with
  | createFlow function => exact ⟨function, rfl⟩
  | _ => cases h

/-- The question is about no other flow than this one. -/
def Question.Concerns (flow : FlowId) : Question bodySignature → Prop
  | .call r => r.flow? = some flow
  | .other (.removeFlow id) => id = flow
  | _ => True

/-- Whatever it is told, the program asks only about one flow. -/
def Program.Keeps {α : Type} (flow : FlowId) : FlowProgram bodySignature α → Prop
  | .ask q next => q.Concerns flow ∧ ∀ x, (next x).Keeps flow
  | _ => True

namespace Program.Keeps

variable {α β : Type} {flow : FlowId} {p : FlowProgram bodySignature α}

theorem bind {f : α → FlowProgram bodySignature β} (hp : p.Keeps flow)
    (hf : ∀ a, (f a).Keeps flow) : (p.bind f).Keeps flow := by
  induction p with
  | done a => exact hf a
  | panic m => trivial
  | ask q next ih => exact ⟨hp.1, fun x => ih x (hp.2 x)⟩

theorem attempt (hp : p.Keeps flow) : p.attempt.Keeps flow := by
  induction p with
  | done a => trivial
  | panic m => trivial
  | ask q next ih => exact ⟨hp.1, fun x => ih x (hp.2 x)⟩

end Program.Keeps

theorem Catalog.keeps_invoke {k : Catalog} {r : Invocation}
    (h : ∀ c, k.find? r.closure.entry = some c →
      (FlowProgram.scope r.flow (c.run r.closure r.args).run).Keeps r.flow) :
    (k.invoke r).Keeps r.flow := by
  unfold invoke
  cases hc : k.find? r.closure.entry with
  | none => trivial
  | some c =>
      by_cases ha : r.args.length = c.kind.arity
      · simp only [if_pos ha]
        exact (h c hc).attempt.bind fun _ => trivial
      · simp only [if_neg ha]
        trivial

/-- Where a body asks something in an event, the question is about the flow of the body. -/
def World.OwnEvent (c : Completer) (w : World) (e : Event) : Prop :=
  ∀ (who : Conductor) (flow : Nat) (q : Question bodySignature) (w' : World),
    who.event? = some e → who.flow? = some flow → w.Asks c q who w' →
    q.Concerns (c.flowName flow)

/-- In a run, bodies act only on the flow that is current for them, which is the flow of their stage
or hook. -/
def World.OwnRun (c : Completer) (w : World) : List Event → Prop
  | [] => True
  | e :: es => w.OwnEvent c e ∧ ∀ w', w.fire c e = some w' → w'.OwnRun c es

/-- Whether a call belongs to the flow at a position, if `count` flows have been made before. -/
def Request.isOf (c : Completer) (f count : Nat) : Request → Bool
  | .createFlow _ => count = f
  | r => r.flow? = some (c.flowName f)

theorem Request.isOf_eq {c : Completer} {f count : Nat} {r : Request} {id : FlowId}
    (h : r.flow? = some id) : r.isOf c f count = decide (id = c.flowName f) := by
  cases r with
  | createFlow function => cases h
  | _ => simp [isOf, h]

namespace Event

/-- What is left of an event for the flow at a position, if `count` flows have been made before:
nothing, if it is a call or a step that belongs to another flow. -/
def share? (c : Completer) (f count : Nat) : Event → Option Event
  | .call r => if r.isOf c f count then some (.call r) else none
  | .removeFlow flow => if flow = c.flowName f then some (.removeFlow flow) else none
  | .task (.stage flow n) => if flow = f then some (.task (.stage 0 n)) else none
  | .task (.hooks flow k) => if flow = f then some (.task (.hooks 0 k)) else none
  | e => some e

/-- How many flows an event makes. -/
def creates : Event → Nat
  | .call (.createFlow _) => 1
  | _ => 0

theorem creates_eq {r : Request} {id : FlowId} (h : r.flow? = some id) :
    (Event.call r).creates = 0 := by
  cases r with
  | createFlow function => cases h
  | _ => rfl

end Event

/-- How many flows a run makes. -/
def creations : List Event → Nat
  | [] => 0
  | e :: es => e.creates + creations es

/-- What is left of a run for the flow at a position. -/
def share (c : Completer) (f : Nat) : Nat → List Event → List Event
  | _, [] => []
  | count, e :: es => (e.share? c f count).toList ++ share c f (count + e.creates) es

theorem share_append (c : Completer) (f count : Nat) (es es' : List Event) :
    share c f count (es ++ es') =
      share c f count es ++ share c f (count + creations es) es' := by
  induction es generalizing count with
  | nil => rfl
  | cons e es ih =>
      simp only [List.cons_append, share, ih, List.append_assoc, creations, Nat.add_assoc]

theorem share_call {c : Completer} {f count : Nat} {r : Request} (hr : r.isOf c f count = true)
    (es : List Event) :
    share c f count (.call r :: es) =
      .call r :: share c f (count + (Event.call r).creates) es := by
  simp [share, Event.share?, hr]

/-- The position of the flow of a task. -/
def TaskId.flow : TaskId → Nat
  | stage flow _ => flow
  | hooks flow _ => flow

namespace World

variable {c : Completer} {f : Nat} {w w' w₁ : World} {e : Event} {q : Question bodySignature}
  {g : Graph} {t : BodyThread} {id : FlowId} {r : Request}

/-! ## Bodies that act only on their own flow -/

/-- If the body asks something now, it is about this flow. -/
def Minds (w : World) (id : FlowId) (t : BodyThread) : Prop :=
  ∀ (q : Question bodySignature) (next : q.Answer → FlowProgram bodySignature Outcome),
    w.resume? t = some (.ask q next) → q.Concerns id

theorem OwnEvent.stage {flow n : Nat} {s : Stage} {forward : Option Outcome}
    (hown : w.OwnEvent c (.task (.stage flow n)))
    (h : w.fire c (.task (.stage flow n)) = some w') (hg : w.graph? flow = some g)
    (hs : g.stages[n]? = some s) (hphase : s.phase = .running t forward) :
    w.Minds (c.flowName flow) t := by
  intro q next hresume
  exact hown (.stage flow n) flow q w' rfl rfl
    (.stage ((stage?_of_graph hg).trans hs) hphase hresume h)

theorem OwnEvent.hook {flow k : Nat} {d : Hooks.Drain BodyThread} {s : Option FlowState}
    {r : Hooks.Running BodyThread} (hown : w.OwnEvent c (.task (.hooks flow k)))
    (h : w.fire c (.task (.hooks flow k)) = some w') (hg : w.graph? flow = some g)
    (hk : g.hookTasks[k]? = some (.draining d s)) (hd : d.running = some r) :
    w.Minds (c.flowName flow) r.thread := by
  intro q next hresume
  exact hown (.hook flow k) flow q w' rfl rfl (.hook hg hk hd hresume h)

theorem OwnRun.of_append {first rest : List Event} (h : w.OwnRun c (first ++ rest))
    (hfirst : w.run c first = some w₁) : w.OwnRun c first ∧ w₁.OwnRun c rest := by
  induction first generalizing w with
  | nil =>
      obtain rfl := Option.some.inj hfirst
      exact ⟨trivial, h⟩
  | cons e first ih =>
      obtain ⟨w₂, hfire, hrun⟩ := Option.bind_eq_some_iff.mp hfirst
      obtain ⟨hown, hrest⟩ := ih (h.2 w₂ hfire) hrun
      refine ⟨⟨h.1, ?_⟩, hrest⟩
      intro w₃ hw₃
      obtain rfl := Option.some.inj (hfire.symm.trans hw₃)
      exact hown

/-- Where the programs of the catalog keep to their flow, every body does that is under way. -/
theorem keeps_of_hasBody {flow : Nat} (h : ∀ r, (c.catalog.invoke r).Keeps r.flow)
    (hreach : w.Reachable c) (hg : w.graph? flow = some g) (ht : g.HasBody t) :
    t.Within (Program.Keeps (c.flowName flow)) := by
  refine body_of_reachable (P := fun flow t => t.Within (Program.Keeps (c.flowName flow)))
    ?_ ?_ hreach hg ht
  · intro flow r hr
    exact hr ▸ h r
  · intro w flow t q next _ ht hresume
    exact Thread.within_map (ht.offers ⟨_, _, hresume⟩).2 _

/-- So in every run bodies act only on their own flow. -/
theorem ownRun_of_keeps (h : ∀ r, (c.catalog.invoke r).Keeps r.flow) (hreach : w.Reachable c)
    (es : List Event) : w.OwnRun c es := by
  induction es generalizing w with
  | nil => trivial
  | cons e es ih =>
      refine ⟨?_, fun w' hfire => ih (hreach.run (run_fire hfire))⟩
      intro who flow q w' _ hflow hasks
      cases hasks with
      | outside => cases hflow
      | stage hs hphase hresume _ =>
          cases hflow
          obtain ⟨g, hg, hs⟩ := stage?_eq_some.mp hs
          have hkeeps := keeps_of_hasBody h hreach hg (.stage hs hphase)
          exact (hkeeps.offers ⟨_, _, hresume⟩).1
      | hook hg hk hrunning hresume _ =>
          cases hflow
          have hkeeps := keeps_of_hasBody h hreach hg (.of_draining hk hrunning)
          exact (hkeeps.offers ⟨_, _, hresume⟩).1

/-! ## The steps of tasks -/

/-- A step of a task is at most one question of its body, and then a change of its own flow. -/
theorem task_cases {task : TaskId} (h : w.fire c (.task task) = some w') :
    ∃ w₁ g', w' = w₁.setGraph task.flow g' ∧ (w₁ = w ∨ ∃ who q, who.event? = some (.task task) ∧
      who.flow? = some task.flow ∧ w.Asks c q who w' ∧ w₁ = (w.pose c q).1) := by
  cases fire_eq_some_iff.mp h with
  | @stage flow n _ _ _ _ _ hacts =>
      refine ⟨_, _, rfl, ?_⟩
      cases move?_eq_some_iff.mp hacts.move with
      | ask hphase hresume =>
          have hs := (stage?_of_graph hacts.graph).trans hacts.stage
          exact .inr ⟨.stage flow n, _, rfl, rfl, .stage hs hphase hresume h, rfl⟩
      | _ => exact .inl rfl
  | begin | skip => exact ⟨w, _, rfl, .inl rfl⟩
  | @drain flow k _ _ _ _ _ _ hacts =>
      refine ⟨_, _, rfl, ?_⟩
      cases drainMove?_eq_some_iff.mp hacts.move with
      | ask hrunning hresume =>
          exact .inr ⟨.hook flow k, _, rfl, rfl,
            .hook hacts.graph hacts.task hrunning hresume h, rfl⟩
      | _ => exact .inl rfl

/-! ## How many flows there are -/

theorem length_setGraph (w : World) (n : Nat) (g : Graph) :
    (w.setGraph n g).graphs.length = w.graphs.length := List.length_set

theorem length_change {α : Type} (w : World) (id : FlowId)
    (F : Graph → Except FlowError (Graph × α)) :
    (w.change id F).1.graphs.length = w.graphs.length := by
  rcases w.change_cases id F with ⟨hw, -⟩ | ⟨n, g, g', a, -, -, hw⟩
  · rw [hw]
  · rw [hw, length_setGraph]

/-- A call that names a flow changes the graph of this flow, or nothing. -/
theorem call_world (c : Completer) (w : World) (hr : r.flow? = some id) :
    (w.call c r).1 = w ∨ ∃ (α : Type) (F : Graph → Except FlowError (Graph × α)),
      (w.call c r).1 = (w.change id F).1 := by
  cases r with
  | createFlow function => cases hr
  | addStage flow r =>
      obtain rfl := Option.some.inj hr
      simp only [call, addStage]
      cases checkRequest r with
      | error e => exact .inl rfl
      | ok u => exact .inr ⟨_, _, rfl⟩
  | awaitStage flow stage timeout => exact .inl rfl
  | addHook flow closure =>
      obtain rfl := Option.some.inj hr
      exact .inr ⟨_, fun g => .ok (g.addHook closure, ()), rfl⟩
  | _ =>
      obtain rfl := Option.some.inj hr
      exact .inr ⟨_, _, rfl⟩

theorem length_call (c : Completer) (w : World) (r : Request) :
    (w.call c r).1.graphs.length = w.graphs.length + (Event.call r).creates := by
  cases hr : r.flow? with
  | none =>
      obtain ⟨function, rfl⟩ := Request.eq_createFlow hr
      exact List.length_append
  | some id =>
      rw [Event.creates_eq hr]
      rcases call_world c w hr with hw | ⟨α, F, hw⟩
      · rw [hw, Nat.add_zero]
      · rw [hw, length_change, Nat.add_zero]

theorem length_pose (hq : q.Concerns id) : (w.pose c q).1.graphs.length = w.graphs.length := by
  cases q with
  | call r =>
      have hr : r.flow? = some id := hq
      rw [pose, length_call, Event.creates_eq hr, Nat.add_zero]
  | other q => cases q with | removeFlow flow => exact length_change w flow _
  | _ => rfl

/-- Where bodies make no flows, the flows of a run are those that are made from outside. -/
theorem length_fire (hown : w.OwnEvent c e) (h : w.fire c e = some w') :
    w'.graphs.length = w.graphs.length + e.creates := by
  cases e with
  | call r =>
      obtain rfl := Option.some.inj h
      exact length_call c w r
  | removeFlow flow =>
      obtain rfl := Option.some.inj h
      exact length_change w flow _
  | clock | log | ran =>
      cases fire_eq_some_iff.mp h
      rfl
  | task task =>
      obtain ⟨w₁, g', hw', rfl | ⟨who, q, hevent, hflow, hasks, rfl⟩⟩ := task_cases h
      · rw [hw', length_setGraph]
        rfl
      · rw [hw', length_setGraph, length_pose (hown who _ q w' hevent hflow hasks)]
        rfl

theorem length_run {es : List Event} (hown : w.OwnRun c es) (hrun : w.run c es = some w') :
    w'.graphs.length = w.graphs.length + creations es := by
  induction es generalizing w with
  | nil =>
      obtain rfl := Option.some.inj hrun
      rfl
  | cons e es ih =>
      obtain ⟨w₁, hfire, hrest⟩ := Option.bind_eq_some_iff.mp hrun
      rw [ih (hown.2 w₁ hfire) hrest, length_fire hown.1 hfire, creations, Nat.add_assoc]

/-! ## Other flows -/

/-- The flow at a position is spared: it is as it was, and no time has passed. -/
structure Spares (f : Nat) (w w' : World) : Prop where
  clock : w'.clock = w.clock
  graph? : w'.graph? f = w.graph? f

theorem Spares.refl (f : Nat) (w : World) : Spares f w w := ⟨rfl, rfl⟩

theorem Spares.setGraph {n : Nat} (h : Spares f w w') (hn : n ≠ f) (g : Graph) :
    Spares f w (w'.setGraph n g) := ⟨h.clock, (graph?_setGraph_ne hn g).trans h.graph?⟩

/-- Only one flow bears the name that was chosen by its number. -/
theorem position_ne {n : Nat} (hreach : w.Reachable c) (hid : id ≠ c.flowName f)
    (hfind : w.find id = .ok (n, g)) : n ≠ f := by
  rintro rfl
  obtain ⟨hg, rfl, -⟩ := graph?_of_find hfind
  exact hid (id_of_reachable hreach hg)

theorem spares_change {α : Type} (hreach : w.Reachable c) (hid : id ≠ c.flowName f)
    (F : Graph → Except FlowError (Graph × α)) : Spares f w (w.change id F).1 := by
  rcases w.change_cases id F with ⟨hw, -⟩ | ⟨n, g, g', a, hfind, -, hw⟩
  · rw [hw]
    exact .refl f w
  · rw [hw]
    exact (Spares.refl f w).setGraph (position_ne hreach hid hfind) g'

theorem spares_call (hreach : w.Reachable c) (hr : r.flow? = some id) (hid : id ≠ c.flowName f) :
    Spares f w (w.call c r).1 := by
  rcases call_world c w hr with hw | ⟨α, F, hw⟩
  · rw [hw]
    exact .refl f w
  · rw [hw]
    exact spares_change hreach hid F

theorem spares_pose (hreach : w.Reachable c) (hq : q.Concerns id) (hid : id ≠ c.flowName f) :
    Spares f w (w.pose c q).1 := by
  cases q with
  | call r => exact spares_call hreach hq hid
  | other q =>
      cases q with
      | removeFlow flow =>
          obtain rfl : flow = id := hq
          exact spares_change hreach hid _
  | _ => exact ⟨rfl, rfl⟩

/-- A step of a task of another flow. -/
theorem spares_task {task : TaskId} (hinj : Function.Injective c.flowName) (hreach : w.Reachable c)
    (hown : w.OwnEvent c (.task task)) (hflow : task.flow ≠ f)
    (h : w.fire c (.task task) = some w') : Spares f w w' := by
  obtain ⟨w₁, g', hw', rfl | ⟨who, q, hevent, hwho, hasks, rfl⟩⟩ := task_cases h
  · rw [hw']
    exact (Spares.refl f w₁).setGraph hflow g'
  · have hq := hown who _ q w' hevent hwho hasks
    rw [hw']
    exact (spares_pose hreach hq fun hid => hflow (hinj hid)).setGraph hflow g'

theorem deedsAt_callDeeds_ne (hreach : w.Reachable c) (hr : r.flow? = some id)
    (hid : id ≠ c.flowName f) : deedsAt f (w.callDeeds r) = [] := by
  cases r with
  | commit flow s =>
      obtain rfl := Option.some.inj hr
      simp only [callDeeds]
      split
      · next n g hfind _ =>
          exact deedsAt_map_ne (position_ne hreach hid hfind) [.committed s]
      · rfl
  | _ => rfl

theorem deedsAt_bodyDeeds_ne (hreach : w.Reachable c) (hminds : w.Minds id t)
    (hid : id ≠ c.flowName f) : deedsAt f (w.bodyDeeds t) = [] := by
  unfold bodyDeeds
  split
  · next p hp =>
      unfold programDeeds
      split
      · next r next => exact deedsAt_callDeeds_ne hreach (hminds (.call r) next hp) hid
      · rfl
  · rfl

theorem deedsAt_taskDeeds_ne {task : TaskId} (hinj : Function.Injective c.flowName)
    (hreach : w.Reachable c) (hown : w.OwnEvent c (.task task)) (hflow : task.flow ≠ f)
    (h : w.fire c (.task task) = some w') : deedsAt f (w.taskDeeds c task) = [] := by
  have hid : c.flowName task.flow ≠ c.flowName f := fun hid => hflow (hinj hid)
  cases task with
  | stage flow n =>
      obtain ⟨g, hg, hs⟩ := Option.bind_eq_some_iff.mp h
      obtain ⟨s, hs, -⟩ := Option.bind_eq_some_iff.mp hs
      have hbody : deedsAt f (w.phaseDeeds s.phase) = [] := by
        cases hphase : s.phase with
        | running t forward =>
            exact deedsAt_bodyDeeds_ne hreach (hown.stage h hg hs hphase) hid
        | _ => rfl
      simp only [taskDeeds, hg, hs, stageDeeds, deedsAt_append, hbody, List.nil_append]
      split
      · exact deedsAt_map_ne hflow _
      · rfl
  | hooks flow k =>
      obtain ⟨g, hg, hk⟩ := Option.bind_eq_some_iff.mp h
      obtain ⟨task, hk, -⟩ := Option.bind_eq_some_iff.mp hk
      simp only [taskDeeds, hg, hk]
      cases task with
      | finished => rfl
      | due s =>
          simp only [hookDeeds]
          split
          · rfl
          · exact deedsAt_map_ne hflow [.published s]
      | draining d s =>
          have hbody : deedsAt f (w.runningDeeds d.running) = [] := by
            cases hd : d.running with
            | none => rfl
            | some r => exact deedsAt_bodyDeeds_ne hreach (hown.hook h hg hk hd) hid
          simp only [hookDeeds, deedsAt_append, hbody, List.nil_append]
          split
          · exact deedsAt_map_ne hflow _
          · rfl

/-- What belongs to another flow spares this one, and is none of its deeds. -/
theorem spares_fire (hinj : Function.Injective c.flowName) (hreach : w.Reachable c)
    (hown : w.OwnEvent c e) (hnone : e.share? c f w.graphs.length = none)
    (h : w.fire c e = some w') : Spares f w w' ∧ deedsAt f (w.deeds c e) = [] := by
  cases e with
  | call r =>
      obtain rfl := Option.some.inj h
      simp only [Event.share?, ite_eq_right_iff, reduceCtorEq, imp_false] at hnone
      cases hr : r.flow? with
      | none =>
          obtain ⟨function, rfl⟩ := Request.eq_createFlow hr
          have hne : w.graphs.length ≠ f := by simpa [Request.isOf] using hnone
          refine ⟨⟨rfl, ?_⟩, rfl⟩
          simp only [call, createFlow, World.graph?, List.getElem?_append, List.getElem?_singleton]
          split
          · rfl
          · rw [if_neg (by omega), List.getElem?_eq_none (by omega)]
      | some id =>
          have hid : id ≠ c.flowName f := by simpa [Request.isOf_eq hr] using hnone
          exact ⟨spares_call hreach hr hid, deedsAt_callDeeds_ne hreach hr hid⟩
  | removeFlow flow =>
      obtain rfl := Option.some.inj h
      simp only [Event.share?, ite_eq_right_iff, reduceCtorEq, imp_false] at hnone
      exact ⟨spares_change hreach hnone _, rfl⟩
  | task task =>
      have hflow : task.flow ≠ f := by
        cases task <;>
          simp only [Event.share?, ite_eq_right_iff, reduceCtorEq, imp_false] at hnone <;>
          exact hnone
      exact ⟨spares_task hinj hreach hown hflow h, deedsAt_taskDeeds_ne hinj hreach hown hflow h⟩
  | clock moment => cases hnone
  | log line => cases hnone
  | ran entry => cases hnone

end World

end StageGraph
