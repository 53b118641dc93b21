/-
# `StageGraph.Proofs.FlowProjection` — one flow of many, on its own

Of a run of a completer with many flows, the share of one flow is a run, too: that of a
completer that never held another flow (`Completer.alone`).  There the flow stands at
position 0, and apart from this it is the same flow: at every moment, its graph is the same
graph, relocated (`World.Shows`).

So the proof is a simulation.  A call on the flow gives the same answer in both completers
(`World.Shows.call`); a task of the flow makes the same move (`World.Shows.move?`,
`World.Shows.drainMove?`), for its bodies wait for stages of their own flow only; and an
event of which nothing is left in the share spares the flow.  What a run makes of this is
`World.Follows.run`.
-/
import StageGraph.Proofs.FunctionRun
import StageGraph.Proofs.OtherFlows
import StageGraph.Proofs.Relocation

namespace StageGraph

/-- The completer, as it would be if the first `f` flows had never been. -/
def Completer.alone (c : Completer) (f : Nat) : Completer :=
  { c with flowName := fun n => c.flowName (f + n) }

theorem Completer.catalog_alone (c : Completer) (f : Nat) : (c.alone f).catalog = c.catalog := rfl

namespace World

variable {c : Completer} {f : Nat} {w w' w₁ v : World} {e : Event} {q : Question bodySignature}
  {g : Graph} {t : BodyThread} {r : Request}

/-! ## The flow itself -/

/-- The second completer holds nothing but the flow at a position of the first one, at the same
time and in the same state. -/
structure Shows (f : Nat) (w v : World) : Prop where
  clock : v.clock = w.clock
  graphs : v.graphs = ((w.graph? f).map (Graph.relocate 0)).toList

namespace Shows

variable (h : Shows f w v)

include h

theorem graph? : v.graph? 0 = (w.graph? f).map (Graph.relocate 0) := by
  rw [World.graph?, h.graphs]
  cases w.graph? f <;> rfl

theorem graph (hg : w.graph? f = some g) : v.graph? 0 = some (g.relocate 0) := by
  rw [h.graph?, hg]
  rfl

theorem spared {v' : World} (hs : Spares f w w') (hclock : v'.clock = v.clock)
    (hgraphs : v'.graphs = v.graphs) : Shows f w' v' :=
  ⟨by rw [hclock, h.clock, hs.clock], by rw [hgraphs, h.graphs, hs.graph?]⟩

theorem setGraph (hg : w.graph? f = some g) (g' : Graph) :
    Shows f (w.setGraph f g') (v.setGraph 0 (g'.relocate 0)) := by
  refine ⟨h.clock, ?_⟩
  rw [graph?_setGraph_self hg, World.setGraph, h.graphs, hg]
  rfl

theorem after (d : Duration) : v.after d = w.after d := by rw [World.after, h.clock, World.after]

theorem outcome? (n : Nat) : v.outcome? 0 n = w.outcome? f n := by
  rw [World.outcome?, h.graph?, World.outcome?]
  cases w.graph? f with
  | none => rfl
  | some g => exact Graph.outcome?_relocate 0 n g

theorem resume? {κ : Type} {t : Thread κ} (ht : t.StaysAt f) :
    v.resume? (t.relocate 0) = w.resume? t := by
  rw [World.resume?, h.clock]
  exact Thread.resume?_relocate ht h.outcome?

/-! ### Calls -/

section Calls

variable (hinj : Function.Injective c.flowName) (hreach : w.Reachable c)

theorem find_error {err : FlowError} (hfind : w.find (c.flowName f) = .error err) :
    v.find (c.flowName f) = .error err := by
  obtain ⟨rfl, hunknown⟩ := find_eq_error.mp hfind
  refine find_eq_error.mpr ⟨rfl, ?_⟩
  intro g' hg' hid
  rw [h.graphs, Option.mem_toList] at hg'
  obtain ⟨g, hg, rfl⟩ := Option.map_eq_some_iff.mp hg'
  exact hunknown g (List.mem_of_getElem? hg) hid

include hinj hreach in
theorem find_ok {n : Nat} (hfind : w.find (c.flowName f) = .ok (n, g)) :
    n = f ∧ w.graph? f = some g ∧ v.find (c.flowName f) = .ok (0, g.relocate 0) := by
  obtain ⟨hg, hid, hremoved⟩ := graph?_of_find hfind
  obtain rfl : n = f := hinj ((id_of_reachable hreach hg).symm.trans hid)
  refine ⟨rfl, hg, ?_⟩
  have hgraphs : v.graphs = [g.relocate 0] := by rw [h.graphs, hg]; rfl
  have hid' : (g.relocate 0).id = c.flowName n := hid
  have hremoved' : (g.relocate 0).removed = false := hremoved
  simp [World.find, World.graph?, hgraphs, hid', hremoved']

include hinj hreach in
theorem change {α : Type} {F : Graph → Except FlowError (Graph × α)} (hF : Graph.Blind F) :
    (v.change (c.flowName f) F).2 = (w.change (c.flowName f) F).2 ∧
      Shows f (w.change (c.flowName f) F).1 (v.change (c.flowName f) F).1 := by
  cases hfind : w.find (c.flowName f) with
  | error err =>
      simp only [World.change, hfind, h.find_error hfind]
      exact ⟨trivial, h⟩
  | ok p =>
      obtain ⟨n, g⟩ := p
      obtain ⟨rfl, hg, hfind'⟩ := h.find_ok hinj hreach hfind
      simp only [World.change, hfind, hfind', hF 0 g]
      cases F g with
      | error err => exact ⟨rfl, h⟩
      | ok p => exact ⟨rfl, h.setGraph hg p.1⟩

end Calls

end Shows

/-- Both completers are left as they should be, and give the same answer. -/
structure SameAnswer {κ : Type} (f : Nat) (x y : World × Thread κ) : Prop where
  shows : Shows f x.1 y.1
  answer : y.2 = x.2.relocate 0
  stays : x.2.StaysAt f

namespace Shows

variable (h : Shows f w v) (hinj : Function.Injective c.flowName) (hreach : w.Reachable c)

include h hinj hreach

theorem answer_change {α : Type} {F : Graph → Except FlowError (Graph × α)}
    (hF : Graph.Blind F) :
    SameAnswer f ((w.change (c.flowName f) F).1, Thread.going (w.change (c.flowName f) F).2)
      ((v.change (c.flowName f) F).1, Thread.going (v.change (c.flowName f) F).2) := by
  obtain ⟨hanswer, hshows⟩ := h.change hinj hreach hF
  exact ⟨hshows, congrArg Thread.going hanswer, trivial⟩

theorem awaitStage (stage : StageId) (timeout : Option Duration) :
    v.awaitStage (c.flowName f) stage timeout =
        (w.awaitStage (c.flowName f) stage timeout).relocate 0 ∧
      (w.awaitStage (c.flowName f) stage timeout).StaysAt f := by
  cases hfind : w.find (c.flowName f) with
  | error err =>
      simp only [World.awaitStage, hfind, h.find_error hfind]
      exact ⟨rfl, trivial⟩
  | ok p =>
      obtain ⟨n, g⟩ := p
      obtain ⟨rfl, -, hfind'⟩ := h.find_ok hinj hreach hfind
      simp only [World.awaitStage, hfind, hfind', Graph.slot?_relocate, h.after]
      cases g.slot? stage with
      | error err => exact ⟨rfl, trivial⟩
      | ok k => exact ⟨rfl, rfl⟩

theorem call (hr : r.flow? = some (c.flowName f)) :
    SameAnswer f (w.call c r) (v.call (c.alone f) r) := by
  cases r with
  | createFlow function => cases hr
  | addStage flow r =>
      obtain rfl := Option.some.inj hr
      simp only [World.call, World.addStage]
      cases checkRequest r with
      | error err => exact ⟨h, rfl, trivial⟩
      | ok u => exact h.answer_change hinj hreach (Graph.blind_allocateResolved r)
  | addCompleted flow o =>
      obtain rfl := Option.some.inj hr
      exact h.answer_change hinj hreach (Graph.blind_allocate fun _ => rfl)
  | addDelay flow d =>
      obtain rfl := Option.some.inj hr
      simp only [World.call, World.addDelay, h.after]
      exact h.answer_change hinj hreach (Graph.blind_allocate fun _ => rfl)
  | awaitStage flow stage timeout =>
      obtain rfl := Option.some.inj hr
      obtain ⟨hanswer, hstays⟩ := h.awaitStage hinj hreach stage timeout
      exact ⟨h, hanswer, hstays⟩
  | addHook flow closure =>
      obtain rfl := Option.some.inj hr
      exact h.answer_change hinj hreach (Graph.blind_addHook closure)
  | commit flow s =>
      obtain rfl := Option.some.inj hr
      exact h.answer_change hinj hreach (Graph.blind_commit s)

/-- A call that belongs to the flow, also the one that makes it. -/
theorem call_of (hr : r.isOf c f w.graphs.length = true) :
    SameAnswer f (w.call c r) (v.call (c.alone f) r) := by
  cases hflow : r.flow? with
  | some id =>
      rw [Request.isOf_eq hflow] at hr
      obtain rfl := of_decide_eq_true hr
      exact h.call hinj hreach hflow
  | none =>
      obtain ⟨function, rfl⟩ := Request.eq_createFlow hflow
      obtain rfl : w.graphs.length = f := of_decide_eq_true hr
      have hnone : v.graphs = [] := by
        rw [h.graphs, World.graph?, List.getElem?_eq_none (Nat.le_refl _)]
        rfl
      refine ⟨⟨h.clock, ?_⟩, ?_, trivial⟩
      · simp [World.call, createFlow, World.graph?, hnone, Completer.alone]
      · simp [World.call, createFlow, hnone, Completer.alone, Thread.relocate]

theorem removeFlow :
    (v.removeFlow (c.flowName f)).2 = (w.removeFlow (c.flowName f)).2 ∧
      Shows f (w.removeFlow (c.flowName f)).1 (v.removeFlow (c.flowName f)).1 :=
  h.change hinj hreach (Graph.blind_remove _)

theorem pose (hq : q.Concerns (c.flowName f)) :
    SameAnswer f (w.pose c q) (v.pose (c.alone f) q) := by
  cases q with
  | call r => exact h.call hinj hreach hq
  | sleep d => exact ⟨h, congrArg (fun m => Thread.asleep ⟨m, ()⟩) (h.after d), trivial⟩
  | other q =>
      cases q with
      | removeFlow flow =>
          obtain rfl : flow = c.flowName f := hq
          exact h.answer_change hinj hreach (Graph.blind_remove _)
  | _ => exact ⟨h.spared ⟨rfl, rfl⟩ rfl rfl, rfl, trivial⟩

theorem callDeeds (hr : r.flow? = some (c.flowName f)) :
    deedsAt 0 (v.callDeeds r) = deedsAt f (w.callDeeds r) := by
  cases r with
  | commit flow s =>
      obtain rfl := Option.some.inj hr
      have hanswer : (v.commit (c.flowName f) s).2 = (w.commit (c.flowName f) s).2 :=
        (h.change hinj hreach (Graph.blind_commit s)).1
      cases hfind : w.find (c.flowName f) with
      | error err => simp only [World.callDeeds, hfind, h.find_error hfind]; rfl
      | ok p =>
          obtain ⟨n, g⟩ := p
          obtain ⟨rfl, -, hfind'⟩ := h.find_ok hinj hreach hfind
          simp only [World.callDeeds, hfind, hfind', hanswer]
          cases (w.commit (c.flowName n) s).2 with
          | error err => rfl
          | ok u =>
              exact (deedsAt_map_self 0 [.committed s]).trans
                (deedsAt_map_self n [.committed s]).symm
  | _ => rfl

theorem bodyDeeds (hminds : w.Minds (c.flowName f) t) (ht : t.StaysAt f) :
    deedsAt 0 (v.bodyDeeds (t.relocate 0)) = deedsAt f (w.bodyDeeds t) := by
  rw [World.bodyDeeds, h.resume? ht, World.bodyDeeds]
  cases hp : w.resume? t with
  | none => rfl
  | some p =>
      cases p with
      | ask q next =>
          cases q with
          | call r => exact h.callDeeds hinj hreach (hminds (.call r) next hp)
          | _ => rfl
      | _ => rfl

/-! ### Steps -/

/-- The stage makes the same move in the second completer. -/
theorem move? {s : Stage} {m : Move}
    (hbody : ∀ t forward, s.phase = .running t forward →
      w.Minds (c.flowName f) t ∧ t.StaysAt f)
    (hm : w.move? c g s = some (w₁, m)) :
    ∃ v₁, v.move? (c.alone f) (g.relocate 0) (s.relocate 0) = some (v₁, m.relocate 0) ∧
      Shows f w₁ v₁ := by
  have moved {p : Phase} (hphase : s.phase = p) : (s.relocate 0).phase = p.relocate 0 := by
    rw [Stage.relocate, hphase]
  have houtcome : (g.relocate 0).outcome? = g.outcome? :=
    funext fun n => Graph.outcome?_relocate 0 n g
  cases move?_eq_some_iff.mp hm with
  | wake hphase hdue =>
      exact ⟨v, (StageDoes.wake (moved hphase) (h.clock.symm ▸ hdue)).move?_eq, h⟩
  | gather hphase ho =>
      exact ⟨v, (StageDoes.gather (moved hphase) (by rw [houtcome, ho])).move?_eq, h⟩
  | resolve hphase =>
      rw [← Stage.resolve_relocate]
      exact ⟨v, (StageDoes.resolve (moved hphase)).move?_eq, h⟩
  | choose hphase ho =>
      rw [← Stage.resolve_relocate]
      exact ⟨v, (StageDoes.choose (moved hphase) (by rw [houtcome]; exact ho)).move?_eq, h⟩
  | adopt hphase ho =>
      exact ⟨v, (StageDoes.adopt (moved hphase) (by rw [houtcome, ho])).move?_eq, h⟩
  | @ask t forward q next hphase hp =>
      obtain ⟨hminds, hstays⟩ := hbody t forward hphase
      have hpose := h.pose hinj hreach (hminds q next hp)
      have hp' := (h.resume? hstays).trans hp
      refine ⟨_, ?_, hpose.shows⟩
      rw [(StageDoes.ask (moved hphase) hp').move?_eq, hpose.answer, Move.relocate,
        Phase.relocate, Thread.relocate_map]
  | @conclude t forward p o hphase hp hends =>
      have hp' := (h.resume? (hbody t forward hphase).2).trans hp
      rw [← Graph.conclude_relocate]
      exact ⟨v, (StageDoes.conclude (moved hphase) hp' hends).move?_eq, h⟩

/-- The drain makes the same move in the second completer. -/
theorem drainMove? {d : Hooks.Drain BodyThread} {m : DrainMove}
    (hbody : ∀ r, d.running = some r → w.Minds (c.flowName f) r.thread ∧ r.thread.StaysAt f)
    (hm : w.drainMove? c g d = some (w₁, m)) :
    ∃ v₁, v.drainMove? (c.alone f) (g.relocate 0) (d.relocate 0) = some (v₁, m.relocate 0) ∧
      Shows f w₁ v₁ := by
  have moved {r : Option (Hooks.Running BodyThread)} (hr : d.running = r) :
      (d.relocate 0).running = r.map (·.relocate 0) := by
    rw [Hooks.Drain.relocate, hr]
  cases drainMove?_eq_some_iff.mp hm with
  | start hr hnext =>
      refine ⟨v, ?_, h⟩
      rw [(DrainDoes.start (g := g.relocate 0) (moved hr) hnext).drainMove?_eq, h.after]
      rfl
  | leave hr hnext =>
      exact ⟨v, (DrainDoes.leave (g := g.relocate 0) (moved hr) hnext).drainMove?_eq, h⟩
  | @ask r q next hr hp =>
      obtain ⟨hminds, hstays⟩ := hbody r hr
      have hpose := h.pose hinj hreach (hminds q next hp)
      have hp' := (h.resume? hstays).trans hp
      refine ⟨_, ?_, hpose.shows⟩
      rw [(DrainDoes.ask (moved hr) hp').drainMove?_eq, hpose.answer, DrainMove.relocate,
        Hooks.Running.relocate, Thread.relocate_map]
      rfl
  | @finish r p o hr hp hends =>
      have hp' := (h.resume? (hbody r hr).2).trans hp
      exact ⟨v, (DrainDoes.finish (moved hr) hp' hends).drainMove?_eq, h⟩
  | @cut r hr hp hlimit =>
      have hp' := (h.resume? (hbody r hr).2).trans hp
      exact ⟨v, (DrainDoes.cut (moved hr) hp' (h.clock.symm ▸ hlimit)).drainMove?_eq, h⟩

theorem step_stage {n : Nat} (hown : w.OwnEvent c (.task (.stage f n)))
    (hstays : ∀ g t, w.graph? f = some g → g.HasBody t → t.StaysAt f)
    (hfire : w.fire c (.task (.stage f n)) = some w') :
    ∃ v', v.fire (c.alone f) (.task (.stage 0 n)) = some v' ∧ Shows f w' v' ∧
      deedsAt 0 (v.taskDeeds (c.alone f) (.stage 0 n)) =
        deedsAt f (w.taskDeeds c (.stage f n)) := by
  cases fire_eq_some_iff.mp hfire with
  | @stage _ _ g g₁ s m w₁ hacts =>
      have hbody (t : BodyThread) (forward : Option Outcome)
          (hphase : s.phase = .running t forward) :
          w.Minds (c.flowName f) t ∧ t.StaysAt f :=
        ⟨hown.stage hfire hacts.graph hacts.stage hphase,
          hstays g t hacts.graph (.stage hacts.stage hphase)⟩
      obtain ⟨v₁, hv, hshows⟩ := h.move? hinj hreach hbody hacts.move
      have hs' : (g.relocate 0).stages[n]? = some (s.relocate 0) := by
        rw [Graph.getElem?_relocate, hacts.stage]
        rfl
      obtain ⟨g₁', hacts'⟩ := stageActs_of_move? (h.graph hacts.graph) hs' hv
      obtain rfl := Option.some.inj ((hshows.graph hacts.graph₁).symm.trans hacts'.graph₁)
      refine ⟨_, (Fires.stage hacts').fire, ?_, ?_⟩
      · rw [Graph.move_relocate (c.catalog_alone f)]
        exact hshows.setGraph hacts.graph₁ _
      · have hphase : deedsAt 0 (v.phaseDeeds (s.relocate 0).phase) =
            deedsAt f (w.phaseDeeds s.phase) := by
          cases hp : s.phase with
          | running t forward =>
              rw [Stage.relocate, hp]
              exact h.bodyDeeds hinj hreach (hbody t forward hp).1 (hbody t forward hp).2
          | _ => rw [Stage.relocate, hp]; rfl
        simp only [taskDeeds, stageDeeds, hacts.graph, hacts.stage, hacts.move, hacts.graph₁,
          hacts'.graph, hacts'.stage, hacts'.move, hacts'.graph₁, Option.getD_some,
          deedsAt_append, deedsAt_map_self, hphase, Graph.deed?_relocate]

theorem step_hooks {k : Nat} (hown : w.OwnEvent c (.task (.hooks f k)))
    (hstays : ∀ g t, w.graph? f = some g → g.HasBody t → t.StaysAt f)
    (hfire : w.fire c (.task (.hooks f k)) = some w') :
    ∃ v', v.fire (c.alone f) (.task (.hooks 0 k)) = some v' ∧ Shows f w' v' ∧
      deedsAt 0 (v.taskDeeds (c.alone f) (.hooks 0 k)) =
        deedsAt f (w.taskDeeds c (.hooks f k)) := by
  have moved {g : Graph} {t : HookTask} (hk : g.hookTasks[k]? = some t) :
      (g.relocate 0).hookTasks[k]? = some (t.relocate 0) := by
    rw [Graph.relocate, List.getElem?_map, hk]
    rfl
  -- The registry of hooks is the same, and so it starts a drain or not.
  have settled {g : Graph} (hg : w.graph? f = some g) (s : FlowState) (t : HookTask)
      (state : Option FlowState) : Shows f
        (w.setGraph f
          (({ g with hooks := (g.hooks.terminate s).1 }.setHookTask k t).publish state))
        (v.setGraph 0 (({ g.relocate 0 with hooks := (g.hooks.terminate s).1 }.setHookTask k
          (t.relocate 0)).publish state)) := by
    have hset := Graph.setHookTask_relocate 0 k { g with hooks := (g.hooks.terminate s).1 } t
    exact (congrArg (fun g => v.setGraph 0 (g.publish state)) hset).symm ▸ h.setGraph hg _
  cases fire_eq_some_iff.mp hfire with
  | @begin _ _ g s hg hk hstarts =>
      have hg' := h.graph hg
      have hk' := moved hk
      refine ⟨_, (Fires.begin hg' hk' hstarts).fire, settled hg s (.draining .fresh (some s)) none,
        ?_⟩
      have hstarts' : ((g.relocate 0).hooks.terminate s).2 = true := hstarts
      simp only [taskDeeds, hookDeeds, hg, hk, hg', hk', HookTask.relocate, hstarts, hstarts',
        if_true]
      rfl
  | @skip _ _ g s hg hk hstarts =>
      have hg' := h.graph hg
      have hk' := moved hk
      refine ⟨_, (Fires.skip hg' hk' hstarts).fire, settled hg s .finished (some s), ?_⟩
      have hstarts' : ((g.relocate 0).hooks.terminate s).2 = false := hstarts
      simp only [taskDeeds, hookDeeds, hg, hk, hg', hk', HookTask.relocate, hstarts, hstarts',
        Bool.false_eq_true, if_false]
      exact (deedsAt_map_self 0 [.published s]).trans (deedsAt_map_self f [.published s]).symm
  | @drain _ _ g g₁ d s m w₁ hacts =>
      have hbody (r : Hooks.Running BodyThread) (hd : d.running = some r) :
          w.Minds (c.flowName f) r.thread ∧ r.thread.StaysAt f :=
        ⟨hown.hook hfire hacts.graph hacts.task hd,
          hstays g r.thread hacts.graph (.of_draining hacts.task hd)⟩
      obtain ⟨v₁, hv, hshows⟩ := h.drainMove? hinj hreach hbody hacts.move
      obtain ⟨g₁', hacts'⟩ := drainActs_of_drainMove? (h.graph hacts.graph) (moved hacts.task) hv
      obtain rfl := Option.some.inj ((hshows.graph hacts.graph₁).symm.trans hacts'.graph₁)
      refine ⟨_, (Fires.drain hacts').fire, ?_, ?_⟩
      · rw [Graph.drainMove_relocate (c.catalog_alone f), Graph.settleDrain_relocate]
        exact hshows.setGraph hacts.graph₁ _
      · have hrunning : deedsAt 0 (v.runningDeeds (d.relocate 0).running) =
            deedsAt f (w.runningDeeds d.running) := by
          rw [Hooks.Drain.relocate]
          cases hd : d.running with
          | none => rfl
          | some r => exact h.bodyDeeds hinj hreach (hbody r hd).1 (hbody r hd).2
        simp only [taskDeeds, hookDeeds, hacts.graph, hacts.task, hacts.move, hacts.graph₁,
          hacts'.graph, hacts'.task, hacts'.move, hacts'.graph₁, Option.getD_some,
          deedsAt_append, deedsAt_map_self, hrunning, Graph.drainDeed?_relocate]

/-- What belongs to the flow has the same effect in the second completer. -/
theorem fire {e' : Event} (hown : w.OwnEvent c e)
    (hstays : ∀ g t, w.graph? f = some g → g.HasBody t → t.StaysAt f)
    (hsome : e.share? c f w.graphs.length = some e') (hfire : w.fire c e = some w') :
    ∃ v', v.fire (c.alone f) e' = some v' ∧ Shows f w' v' ∧
      deedsAt 0 (v.deeds (c.alone f) e') = deedsAt f (w.deeds c e) := by
  cases e with
  | call r =>
      obtain rfl := Option.some.inj hfire
      simp only [Event.share?, Option.ite_none_right_eq_some, Option.some.injEq] at hsome
      obtain ⟨hisOf, rfl⟩ := hsome
      refine ⟨_, rfl, (h.call_of hinj hreach hisOf).shows, ?_⟩
      cases hr : r.flow? with
      | none =>
          obtain ⟨function, rfl⟩ := Request.eq_createFlow hr
          rfl
      | some id =>
          rw [Request.isOf_eq hr] at hisOf
          obtain rfl := of_decide_eq_true hisOf
          exact h.callDeeds hinj hreach hr
  | removeFlow flow =>
      obtain rfl := Option.some.inj hfire
      simp only [Event.share?, Option.ite_none_right_eq_some, Option.some.injEq] at hsome
      obtain ⟨rfl, rfl⟩ := hsome
      exact ⟨_, rfl, (h.removeFlow hinj hreach).2, rfl⟩
  | task task =>
      cases task with
      | stage flow n =>
          simp only [Event.share?, Option.ite_none_right_eq_some, Option.some.injEq] at hsome
          obtain ⟨rfl, rfl⟩ := hsome
          exact h.step_stage hinj hreach hown hstays hfire
      | hooks flow k =>
          simp only [Event.share?, Option.ite_none_right_eq_some, Option.some.injEq] at hsome
          obtain ⟨rfl, rfl⟩ := hsome
          exact h.step_hooks hinj hreach hown hstays hfire
  | clock moment =>
      obtain rfl := Option.some.inj hsome
      cases fire_eq_some_iff.mp hfire with
      | clock hle => exact ⟨_, if_pos (h.clock.symm ▸ hle), ⟨rfl, h.graphs⟩, rfl⟩
  | log line =>
      obtain rfl := Option.some.inj hsome
      obtain rfl := Option.some.inj hfire
      exact ⟨_, rfl, h.spared ⟨rfl, rfl⟩ rfl rfl, rfl⟩
  | ran entry =>
      obtain rfl := Option.some.inj hsome
      obtain rfl := Option.some.inj hfire
      exact ⟨_, rfl, h.spared ⟨rfl, rfl⟩ rfl rfl, rfl⟩

/-- A body that asks only about its own flow waits only for stages of its own flow. -/
theorem stays_fire (hown : w.OwnEvent c e)
    (hstays : ∀ g t, w.graph? f = some g → g.HasBody t → t.StaysAt f)
    (hfire : w.fire c e = some w') (hg : w'.graph? f = some g) (ht : g.HasBody t) :
    t.StaysAt f := by
  cases hasBody_of_fire hfire hg ht with
  | kept hg₀ ht₀ => exact hstays _ t hg₀ ht₀
  | begun r _ => trivial
  | asked _ _ _ hevent hwho hasks =>
      exact (h.pose hinj hreach (hown _ f _ w' hevent hwho hasks)).stays.map _

end Shows

/-! ## A run -/

/-- How the two completers stand to each other throughout a run. -/
structure Follows (c : Completer) (f : Nat) (w v : World) : Prop where
  reachable : w.Reachable c
  shows : Shows f w v
  stays : ∀ g t, w.graph? f = some g → g.HasBody t → t.StaysAt f

theorem Follows.empty (c : Completer) (f : Nat) : Follows c f .empty .empty :=
  ⟨⟨[], rfl⟩, ⟨rfl, rfl⟩, fun _ _ hg => by cases hg⟩

/-- What is left of an event leads on. -/
theorem Follows.fire (hinj : Function.Injective c.flowName) (h : Follows c f w v)
    (hown : w.OwnEvent c e) (hfire : w.fire c e = some w') :
    ∃ v', v.run (c.alone f) (e.share? c f w.graphs.length).toList = some v' ∧
      Follows c f w' v' ∧
      deedsAt 0 (v.history (c.alone f) (e.share? c f w.graphs.length).toList) =
        deedsAt f (w.deeds c e) := by
  have hreach := h.reachable.run (run_fire hfire)
  have hstays (g : Graph) (t : BodyThread) (hg : w'.graph? f = some g) (ht : g.HasBody t) :
      t.StaysAt f := h.shows.stays_fire hinj h.reachable hown h.stays hfire hg ht
  cases he : e.share? c f w.graphs.length with
  | none =>
      obtain ⟨hspares, hdeeds⟩ := spares_fire hinj h.reachable hown he hfire
      exact ⟨v, rfl, ⟨hreach, h.shows.spared hspares rfl rfl, hstays⟩, hdeeds.symm⟩
  | some e' =>
      obtain ⟨v', hv, hshows, hdeeds⟩ := h.shows.fire hinj h.reachable hown h.stays he hfire
      refine ⟨v', run_fire hv, ⟨hreach, hshows, hstays⟩, ?_⟩
      simpa [history, hv] using hdeeds

/-- What is left of a run leads on. -/
theorem Follows.run {es : List Event} (hinj : Function.Injective c.flowName)
    (h : Follows c f w v) (hown : w.OwnRun c es) (hrun : w.run c es = some w') :
    ∃ v', v.run (c.alone f) (share c f w.graphs.length es) = some v' ∧ Follows c f w' v' ∧
      deedsAt 0 (v.history (c.alone f) (share c f w.graphs.length es)) =
        deedsAt f (w.history c es) := by
  induction es generalizing w v with
  | nil =>
      obtain rfl := Option.some.inj hrun
      exact ⟨v, rfl, h, rfl⟩
  | cons e es ih =>
      obtain ⟨w₁, hfire, hrest⟩ := Option.bind_eq_some_iff.mp hrun
      obtain ⟨v₁, hv₁, hfollows, hdeeds⟩ := h.fire hinj hown.1 hfire
      obtain ⟨v', hv', hfollows', hdeeds'⟩ := ih hfollows (hown.2 w₁ hfire) hrest
      rw [length_fire hown.1 hfire] at hv' hdeeds'
      refine ⟨v', run_trans hv₁ hv', hfollows', ?_⟩
      simp only [share, history_append hv₁, history, hfire, deedsAt_append, hdeeds, hdeeds']

/-- What has been answered in the end to a call that is made between two parts of a run. -/
def answer? (c : Completer) (first : List Event) (r : Request) (rest : List Event) :
    Option r.Answer := do
  let w ← World.empty.run c first
  let w' ← (w.call c r).1.run c rest
  w'.resume? (w.call c r).2

end World

/-- The second graph records what the first one does. -/
structure Graph.SameRecord (g g' : Graph) : Prop where
  id : g'.id = g.id
  /-- Stages are named by their positions. -/
  size : g'.stages.length = g.stages.length
  outcome? : ∀ n, g'.outcome? n = g.outcome? n
  committed : g'.committed = g.committed
  active : g'.active = g.active
  terminating : g'.terminating = g.terminating
  hooks : g'.hooks = g.hooks
  terminated : g'.terminated = g.terminated
  removed : g'.removed = g.removed

theorem Graph.sameRecord_relocate (m : Nat) (g : Graph) : g.SameRecord (g.relocate m) :=
  ⟨rfl, List.length_map _, fun n => outcome?_relocate m n g, rfl, rfl, rfl, rfl, rfl, rfl⟩

namespace World

variable {c : Completer} {f : Nat} {w v : World} {es : List Event}

/-- Whoever asks about a flow, besides the calls, is told the same. -/
structure SameView (id : FlowId) (w v : World) : Prop where
  stageCount : v.stageCount id = w.stageCount id
  hookStatus : v.hookStatus id = w.hookStatus id
  removeFlow : (v.removeFlow id).2 = (w.removeFlow id).2

theorem Shows.sameView (h : Shows f w v) (hinj : Function.Injective c.flowName)
    (hreach : w.Reachable c) : SameView (c.flowName f) w v := by
  refine ⟨?_, ?_, (h.removeFlow hinj hreach).1⟩
  all_goals
    simp only [stageCount, hookStatus]
    cases hfind : w.find (c.flowName f) with
    | error err => rw [h.find_error hfind]
    | ok p =>
        obtain ⟨n, g⟩ := p
        obtain ⟨rfl, -, hfind'⟩ := h.find_ok hinj hreach hfind
        simp [hfind', Except.map, Graph.relocate]

/-- The call at its place in the share of its flow. -/
theorem answer?_share {first rest : List Event} {r : Request}
    (hinj : Function.Injective c.flowName)
    (hrun : World.empty.run c (first ++ .call r :: rest) = some w)
    (hown : World.empty.OwnRun c (first ++ .call r :: rest))
    (hr : r.isOf c f (creations first) = true) :
    answer? (c.alone f) (share c f 0 first) r
        (share c f (creations first + (Event.call r).creates) rest) =
      answer? c first r rest := by
  obtain ⟨w₁, hfirst, hrest⟩ := Option.bind_eq_some_iff.mp (run_append .empty first _ ▸ hrun)
  have hrest : (w₁.call c r).1.run c rest = some w := hrest
  obtain ⟨hown₁, hown₂⟩ := hown.of_append hfirst
  -- The two completers up to the call,
  obtain ⟨v₁, hv₁, hfollows₁, -⟩ := (Follows.empty c f).run hinj hown₁ hfirst
  have hv₁ : World.empty.run (c.alone f) (share c f 0 first) = some v₁ := hv₁
  have hlength : w₁.graphs.length = creations first :=
    (length_run hown₁ hfirst).trans (Nat.zero_add _)
  rw [← hlength] at hr
  have hcall := hfollows₁.shows.call_of hinj hfollows₁.reachable hr
  -- what the call does to them,
  obtain ⟨v₂, hv₂, hfollows₂, -⟩ := hfollows₁.fire hinj hown₂.1 (e := .call r) rfl
  obtain rfl : v₂ = (v₁.call (c.alone f) r).1 := by
    simpa [Event.share?, hr, World.run, World.fire, eq_comm] using hv₂
  -- and how they go on from there.
  obtain ⟨v, hv, hfollows, -⟩ := hfollows₂.run hinj (hown₂.2 _ rfl) hrest
  rw [length_call, hlength] at hv
  simp only [answer?, hfirst, hrest, hv₁, hv, hcall.answer, Option.bind_eq_bind, Option.bind_some]
  exact hfollows.shows.resume? hcall.stays

/-- Flows on one completer do not interfere, if their names are distinct and bodies act only on the
flow that is current for them.  Of any run, what is left for one flow is a run of a completer that
never held another one.
* In the end this completer holds the graph of the flow and nothing else, at the same time and with
  everything in it as far as it is in the first completer.
* So the stages are the same and have the same results, and the record of the flow's life, the
  hooks with their failures and the state in which the flow has ended are the same.
* The same has been done for the flow in the same order: bodies were run, on the same arguments,
  stages and hooks have ended, the flow was committed, and its end was published.
* Every call that belongs to the flow has its place in what is left, and has got the same answer
  from there on, or none yet in both.
* At every moment, whoever asks for the number of the stages or for the hooks of the flow, or has
  the flow forgotten, is told the same. -/
theorem flows_do_not_interfere (hinj : Function.Injective c.flowName)
    (hrun : World.empty.run c es = some w) (hown : World.empty.OwnRun c es) (f : Nat) :
    ∃ v, World.empty.run (c.alone f) (share c f 0 es) = some v ∧ Shows f w v ∧
      (∀ g, w.graph? f = some g → ∃ g', v.graphs = [g'] ∧ g.SameRecord g') ∧
      deedsAt 0 (World.empty.history (c.alone f) (share c f 0 es)) =
        deedsAt f (World.empty.history c es) ∧
      (∀ first r rest, es = first ++ .call r :: rest → r.isOf c f (creations first) = true →
        ∃ rest', share c f 0 es = share c f 0 first ++ .call r :: rest' ∧
          answer? (c.alone f) (share c f 0 first) r rest' = answer? c first r rest) ∧
      ∀ first rest, es = first ++ rest → ∃ w₁ v₁, World.empty.run c first = some w₁ ∧
        World.empty.run (c.alone f) (share c f 0 first) = some v₁ ∧
        SameView (c.flowName f) w₁ v₁ := by
  obtain ⟨v, hv, hfollows, hdeeds⟩ := (Follows.empty c f).run hinj hown hrun
  refine ⟨v, hv, hfollows.shows, ?_, hdeeds, ?_, ?_⟩
  · intro g hg
    refine ⟨g.relocate 0, ?_, g.sameRecord_relocate 0⟩
    rw [hfollows.shows.graphs, hg]
    rfl
  · rintro first r rest rfl hr
    refine ⟨_, ?_, answer?_share hinj hrun hown hr⟩
    rw [share_append, Nat.zero_add, share_call hr]
  · rintro first rest rfl
    obtain ⟨w₁, hfirst, -⟩ := Option.bind_eq_some_iff.mp (run_append .empty first _ ▸ hrun)
    obtain ⟨v₁, hv₁, hfollows₁, -⟩ :=
      (Follows.empty c f).run hinj (hown.of_append hfirst).1 hfirst
    exact ⟨w₁, v₁, hfirst, hv₁, hfollows₁.shows.sameView hinj hfollows₁.reachable⟩

end World

/-- A body that waits for the first stage of its flow. -/
def Continuation.second : Continuation where
  kind := .supplier
  run _ _ := do
    let flow ← (FlowM.currentFlow : FlowM bodySignature FlowId)
    let _ ← (FlowM.call (.awaitStage flow ⟨"0"⟩ none) : FlowM bodySignature Outcome)
    return .empty

/-- A completer with this body. -/
def Completer.second : Completer := { plain with catalog := ⟨[("second", .second)]⟩ }

theorem Completer.keeps_second (r : Invocation) : (second.catalog.invoke r).Keeps r.flow := by
  refine Catalog.keeps_invoke ?_
  intro c hc
  obtain rfl : Continuation.second = c := by
    simp only [second, Catalog.find?, List.find?_cons, List.find?_nil] at hc
    split at hc
    · exact Option.some.inj hc
    · cases hc
  refine ⟨rfl, ?_⟩
  intro x
  cases x <;> trivial

namespace World

/-- Two flows with stages of the same names, whose bodies wait at the same time. -/
def crossingRun : List Event :=
  [.call (.createFlow "f"), .call (.createFlow "g"), .call (.addDelay ⟨"0"⟩ (.ofSeconds 2)),
    .call (.addDelay ⟨"1"⟩ (.ofSeconds 1)),
    .call (.addStage ⟨"0"⟩ ⟨.supply, some (.bare "second"), []⟩),
    .call (.addStage ⟨"1"⟩ ⟨.supply, some (.bare "second"), []⟩),
    .task (.stage 1 1), .task (.stage 0 1), .task (.stage 1 1), .task (.stage 0 1), .clock 1000,
    .task (.stage 1 0), .task (.stage 1 1)]

/-- The state after `crossingRun`. -/
def crossingState : World := (World.empty.run .second crossingRun).getD .empty

theorem flows_do_not_interfere_crossing :
    World.empty.run .second crossingRun = some crossingState ∧
      World.empty.OwnRun .second crossingRun ∧
      ∃ v, World.empty.run (Completer.second.alone 1)
          [.call (.createFlow "g"), .call (.addDelay ⟨"1"⟩ (.ofSeconds 1)),
            .call (.addStage ⟨"1"⟩ ⟨.supply, some (.bare "second"), []⟩), .task (.stage 0 1),
            .task (.stage 0 1), .clock 1000, .task (.stage 0 0), .task (.stage 0 1)] = some v ∧
        v.outcome? 0 1 = some (.success .empty) := by
  have hinj : Function.Injective Completer.second.flowName := Completer.plain_flowName_injective
  have hrun : World.empty.run .second crossingRun = some crossingState := rfl
  have hown := ownRun_of_keeps Completer.keeps_second ⟨[], rfl⟩ crossingRun
  refine ⟨hrun, hown, ?_⟩
  obtain ⟨v, hv, hshows, -⟩ := flows_do_not_interfere hinj hrun hown 1
  exact ⟨v, hv, (hshows.outcome? 1).trans rfl⟩

end World

end StageGraph
